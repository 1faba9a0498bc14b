import LateBind.Native.Script
import LateBind.Native.System
import LateBind.Value.Format

/-! Worlds as JSON: a platform, and libraries of scripted functions. An action or a result is an
array of its name and its operands. -/

namespace LateBind

namespace Json

/-- An array that starts with a name. -/
def step? : Json → Option (String × List Json)
  | arr (str name :: operands) => some (name, operands)
  | _ => none

/-- A distance in memory, which wraps. -/
def offset? (j : Json) : Option UInt64 :=
  (j.intIn? (-0x8000000000000000) 0x10000000000000000).map fun n =>
    UInt64.ofNat (n % 0x10000000000000000).toNat

/-- A member that may be absent or null. -/
def optional? {α : Type} (j : Json) (name : String) (decode : Json → Option α) :
    Option (Option α) :=
  match j.member? name with
  | none | some .null => some none
  | some v => (decode v).map some

end Json

namespace Platform

/-- The name of a known system, or the name of a Unix, or all three fields. -/
def ofJson? (j : Json) : Option Platform := do
  match j with
  | .str "linux" => some linux
  | .str "darwin" => some darwin
  | .str "freebsd" => some freeBSD
  | .str "netbsd" => some netBSD
  | .str "windows" => some windows
  | .obj [("unix", name)] => name.str?.map unix
  | _ =>
    let family : OsFamily ← match ← (← j.member? "family").str? with
      | "unix" => some .unix
      | "windows" => some .windows
      | _ => none
    some ⟨family, ← (← j.member? "sysname").str?, ← (← j.member? "newline").str?⟩

end Platform

namespace Place

/-- An argument number and an offset at the head of the operands; what is left out is zero. -/
def ofOperands? : List Json → Option (Place × List Json)
  | [] => some (⟨0, 0⟩, [])
  | [n] => do some (⟨← n.position?, 0⟩, [])
  | n :: offset :: rest => do some (⟨← n.position?, ← offset.offset?⟩, rest)

end Place

namespace Action

def onPlace? (action : Place → Action) (operands : List Json) : Option Action := do
  match ← Place.ofOperands? operands with
  | (place, []) => some (action place)
  | _ => none

def onPlaceWith? {α : Type} (decode : Json → Option α) (action : Place → α → Action)
    (operands : List Json) : Option Action := do
  match ← Place.ofOperands? operands with
  | (place, [v]) => some (action place (← decode v))
  | _ => none

def readTexts? (width : CharWidth) : List Json → Option Action
  | [n] => do some (.readTexts width (← n.position?) 0)
  | [n, count] => do some (.readTexts width (← n.position?) (← count.position?))
  | _ => none

def ofJson? (j : Json) : Option Action := do
  match ← j.step? with
  | ("cstr", operands) => onPlace? (.readText .byte) operands
  | ("wstr", operands) => onPlace? (.readText .unit) operands
  | ("strs", operands) => readTexts? .byte operands
  | ("wstrs", operands) => readTexts? .unit operands
  | ("bytes", operands) => onPlaceWith? Json.position? .readBytes operands
  | ("write", operands) => onPlaceWith? Json.bytes? .write operands
  | ("write_i32", operands) => onPlaceWith? Json.int32? .writeInt32 operands
  | ("write_ptr", operands) => onPlaceWith? Json.pointer? .writePointer operands
  | ("read_i32", operands) => onPlace? .readInt32 operands
  | ("read_ptr", operands) => onPlace? .readPointer operands
  | ("bump_i32", operands) => onPlace? .increment operands
  | ("block", operands) => onPlace? .inspect operands
  | ("call", [n, args]) => some (.call (← n.position?) (← args.list? NativeValue.ofJson?))
  | ("null", [n, v]) => some (.returnOnNull (← n.position?) (← NativeValue.ofJson? v))
  | ("raise", [message]) => some (.fail (.raised (← message.str?)))
  | ("fault", [message]) => some (.fail (.badArguments (← message.str?)))
  | ("crash", [p]) => some (.fail (.invalidAddress (← p.pointer?)))
  | _ => none

end Action

def ScriptResult.ofJson? (j : Json) : Option ScriptResult := do
  match ← j.step? with
  | ("void", []) => some (.const .void)
  | ("const", [v]) => some (.const (← NativeValue.ofJson? v))
  | ("arg", [n]) => some (.argument (← n.position?))
  | ("last", []) => some .last
  | ("add_i32", []) => some .addInt32
  | ("add_i64", []) => some .addInt64
  | ("add_f64", []) => some .addFloat
  | ("cstr", [content]) => some (.text .byte (← content.str?))
  | ("wstr", [content]) => some (.text .unit (← content.str?))
  | ("fn", [library, symbol]) => some (.function (← library.str?) (← symbol.str?))
  | _ => none

/-- A function without actions does nothing, and one without a result gives none. -/
def Script.ofJson? (j : Json) : Option Script := do
  let actions ← j.optional? "do" (Json.list? Action.ofJson?)
  let result ← j.optional? "ret" ScriptResult.ofJson?
  some ⟨← (← j.member? "name").str?, actions.getD [], result.getD (.const .void)⟩

def LibraryDecl.ofJson? (j : Json) : Option LibraryDecl := do
  let scripts ← (← j.member? "functions").list? Script.ofJson?
  some ⟨← (← j.member? "name").str?, scripts.map fun s => (s.name, s.body)⟩

/-- Linux and its own libraries are what is left out. -/
def World.ofJson? (j : Json) : Option World := do
  let platform ← j.optional? "platform" Platform.ofJson?
  let libraries ← j.optional? "libraries" (Json.list? LibraryDecl.ofJson?)
  some (.build (platform.getD .linux) (libraries.getD []))

def Note.toJson : Note → Json
  | .called function args => .arr [.str function, .arr (args.map NativeValue.toJson)]
  | .nothing => .null
  | .text content => .str content
  | .texts contents => .arr (contents.map (Json.option .str))
  | .bytes data => .bytes data
  | .value v => v.toJson
  | .kind k => .str k.display

def HeapStats.toJson (s : HeapStats) : Json :=
  .arr [.nat s.liveHGlobal, .nat s.hglobalAllocs, .nat s.hglobalFrees, .nat s.liveBlocks]

def LoadRequest.toJson (r : LoadRequest) : Json := .arr [.str r.name, .int32 r.flags]

end LateBind
