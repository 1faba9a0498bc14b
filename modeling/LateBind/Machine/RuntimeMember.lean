import LateBind.Framework
import LateBind.Machine.Pins

/-! The members of the framework's library that the machine supplies. They are known by the full
name of their type and by their own name; the parameter types in a reference do not count. -/

namespace LateBind

inductive RuntimeMember
  | allocHGlobal
  | freeHGlobal
  | ptrToStringAnsi
  | ptrToStringUni
  | stringToHGlobalAnsi
  | stringToHGlobalUni
  | functionPointerForDelegate
  | delegateForFunctionPointer
  | stringEquals
  | stringConcat
  | stringLength
  | stringChars
  | newLine
  | offsetToStringData
  | typeFromHandle
  deriving DecidableEq, Repr

namespace RuntimeMember

/-- The reference that generated code has to a member. -/
def ref : RuntimeMember → MethodRef
  | allocHGlobal => Framework.allocHGlobal
  | freeHGlobal => Framework.freeHGlobal
  | ptrToStringAnsi => Framework.ptrToStringAnsi
  | ptrToStringUni => Framework.ptrToStringUni
  | stringToHGlobalAnsi => Framework.stringToHGlobalAnsi
  | stringToHGlobalUni => Framework.stringToHGlobalUni
  | functionPointerForDelegate => Framework.functionPointerForDelegate
  | delegateForFunctionPointer => Framework.delegateForFunctionPointer
  | stringEquals => Framework.stringEquals
  | stringConcat => Framework.stringConcat
  | stringLength => Framework.stringLength
  | stringChars => Framework.stringChars
  | newLine => Framework.newLine
  | offsetToStringData => Framework.offsetToStringData
  | typeFromHandle => Framework.typeFromHandle

def all : List RuntimeMember :=
  [allocHGlobal, freeHGlobal, ptrToStringAnsi, ptrToStringUni, stringToHGlobalAnsi,
    stringToHGlobalUni, functionPointerForDelegate, delegateForFunctionPointer, stringEquals,
    stringConcat, stringLength, stringChars, newLine, offsetToStringData, typeFromHandle]

/-- The member that a reference means. -/
def ofRef? (r : MethodRef) : Option RuntimeMember :=
  all.find? fun member =>
    member.ref.owner.display == r.owner.display && member.ref.name == r.name

/-- A pointer argument. -/
def pointer (v : Value) : Exec UInt64 :=
  match v.toPointer? with
  | some p => return p
  | none => Exec.unsupported (.notPointer v.kind)

def argumentNull {α : Type} (parameter : String) : Exec α :=
  Exec.raise "System.ArgumentNullException"
    ("Value cannot be null. (Parameter '" ++ parameter ++ "')")

/-- The units of a string; null has none. -/
def unitsOrNone : Value → Exec Units
  | .null => return []
  | v => Exec.stringUnits v

/-- A block with a copy of a string; null has no block. -/
def copyString (encode : Units → Bytes) : Value → Exec Value
  | .null => return .ptr 0
  | v => do return .ptr (← Exec.allocBytes (encode (← Exec.stringUnits v)) .hglobal)

/-- The string at an address; zero stands for null. -/
def readString (read : Heap → UInt64 → Option Units) (v : Value) : Exec Value := do
  let address ← pointer v
  if address = 0 then return .null
  else Exec.str (← Exec.access address (read · address))

/-- The entry point of a delegate. -/
def delegateTarget (v : Value) : Exec UInt64 := do
  match v with
  | .ref r =>
    match (← get).objects[r.index]? with
    | some (.delegate _ target) => return target
    | _ => argumentNull "d"
  | _ => argumentNull "d"

/-- The type that a type object stands for. -/
def typeOf (v : Value) : Exec TypeRef := do
  match v with
  | .ref r =>
    match ← Exec.object r with
    | .type t => return t
    | o => Exec.unsupported (.notType o.className)
  | _ => argumentNull "t"

/-- Calls a member. Arguments that are missing are null. -/
def call (platform : Platform) (member : RuntimeMember) (args : List Value) :
    Exec (Option Value) := do
  let first := args[0]?.getD .null
  let second := args[1]?.getD .null
  match member with
  | allocHGlobal =>
    return some (.ptr (← Exec.allocZeros (first.toInt32?.getD 0).toInt.toNat .hglobal))
  | freeHGlobal =>
    let address ← pointer first
    if address ≠ 0 then Exec.free address
    return none
  | ptrToStringAnsi =>
    return some (← readString (fun h a => (h.readByteString? a).map Latin1.units) first)
  | ptrToStringUni => return some (← readString Heap.readUnits? first)
  | stringToHGlobalAnsi =>
    return some (← copyString (fun units => Latin1.encode units.toText ++ [0]) first)
  | stringToHGlobalUni =>
    return some (← copyString (fun units => Bytes.ofUnits units ++ [0, 0]) first)
  | functionPointerForDelegate => return some (.ptr (← delegateTarget first))
  | delegateForFunctionPointer =>
    let target ← pointer first
    let t ← typeOf second
    return some (.ref (← Exec.alloc (.delegate t target)))
  | stringEquals =>
    match first, second with
    | .null, .null => return some (.ofBool true)
    | .null, _ | _, .null => return some (.ofBool false)
    | _, _ =>
      let left ← Exec.stringUnits first
      let right ← Exec.stringUnits second
      return some (.ofBool (left == right))
  | stringConcat =>
    let left ← unitsOrNone first
    let right ← unitsOrNone second
    return some (← Exec.str (left ++ right))
  | stringLength => return some (.i32 (Int32.ofNat (← Exec.stringUnits first).length))
  | stringChars =>
    let units ← Exec.stringUnits first
    let index := second.toInt32?.getD (-1)
    match (if index < 0 then none else units[index.toInt.toNat]?) with
    | some unit => return some (.i32 (Int32.ofNat unit.toNat))
    | none => Exec.indexOutOfRange
  | newLine => return some (← Exec.str (Units.ofString platform.newline))
  | offsetToStringData => return some (.i32 (Int32.ofNat Machine.stringDataOffset))
  | typeFromHandle => return some first

end RuntimeMember

namespace Machine

/-- Makes an object of the framework's library; exceptions are all it has. -/
def construct (ctor : MethodRef) (args : List Value) : Exec Value := do
  if ctor.name = ".ctor" ∧ ctor.owner.display = Framework.exception.display then
    let message ← RuntimeMember.unitsOrNone (args.head?.getD .null)
    return .ref (← Exec.alloc (.exception Framework.exception.display message.toText))
  else Exec.fatal (.missingMethod ctor.display)

end Machine

end LateBind
