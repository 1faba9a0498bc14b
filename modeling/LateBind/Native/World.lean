import LateBind.Native.Platform
import LateBind.Native.State

/-! The native libraries of a process and their functions. Handles and addresses are given out in
the order of declaration; they and the functions behind them never change. -/

namespace LateBind

structure Library where
  name : String
  handle : UInt64
  /-- Addresses of the exported symbols, latest first; of one symbol the latest counts. -/
  symbols : List (String × UInt64)
  deriving DecidableEq, Repr

/-- The tables that the system's loader answers from. -/
structure Catalog where
  platform : Platform
  libraries : List Library
  deriving DecidableEq, Repr

namespace Catalog

/-- Names are compared exactly. -/
def library? (c : Catalog) (name : String) : Option Library :=
  c.libraries.find? (·.name == name)

def handle? (c : Catalog) (name : String) : Option UInt64 := (c.library? name).map Library.handle

def isHandle (c : Catalog) (handle : UInt64) : Bool := c.libraries.any (·.handle == handle)

/-- The address of a symbol by the handle of its library, or zero. -/
def symbol (c : Catalog) (handle : UInt64) (name : String) : UInt64 :=
  ((c.libraries.find? (·.handle == handle)).bind fun l => l.symbols.lookup name).getD 0

/-- The address of a symbol by the name of its library. -/
def address? (c : Catalog) (library symbol : String) : Option UInt64 :=
  (c.library? library).bind fun l => l.symbols.lookup symbol

end Catalog

/-- What a native function has at hand besides its arguments. -/
structure NativeContext where
  catalog : Catalog
  /-- Calls the function at an address. -/
  call : UInt64 → List NativeValue → Native NativeValue

/-- Asks the system's loader for a library and gives its handle, or zero. -/
def NativeContext.openLibrary (cx : NativeContext) (name : String) (flags : Int32) :
    Native UInt64 := do
  modify fun p => { p with loads := p.loads ++ [⟨name, flags⟩] }
  return (cx.catalog.handle? name).getD 0

abbrev NativeBody := NativeContext → List NativeValue → Native NativeValue

structure NativeFunction where
  library : String
  symbol : String
  address : UInt64
  body : NativeBody

/-- A library as it is declared; declarations of one name are put together. -/
structure LibraryDecl where
  name : String
  functions : List (String × NativeBody)

structure World where
  catalog : Catalog
  functions : List NativeFunction

namespace World

def firstHandle : UInt64 := 0x1000

def firstAddress : UInt64 := 0x7F0000000000

/-- The `n`-th of a sequence that starts at a number. -/
def nth (first : UInt64) (n : Nat) : UInt64 := first + UInt64.ofNat (n * 0x10)

def empty (platform : Platform) : World := ⟨⟨platform, []⟩, []⟩

/-- Adds a library unless there is one of its name. -/
def addLibrary (w : World) (name : String) : World :=
  if (w.catalog.library? name).isSome then w
  else
    let library : Library := ⟨name, nth firstHandle w.catalog.libraries.length, []⟩
    { w with catalog := { w.catalog with libraries := w.catalog.libraries ++ [library] } }

/-- Adds a function under a new address, which the symbol then names. -/
def addFunction (w : World) (library symbol : String) (body : NativeBody) : World :=
  let address := nth firstAddress w.functions.length
  { catalog :=
      { w.catalog with
        libraries := w.catalog.libraries.map fun l =>
          if l.name = library then { l with symbols := (symbol, address) :: l.symbols } else l }
    functions := w.functions ++ [⟨library, symbol, address, body⟩] }

def declare (w : World) (decl : LibraryDecl) : World :=
  decl.functions.foldl (fun w (symbol, body) => w.addFunction decl.name symbol body)
    (w.addLibrary decl.name)

def function? (w : World) (address : UInt64) : Option NativeFunction :=
  w.functions.find? (·.address == address)

/-- Calls the function at an address. Functions call back through their context; `fuel` bounds how
deep calls go. -/
def invoke (w : World) : Nat → UInt64 → List NativeValue → Native NativeValue
  | 0, _, _ => throw .outOfFuel
  | fuel + 1, address, args =>
    match w.function? address with
    | none => throw (.invalidAddress address)
    | some f => do
      modify fun p => { p with calls := p.calls ++ [address] }
      f.body ⟨w.catalog, fun callee args => w.invoke fuel callee args⟩ args

/-- The library and the symbol of the function at an address. -/
def describe? (w : World) (address : UInt64) : Option String :=
  (w.function? address).map fun f => f.library ++ "!" ++ f.symbol

/-- How often the function that a symbol names has been called. -/
def callCount (w : World) (p : NativeState) (library symbol : String) : Nat :=
  match w.catalog.address? library symbol with
  | some address => p.calls.count address
  | none => 0

/-- A record of the libraries and the number of functions, for diagnostics. -/
def display (w : World) : String :=
  let names := w.catalog.libraries.map fun l => Text.quote l.name
  "NativeWorld \x7b platform: " ++ w.catalog.platform.display ++ ", libraries: [" ++
    ", ".intercalate names ++ "], functions: " ++ toString w.functions.length ++ " \x7d"

end World

end LateBind
