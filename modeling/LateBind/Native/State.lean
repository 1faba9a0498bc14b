import LateBind.Native.Heap
import LateBind.Value

/-! The state that native functions share, and the computations they are. -/

namespace LateBind

/-- A failure inside native code. -/
inductive NativeFault
  /-- An access outside every live block. -/
  | invalidAddress (address : UInt64)
  /-- Raised by the function; managed code sees it as an exception. -/
  | raised (message : String)
  /-- The arguments are not what the function expects. -/
  | badArguments (message : String)
  /-- The calls granted to the run are used up. -/
  | outOfFuel
  deriving DecidableEq, Repr

def NativeFault.message : NativeFault → String
  | invalidAddress address => "access violation at 0x" ++ Hex.ofNat address.toNat
  | raised message => "raised: " ++ message
  | badArguments message => "bad arguments: " ++ message
  | outOfFuel => "out of fuel"

/-- A request to open a library. -/
structure LoadRequest where
  name : String
  flags : Int32
  deriving DecidableEq, Repr

/-- What a native function tells about its run. -/
inductive Note
  | called (function : String) (arguments : List NativeValue)
  | nothing
  | text (text : String)
  | texts (texts : List (Option String))
  | bytes (bytes : Bytes)
  | value (value : NativeValue)
  | kind (kind : BlockKind)
  deriving DecidableEq, Repr

/-- What native functions can change. -/
structure NativeState where
  heap : Heap
  /-- Every request to open a library, in order. -/
  loads : List LoadRequest
  /-- The address of every function called, in order. -/
  calls : List UInt64
  notes : List Note
  deriving DecidableEq, Repr

def NativeState.start : NativeState := ⟨.empty, [], [], []⟩

/-- A computation of native code. What it changed stays changed when it fails. -/
abbrev Native := ExceptT NativeFault (StateM NativeState)

namespace Native

/-- An access to memory, which succeeds inside live blocks only. -/
def access {α : Type} (address : UInt64) (result : Heap → Option α) : Native α := do
  match result (← get).heap with
  | some a => return a
  | none => throw (.invalidAddress address)

/-- A change of memory, which succeeds inside live blocks only. -/
def change (address : UInt64) (result : Heap → Option Heap) : Native Unit := do
  let heap ← access address result
  modify fun p => { p with heap }

def read (address : UInt64) (length : Nat) : Native Bytes := access address (·.read? address length)

def write (address : UInt64) (bytes : Bytes) : Native Unit :=
  change address (·.write? address bytes)

def readInt32 (address : UInt64) : Native Int32 := access address (·.readInt32? address)

def writeInt32 (address : UInt64) (v : Int32) : Native Unit :=
  change address (·.writeInt32? address v)

def readPointer (address : UInt64) : Native UInt64 := access address (·.readPointer? address)

def writePointer (address : UInt64) (v : UInt64) : Native Unit :=
  change address (·.writePointer? address v)

/-- Text of one byte a character, up to a zero. -/
def readAnsi (address : UInt64) : Native String :=
  access address fun h => (h.readByteString? address).map Latin1.decode

/-- Text of UTF-16 units, up to a zero. -/
def readWide (address : UInt64) : Native String :=
  access address fun h => (h.readUnits? address).map Units.toText

/-- A block that the library keeps. -/
def allocStatic (bytes : Bytes) : Native UInt64 := do
  let (address, heap) := (← get).heap.allocBytes bytes .static
  modify fun p => { p with heap }
  return address

def allocAnsi (text : String) : Native UInt64 := allocStatic (Latin1.encode text ++ [0])

def allocWide (text : String) : Native UInt64 :=
  allocStatic (Bytes.ofUnits (Units.ofString text) ++ [0, 0])

def note (n : Note) : Native Unit := modify fun p => { p with notes := p.notes ++ [n] }

/-- An argument of the wanted kind. -/
def argument {α : Type} (kind : String) (convert : NativeValue → Option α)
    (args : List NativeValue) (index : Nat) : Native α :=
  match args[index]?.bind convert with
  | some a => return a
  | none => throw (.badArguments ("argument " ++ toString index ++ " is not " ++ kind))

def pointerArg : List NativeValue → Nat → Native UInt64 :=
  argument "a pointer" NativeValue.toPointer?

def int32Arg : List NativeValue → Nat → Native Int32 :=
  argument "an int32" NativeValue.toInt32?

def int64Arg : List NativeValue → Nat → Native Int64 :=
  argument "an int64" NativeValue.toInt64?

def floatArg : List NativeValue → Nat → Native Binary64 :=
  argument "a float" NativeValue.toFloat?

end Native

end LateBind
