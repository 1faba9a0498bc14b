import LateBind.Layout
import LateBind.Native.World

/-! A loaded program and its state. The static fields, which hold scalars only, and the native side
last as long as the program; objects and pins belong to a session. -/

namespace LateBind

/-- A module with the native world around it. -/
structure Machine where
  module : Module
  world : World

/-- A static field and its eight bytes. -/
structure StaticCell where
  owner : TypeName
  name : String
  type : TypeRef
  word : UInt64
  deriving DecidableEq, Repr

/-- What a pinned block is a copy of. -/
inductive PinSource
  /-- The elements of an array from an index on. -/
  | elements (array : ObjRef) (start : Nat)
  | boxed (box : ObjRef)
  | str (text : ObjRef)
  deriving DecidableEq, Repr

/-- A native copy of managed data. It is brought up to date before every native call, read back
after it, and freed when the call from outside returns. -/
structure Pin where
  block : UInt64
  source : PinSource
  deriving DecidableEq, Repr

structure MachineState where
  native : NativeState
  statics : List StaticCell
  objects : Array Object
  pins : List Pin
  deriving DecidableEq, Repr

/-- A session has no objects at its start. -/
def MachineState.newSession (s : MachineState) : MachineState :=
  { s with objects := #[], pins := [] }

/-- Why code stops before it returns. -/
inductive Trap
  /-- An exception on its way to a finally part or out of the program. -/
  | exception (object : ObjRef)
  | fatal (error : MachineError)
  deriving DecidableEq, Repr

/-- A computation of the machine. What it changed stays changed when it stops. -/
abbrev Exec := ExceptT Trap (StateM MachineState)

namespace Exec

variable {α : Type}

def fatal (e : MachineError) : Exec α := throw (.fatal e)

def unsupported (gap : Gap) : Exec α := fatal (.unsupported gap)

def lift : Except MachineError α → Exec α
  | .ok a => pure a
  | .error e => fatal e

/-- Runs a computation and gives its trap as a result. -/
def attempt (x : Exec α) : Exec (Except Trap α) := fun s =>
  let (result, s) := x s
  (.ok result, s)

/-! ## Objects -/

def alloc (o : Object) : Exec ObjRef := do
  let s ← get
  set { s with objects := s.objects.push o }
  return ⟨s.objects.size⟩

def str (units : Units) : Exec Value := do return .ref (← alloc (.str units))

def object (r : ObjRef) : Exec Object := do
  match (← get).objects[r.index]? with
  | some o => return o
  | none => unsupported (.danglingObject r)

def setObject (r : ObjRef) (o : Object) : Exec Unit :=
  modify fun s => { s with objects := s.objects.setIfInBounds r.index o }

/-- Replaces one item of an array. -/
def setItem (array : ObjRef) (position : Nat) (v : Value) : Exec Unit :=
  modify fun s => { s with objects := s.objects.modify array.index (·.setItem position v) }

/-! ## Exceptions -/

/-- Throws a new exception. -/
def raise (className message : String) : Exec α := do
  throw (.exception (← alloc (.exception className message)))

def nullReference : Exec α :=
  raise "System.NullReferenceException" "Object reference not set to an instance of an object."

def indexOutOfRange : Exec α :=
  raise "System.IndexOutOfRangeException" "Index was outside the bounds of the array."

/-- The object that a value refers to, seen as one of a kind; `gap` names what else was found. -/
def view (select : Object → Option α) (gap : String → Gap) : Value → Exec α
  | .ref r => do
    let o ← object r
    match select o with
    | some a => return a
    | none => unsupported (gap o.className)
  | .null => nullReference
  | v => unsupported (gap v.kind.display)

def stringUnits : Value → Exec Units :=
  view (fun | .str units => some units | _ => none) .notString

def arrayItems : Value → Exec (Array Value) :=
  view (fun | .array _ items => some items | _ => none) .notArray

/-- The place of an index in a list of items. -/
def position (items : Array Value) (index : Int32) : Exec Nat :=
  if 0 ≤ index ∧ index.toInt.toNat < items.size then return index.toInt.toNat
  else indexOutOfRange

/-- The item of an array at an index. -/
def item (array : Value) (index : Int32) : Exec Value := do
  let items ← arrayItems array
  match (if index < 0 then none else items[index.toInt.toNat]?) with
  | some v => return v
  | none => indexOutOfRange

/-- An array and the place of an index in it. -/
def slot (array : Value) (index : Int32) : Exec (ObjRef × Nat) := do
  let place ← position (← arrayItems array) index
  match array with
  | .ref r => return (r, place)
  | _ => nullReference

/-! ## Native memory -/

/-- An access to native memory. -/
def access {α : Type} (address : UInt64) (result : Heap → Option α) : Exec α := do
  match result (← get).native.heap with
  | some a => return a
  | none => fatal (.invalidAddress address)

def setHeap (heap : Heap) : Exec Unit :=
  modify fun s => { s with native := { s.native with heap } }

/-- A new block of zeros. -/
def allocZeros (size : Nat) (kind : BlockKind) : Exec UInt64 := do
  let (address, heap) := (← get).native.heap.alloc size kind
  setHeap heap
  return address

/-- A new block with the given bytes. -/
def allocBytes (bytes : Bytes) (kind : BlockKind) : Exec UInt64 := do
  let (address, heap) := (← get).native.heap.allocBytes bytes kind
  setHeap heap
  return address

def free (address : UInt64) : Exec Unit := do
  match (← get).native.heap.free address with
  | .ok heap => setHeap heap
  | .error .freedBefore => fatal (.doubleFree address)
  | .error .noBlock => fatal (.invalidFree address)

/-- Runs native code and gives its fault as a result. -/
def native (code : Native α) : Exec (Except NativeFault α) := fun s =>
  let (result, native) := code s.native
  (.ok result, { s with native })

end Exec

/-! ## Static fields -/

namespace Machine

/-- Scalars fit in eight bytes and refer to no object. -/
def isScalar (m : Module) : TypeRef → Bool
  | .primitive p => p.isNumericOrPointer || p == .boolean || p == .char
  | .pointer _ => true
  | .named name =>
    match (m.findType? name).map TypeDef.kind with
    | some (.enum _) => true
    | _ => false
  | .array _ _ | .byRef _ => false

/-- Adds a cell; it takes the place of one of the same name. -/
def addCell (cells : List StaticCell) (cell : StaticCell) : List StaticCell :=
  cells.filter (fun c => c.owner != cell.owner || c.name != cell.name) ++ [cell]

/-- The scalar static fields of the module's own types, all zero. -/
def staticCells (m : Module) : List StaticCell :=
  m.types.foldl (fun cells t =>
    (t.fields.filter fun f => f.isStatic && isScalar m f.type).foldl (fun cells f =>
      addCell cells ⟨t.name, f.name, f.type, 0⟩) cells) []

def cell? (s : MachineState) (owner : TypeName) (name : String) : Option StaticCell :=
  s.statics.find? fun c => c.owner == owner && c.name == name

def loadCell (m : Machine) (c : StaticCell) : Except MachineError Value :=
  m.module.decode c.type (Bytes.ofWord c.word)

/-- The value of a static field, if the machine has the field and its type has values. -/
def staticValue? (m : Machine) (s : MachineState) (owner : TypeName) (name : String) :
    Option Value :=
  (cell? s owner name).bind fun c => (m.loadCell c).toOption

def loadStatic (m : Machine) (f : FieldRef) : Exec Value := do
  match cell? (← get) f.owner f.name with
  | some c => Exec.lift (m.loadCell c)
  | none => Exec.fatal (.missingField f.display)

def storeStatic (m : Machine) (f : FieldRef) (v : Value) : Exec Unit := do
  match cell? (← get) f.owner f.name with
  | none => Exec.fatal (.missingField f.display)
  | some c =>
    let bytes ← Exec.lift (m.module.encode c.type v)
    modify fun s =>
      { s with
        statics := s.statics.map fun other =>
          if other.owner = c.owner ∧ other.name = c.name then { other with word := bytes.toWord }
          else other }

end Machine

end LateBind
