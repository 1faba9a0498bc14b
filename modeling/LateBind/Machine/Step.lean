import LateBind.Machine.NativeCall
import LateBind.Machine.RuntimeMember

/-! One instruction. What it does to its own frame and to the machine is here; where control goes is
told to the loop that runs the body, and methods are called through a parameter. -/

namespace LateBind

/-- A method while it runs. -/
structure Frame where
  /-- The method, for diagnostics. -/
  name : String
  returnType : TypeRef
  body : Body
  args : List Value
  locals : List Value
  /-- The evaluation stack, its top first. -/
  stack : List Value
  pc : Nat
  deriving DecidableEq, Repr

/-- How a body, or a finally part of it, ends. -/
inductive Exit
  | ret (value : Option Value)
  | endfinally
  deriving DecidableEq, Repr

/-- Where control goes after an instruction. -/
inductive Flow
  | next
  | jump (target : Nat)
  /-- Goes to a target by way of the finally parts of the regions that do not hold it. -/
  | leave (target : Nat)
  | exit (how : Exit)
  deriving DecidableEq, Repr

/-- How an instruction calls other code. -/
structure Callees where
  method : OwnedMethod → List Value → Exec (Option Value)
  native : Machine.NativeCall

/-- A computation in a frame. A trap leaves the frame as it was before the instruction. -/
abbrev Step := StateT Frame Exec

namespace Step

variable {α : Type}

def push (v : Value) : Step Unit := modify fun f => { f with stack := v :: f.stack }

def underflow (f : Frame) : Exec α := Exec.fatal (.stackUnderflow f.name f.pc)

def pop : Step Value := do
  let f ← get
  match f.stack with
  | v :: rest =>
    set { f with stack := rest }
    return v
  | [] => underflow f

/-- Pops arguments; the last is on top. -/
def popArgs (count : Nat) : Step (List Value) := do
  let f ← get
  if f.stack.length < count then underflow f
  set { f with stack := f.stack.drop count }
  return (f.stack.take count).reverse

def mismatch (expected : Expectation) (found : Value) : Step α := do
  let f ← get
  (Exec.fatal (.typeMismatch f.name f.pc expected found.kind) : Exec α)

/-- What an operand is good for, or a mismatch. -/
def expect (expected : Expectation) (found : Value) : Option α → Step α
  | some a => pure a
  | none => mismatch expected found

def popInt32 : Step Int32 := do
  let v ← pop
  expect .int32 v v.toInt32?

def target (l : Label) : Step Nat := do
  let f ← get
  match f.body.target? l with
  | some place => return place
  | none => (Exec.fatal (.badLabel f.name) : Exec Nat)

def jump (l : Label) : Step Flow := do return .jump (← target l)

end Step

/-! ## Operands -/

/-- Addition or subtraction of numbers of one kind; with a pointer, integers count as pointers. -/
def arithmetic (int32 : Int32 → Int32 → Int32) (int64 : Int64 → Int64 → Int64)
    (float : Binary64 → Binary64 → Binary64) (pointer : UInt64 → UInt64 → UInt64) :
    Value → Value → Option Value
  | .i32 a, .i32 b => some (.i32 (int32 a b))
  | .i64 a, .i64 b => some (.i64 (int64 a b))
  | .f64 a, .f64 b => some (.f64 (float a b))
  | .ptr a, b => b.toPointer?.map fun b => .ptr (pointer a b)
  | a, .ptr b => a.toPointer?.map fun a => .ptr (pointer a b)
  | _, _ => none

namespace Value

def add : Value → Value → Option Value := arithmetic (· + ·) (· + ·) Binary64.add (· + ·)

def sub : Value → Value → Option Value := arithmetic (· - ·) (· - ·) Binary64.sub (· - ·)

/-- The operand of an unsigned comparison; a reference counts as one and null as zero. -/
def toUnsigned? : Value → Option UInt64
  | i32 v => some v.toUInt32.toUInt64
  | i64 v => some v.toUInt64
  | ptr v => some v
  | null => some 0
  | ref _ => some 1
  | f64 _ | address _ | struct _ => none

/-- The bits of an integer, those of four bytes without their sign. -/
def toWord? : Value → Option UInt64
  | i32 v => some v.toUInt32.toUInt64
  | i64 v => some v.toUInt64
  | ptr v => some v
  | _ => none

/-- Signed less-than of integers of one width. -/
def less? : Value → Value → Option Bool
  | i32 a, i32 b => some (a < b)
  | i64 a, i64 b => some (a < b)
  | _, _ => none

end Value

namespace Step

/-- The native address for `conv.i`: a reference pins what it refers to. -/
def toNativeInt (m : Machine) (v : Value) : Step UInt64 :=
  match v with
  | .null => return 0
  | .address target => m.pinAddress target
  | .ref r => m.pinString r
  | v => expect .pinnable v v.toPointer?

/-- Pops an index and an array, and looks there. -/
def popElement {α : Type} (look : Value → Int32 → Exec α) : Step α := do
  let index ← popInt32
  let array ← pop
  look array index

/-- Pops a value, an index and an array, and stores what the value is good for. -/
def storeElement (convert : Value → Step Value) : Step Unit := do
  let v ← pop
  let index ← popInt32
  let array ← pop
  let stored ← convert v
  let (array, position) ← Exec.slot array index
  Exec.setItem array position stored

/-- A new array of default values. -/
def newArray (m : Machine) (element : TypeRef) (count : Int32) : Exec Value := do
  if count < 0 then
    Exec.raise "System.OverflowException" "Arithmetic operation resulted in an overflow."
  else
    let items := Array.replicate count.toInt.toNat (m.module.defaultValue element)
    return .ref (← Exec.alloc (.array element items))

/-- Lets everything pass but a delegate of another type. -/
def cast (t : TypeRef) (v : Value) : Exec Value := do
  if let .ref r := v then
    if let .delegate actual _ ← Exec.object r then
      if actual ≠ t then
        Exec.raise "System.InvalidCastException"
          ("Unable to cast object of type '" ++ actual.display ++ "' to type '" ++ t.display ++
            "'.")
  return v

/-- Calls a method of the module, or else a member of the framework's library. -/
def callMethod (m : Machine) (callees : Callees) (method : MethodRef) (args : List Value) :
    Exec (Option Value) :=
  match m.module.resolveMethod? method.owner method.name method.params with
  | some callee => callees.method callee args
  | none =>
    match RuntimeMember.ofRef? method with
    | some member => member.call m.world.catalog.platform args
    | none => Exec.fatal (.missingMethod method.display)

def pushResult : Option Value → Step Unit
  | some v => push v
  | none => pure ()

/-- Does an instruction whose successor is the one behind it. -/
def perform (m : Machine) (callees : Callees) (instr : Instr) : Step Unit := do
  match instr with
  | .ldarg index =>
    let f ← get
    match f.args[index.toNat]? with
    | some v => push v
    | none => (Exec.unsupported (.noArgument index f.name) : Exec Unit)
  | .ldloc index =>
    let f ← get
    match f.locals[index.toNat]? with
    | some v => push v
    | none => (Exec.unsupported (.noLocal index f.name) : Exec Unit)
  | .stloc index =>
    let v ← pop
    let f ← get
    if index.toNat < f.locals.length then set { f with locals := f.locals.set index.toNat v }
    else (Exec.unsupported (.noLocalToStore index) : Exec Unit)
  | .ldcI4 v => push (.i32 v)
  | .ldcI8 v => push (.i64 v)
  | .ldnull => push .null
  | .ldstr text => push (← Exec.str (Units.ofString text))
  | .ldsfld field => push (← m.loadStatic field)
  | .stsfld field => m.storeStatic field (← pop)
  | .dup =>
    let v ← pop
    push v
    push v
  | .pop => discard pop
  | .add =>
    let right ← pop
    let left ← pop
    push (← expect .numeric right (left.add right))
  | .sub =>
    let right ← pop
    let left ← pop
    push (← expect .numeric right (left.sub right))
  | .cgtUn =>
    let right ← pop
    let left ← pop
    match left.toUnsigned?, right.toUnsigned? with
    | some a, some b => push (.ofBool (b < a))
    | _, _ => mismatch .comparable left
  | .convI => push (.ptr (← toNativeInt m (← pop)))
  | .convU =>
    let v ← pop
    push (.ptr (← expect .integer v v.toWord?))
  | .convI4 =>
    let v ← pop
    push (.i32 (← expect .integer v v.toWord?).toUInt32.toInt32)
  | .convU1 =>
    let v ← pop
    push (.i32 ((← expect .integer v v.toWord?) &&& 0xFF).toUInt32.toInt32)
  | .call method =>
    let args ← popArgs (method.params.length + (if method.hasThis then 1 else 0))
    pushResult (← callMethod m callees method args)
  | .calli site =>
    let pointer ← pop
    let address ← expect .functionPointer pointer pointer.toPointer?
    let args ← popArgs site.params.length
    pushResult (← m.callIndirect callees.native address site args)
  | .newobj ctor => push (← Machine.construct ctor (← popArgs ctor.params.length))
  | .newarr element => push (← newArray m element (← popInt32))
  | .ldlen => push (.ptr (UInt64.ofNat (← Exec.arrayItems (← pop)).size))
  | .ldelemI | .ldelemRef => push (← popElement Exec.item)
  | .stelemI => storeElement fun v => do return .ptr (← expect .nativeInt v v.toPointer?)
  | .stelemI1 => storeElement fun v => do return .i32 ((← expect .int32 v v.toInt32?) &&& 0xFF)
  | .ldelema _ =>
    let (array, position) ← popElement Exec.slot
    push (.address (.element array position))
  | .ldtoken t => push (.ref (← Exec.alloc (.type t)))
  | .castclass t => push (← cast t (← pop))
  | .br _ | .brtrue _ | .brfalse _ | .blt _ | .switch _ | .leave _ | .endfinally | .throw | .ret =>
    pure ()

/-- Does an instruction. -/
def instr (m : Machine) (callees : Callees) (i : Instr) : Step Flow := do
  match i with
  | .br l => jump l
  | .brtrue l => if (← pop).isTrue then jump l else return .next
  | .brfalse l => if (← pop).isTrue then return .next else jump l
  | .blt l =>
    let right ← pop
    let left ← pop
    if ← expect .int32Operands left (left.less? right) then jump l else return .next
  | .switch labels =>
    let index ← popInt32
    match (if index < 0 then none else labels[index.toInt.toNat]?) with
    | some l => jump l
    | none => return .next
  | .leave l => return .leave (← target l)
  | .endfinally => return .exit .endfinally
  | .throw =>
    match ← pop with
    | .ref r => throw (.exception r)
    | _ => (Exec.nullReference : Exec Flow)
  | .ret =>
    if (← get).returnType.isVoid then return .exit (.ret none)
    else return .exit (.ret (some (← pop)))
  | i =>
    perform m callees i
    return .next

end Step

end LateBind
