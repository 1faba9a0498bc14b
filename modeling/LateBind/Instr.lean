import LateBind.Text.Quoted
import LateBind.TypeRef

/-! Instructions, the members and call sites they mention, and method bodies. -/

namespace LateBind

/-- A branch target, by its number in the body's label table. -/
structure Label where
  id : UInt32
  deriving DecidableEq, Repr

def Label.display (l : Label) : String := "L" ++ toString l.id

/-- A method as `call` and `newobj` name it. -/
structure MethodRef where
  owner : TypeName
  name : String
  params : List TypeRef
  returnType : TypeRef
  /-- Constructors count as instance methods. -/
  hasThis : Bool
  deriving DecidableEq, Repr

namespace MethodRef

def static (owner : TypeName) (name : String) (params : List TypeRef) (returnType : TypeRef) :
    MethodRef :=
  ⟨owner, name, params, returnType, false⟩

def constructor (owner : TypeName) (params : List TypeRef) : MethodRef :=
  ⟨owner, ".ctor", params, .void, true⟩

def display (m : MethodRef) : String :=
  (if m.hasThis then "instance " else "") ++ m.returnType.display ++ " " ++ m.owner.display ++
    "::" ++ m.name ++ "(" ++ TypeRef.displayList m.params ++ ")"

end MethodRef

/-- A static field. -/
structure FieldRef where
  owner : TypeName
  name : String
  type : TypeRef
  deriving DecidableEq, Repr

def FieldRef.display (f : FieldRef) : String :=
  f.type.display ++ " " ++ f.owner.display ++ "::" ++ f.name

/-- How an indirect call passes its arguments. -/
inductive CallConv
  | cdecl | stdCall | thisCall | fastCall
  deriving DecidableEq, Repr

def CallConv.display : CallConv → String
  | cdecl => "unmanaged cdecl"
  | stdCall => "unmanaged stdcall"
  | thisCall => "unmanaged thiscall"
  | fastCall => "unmanaged fastcall"

/-- Signature of the target of an indirect call. -/
structure CallSite where
  convention : CallConv
  returnType : TypeRef
  params : List TypeRef
  deriving DecidableEq, Repr

def CallSite.display (site : CallSite) : String :=
  site.convention.display ++ " " ++ site.returnType.display ++ "(" ++
    TypeRef.displayList site.params ++ ")"

inductive Instr
  | ldarg (index : UInt16)
  | ldloc (index : UInt16)
  | stloc (index : UInt16)
  | ldcI4 (value : Int32)
  | ldcI8 (value : Int64)
  | ldnull
  | ldstr (text : String)
  | ldsfld (field : FieldRef)
  | stsfld (field : FieldRef)
  | dup
  | pop
  | add
  | sub
  /-- Unsigned greater-than, as 1 or 0. -/
  | cgtUn
  | convI
  | convU
  | convI4
  | convU1
  | br (target : Label)
  | brtrue (target : Label)
  | brfalse (target : Label)
  /-- Branches on signed less-than. -/
  | blt (target : Label)
  /-- Jumps by a zero-based number and falls through when it is out of range. -/
  | switch (targets : List Label)
  /-- Leaves the regions that do not hold the target, running their finally parts. -/
  | leave (target : Label)
  | endfinally
  | call (method : MethodRef)
  | calli (site : CallSite)
  | newobj (ctor : MethodRef)
  | newarr (element : TypeRef)
  | ldlen
  | ldelemI
  | ldelemRef
  | stelemI
  | stelemI1
  | ldelema (element : TypeRef)
  | ldtoken (type : TypeRef)
  | castclass (type : TypeRef)
  | throw
  | ret
  deriving DecidableEq, Repr

namespace Instr

/-- Labels the instruction can go to. -/
def targets : Instr → List Label
  | br l | brtrue l | brfalse l | blt l | leave l => [l]
  | switch ls => ls
  | _ => []

def mnemonic : Instr → String
  | ldarg _ => "ldarg"
  | ldloc _ => "ldloc"
  | stloc _ => "stloc"
  | ldcI4 _ => "ldc.i4"
  | ldcI8 _ => "ldc.i8"
  | ldnull => "ldnull"
  | ldstr _ => "ldstr"
  | ldsfld _ => "ldsfld"
  | stsfld _ => "stsfld"
  | dup => "dup"
  | pop => "pop"
  | add => "add"
  | sub => "sub"
  | cgtUn => "cgt.un"
  | convI => "conv.i"
  | convU => "conv.u"
  | convI4 => "conv.i4"
  | convU1 => "conv.u1"
  | br _ => "br"
  | brtrue _ => "brtrue"
  | brfalse _ => "brfalse"
  | blt _ => "blt"
  | switch _ => "switch"
  | leave _ => "leave"
  | endfinally => "endfinally"
  | call _ => "call"
  | calli _ => "calli"
  | newobj _ => "newobj"
  | newarr _ => "newarr"
  | ldlen => "ldlen"
  | ldelemI => "ldelem.i"
  | ldelemRef => "ldelem.ref"
  | stelemI => "stelem.i"
  | stelemI1 => "stelem.i1"
  | ldelema _ => "ldelema"
  | ldtoken _ => "ldtoken"
  | castclass _ => "castclass"
  | throw => "throw"
  | ret => "ret"

def operand? : Instr → Option String
  | ldarg i | ldloc i | stloc i => some (toString i)
  | ldcI4 v => some (toString v)
  | ldcI8 v => some (toString v)
  | ldstr s => some (Text.quote s)
  | ldsfld f | stsfld f => some f.display
  | br l | brtrue l | brfalse l | blt l | leave l => some l.display
  | switch ls => some ("(" ++ ", ".intercalate (ls.map Label.display) ++ ")")
  | call m | newobj m => some m.display
  | calli site => some site.display
  | newarr t | ldelema t | ldtoken t | castclass t => some t.display
  | _ => none

def display (i : Instr) : String :=
  match i.operand? with
  | some operand => i.mnemonic ++ " " ++ operand
  | none => i.mnemonic

end Instr

/-- A local variable; a pinned one keeps its referent in place. -/
structure Local where
  type : TypeRef
  pinned : Bool
  deriving DecidableEq, Repr

/-- A try part and its finally part, as half-open ranges of instruction positions. -/
structure Region where
  tryStart : Nat
  tryEnd : Nat
  finallyStart : Nat
  finallyEnd : Nat
  deriving DecidableEq, Repr

namespace Region

def tryContains (r : Region) (pc : Nat) : Bool := r.tryStart ≤ pc && pc < r.tryEnd

def finallyContains (r : Region) (pc : Nat) : Bool := r.finallyStart ≤ pc && pc < r.finallyEnd

end Region

/-- The body of a method. -/
structure Body where
  locals : List Local
  instrs : List Instr
  /-- The position of each label, by its number. -/
  labels : List Nat
  /-- Inner regions come before the regions around them. -/
  regions : List Region
  initLocals : Bool
  maxStack : UInt16
  deriving DecidableEq, Repr

namespace Body

def target? (body : Body) (l : Label) : Option Nat := body.labels[l.id.toNat]?

/-- The label lines of a listing that stand before a position. -/
def labelLines (body : Body) (position : Nat) : List String :=
  (body.labels.zipIdx.filter fun (place, _) => place = position).map fun (_, id) =>
    "L" ++ toString id ++ ":\n"

/-- The region openings of a listing that stand before a position. -/
def openingLines (body : Body) (position : Nat) : List String :=
  body.regions.flatMap fun r =>
    (if r.tryStart = position then [".try \x7b\n"] else []) ++
      (if r.finallyStart = position then ["\x7d finally \x7b\n"] else [])

/-- The region closings of a listing that stand after the instruction at a position. -/
def closingLines (body : Body) (position : Nat) : List String :=
  body.regions.flatMap fun r => if r.finallyEnd = position + 1 then ["\x7d\n"] else []

/-- The number of an instruction, in four digits or more. -/
def offsetText (position : Nat) : String :=
  let digits := toString position
  String.ofList (List.replicate (4 - digits.length) '0') ++ digits

/-- One instruction a line, between label and region marks. -/
def listing (body : Body) : String :=
  let lines := body.instrs.zipIdx.flatMap fun (instr, i) =>
    body.labelLines i ++ body.openingLines i ++
      ["  IL_" ++ offsetText i ++ ": " ++ instr.display ++ "\n"] ++ body.closingLines i
  String.join (lines ++ body.labelLines body.instrs.length)

/-- The instructions without their operands. -/
def mnemonics (body : Body) : List String := body.instrs.map Instr.mnemonic

end Body

end LateBind
