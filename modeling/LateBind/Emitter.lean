import LateBind.Instr

/-! An emitter of method bodies. It resolves labels, numbers locals, pairs try with finally and
follows the height of the evaluation stack. Faults are kept until the body is finished, so that code
generators read as straight lines of instructions. -/

namespace LateBind

inductive RegionFault
  | tryWithItems (depth : UInt16)
  | finallyWithoutTry
  | secondFinally
  | endWithoutTry
  | endWithoutFinally
  | neverClosed (start : Nat)
  deriving DecidableEq, Repr

def RegionFault.message : RegionFault → String
  | tryWithItems depth => "try entered with " ++ toString depth ++ " stack items"
  | finallyWithoutTry => "finally without try"
  | secondFinally => "second finally for one try"
  | endWithoutTry => "end of region without try"
  | endWithoutFinally => "try closed without finally"
  | neverClosed start => "try opened at " ++ toString start ++ " never closed"

/-- Why a sequence of emitter calls gives no body. -/
inductive EmitError
  | unmarkedLabel (id : Nat)
  | labelMarkedTwice (label : Label)
  | region (fault : RegionFault)
  | stackUnderflow (position : Nat)
  deriving DecidableEq, Repr

def EmitError.message : EmitError → String
  | unmarkedLabel id => "label " ++ toString id ++ " is referenced but never marked"
  | labelMarkedTwice label => "label " ++ toString label.id ++ " is marked more than once"
  | region fault => "protected region misuse: " ++ fault.message
  | stackUnderflow position =>
    "evaluation stack underflow at instruction " ++ toString position

/-- What the emitter knows of a label: its place, and the stack height of the first branch to it. -/
structure LabelState where
  position : Option Nat
  depth : Option UInt16
  deriving DecidableEq, Repr

/-- A region that is not closed yet; its try part ends where its finally part starts. -/
structure OpenRegion where
  tryStart : Nat
  finallyStart : Option Nat
  exit : Label
  deriving DecidableEq, Repr

structure Emitter where
  instrs : Array Instr
  labels : Array LabelState
  locals : Array Local
  regions : Array Region
  /-- Innermost first. -/
  openRegions : List OpenRegion
  depth : UInt16
  maxDepth : UInt16
  reachable : Bool
  errors : Array EmitError

/-- How many items an instruction pops, and how many it pushes then. -/
def Instr.stackEffect (instr : Instr) : UInt16 × UInt16 :=
  let results (t : TypeRef) : UInt16 := if t.isVoid then 0 else 1
  match instr with
  | .ldarg _ | .ldloc _ | .ldcI4 _ | .ldcI8 _ | .ldnull | .ldstr _ | .ldsfld _
  | .ldtoken _ => (0, 1)
  | .stloc _ | .stsfld _ | .pop => (1, 0)
  | .dup => (1, 2)
  | .add | .sub | .cgtUn => (2, 1)
  | .convI | .convU | .convI4 | .convU1 | .castclass _ | .ldlen | .newarr _ => (1, 1)
  | .br _ | .leave _ | .endfinally | .ret => (0, 0)
  | .brtrue _ | .brfalse _ | .switch _ | .throw => (1, 0)
  | .blt _ => (2, 0)
  | .call m =>
    (UInt16.ofNat m.params.length + (if m.hasThis then 1 else 0), results m.returnType)
  | .calli site => (UInt16.ofNat site.params.length + 1, results site.returnType)
  | .newobj m => (UInt16.ofNat m.params.length, 1)
  | .ldelemI | .ldelemRef | .ldelema _ => (2, 1)
  | .stelemI | .stelemI1 => (3, 0)

/-- A computation that emits code. -/
abbrev Emit := StateM Emitter

namespace Emitter

def empty : Emitter := ⟨#[], #[], #[], #[], [], 0, 0, true, #[]⟩

/-- The position of the next instruction. -/
def position (e : Emitter) : Nat := e.instrs.size

def fault (e : Emitter) (error : EmitError) : Emitter := { e with errors := e.errors.push error }

def newLabel (e : Emitter) : Label × Emitter :=
  (⟨UInt32.ofNat e.labels.size⟩, { e with labels := e.labels.push ⟨none, none⟩ })

/-- Places a label before the next instruction; code that nothing falls into starts with the stack
height of the first branch to its label. -/
def placeLabel (e : Emitter) (l : Label) : Emitter :=
  match e.labels[l.id.toNat]? with
  | none => e
  | some state =>
    if state.position.isSome then e.fault (.labelMarkedTwice l)
    else
      let e := { e with
        labels := e.labels.setIfInBounds l.id.toNat { state with position := some e.position } }
      if e.reachable then e else { e with depth := state.depth.getD 0, reachable := true }

def newLocal (e : Emitter) (type : TypeRef) (pinned : Bool) : UInt16 × Emitter :=
  (UInt16.ofNat e.locals.size, { e with locals := e.locals.push ⟨type, pinned⟩ })

/-- Records the stack height at a branch, unless an earlier branch did. -/
def recordBranch (e : Emitter) (l : Label) : Emitter :=
  match e.labels[l.id.toNat]? with
  | some ⟨position, none⟩ =>
    { e with labels := e.labels.setIfInBounds l.id.toNat ⟨position, some e.depth⟩ }
  | _ => e

/-- Applies the stack effect of an instruction; an underflow empties the stack first. -/
def applyEffect (e : Emitter) (instr : Instr) : Emitter :=
  let (pops, pushes) := instr.stackEffect
  let e :=
    if e.depth < pops then { e.fault (.stackUnderflow e.position) with depth := 0 }
    else { e with depth := e.depth - pops }
  let depth := e.depth + pushes
  { e with depth, maxDepth := max e.maxDepth depth }

/-- Control does not pass behind a jump; `leave` empties the stack too. -/
def applyFlow (e : Emitter) : Instr → Emitter
  | .br _ | .ret | .throw | .endfinally => { e with reachable := false }
  | .leave _ => { e with depth := 0, reachable := false }
  | _ => e

def push (e : Emitter) (instr : Instr) : Emitter :=
  let e := instr.targets.foldl recordBranch (e.applyEffect instr)
  let e := e.applyFlow instr
  { e with instrs := e.instrs.push instr }

/-- Opens a try part and gives the label that follows the whole region. -/
def openTry (e : Emitter) : Label × Emitter :=
  let e := if e.depth ≠ 0 then e.fault (.region (.tryWithItems e.depth)) else e
  let start := e.position
  let (exit, e) := e.newLabel
  (exit, { e with openRegions := ⟨start, none, exit⟩ :: e.openRegions })

/-- Ends the innermost try part with a `leave` and opens its finally part. -/
def openFinally (e : Emitter) : Emitter :=
  match e.openRegions with
  | [] => e.fault (.region .finallyWithoutTry)
  | region :: outer =>
    let e := if e.reachable then e.push (.leave region.exit) else e
    if region.finallyStart.isSome then e.fault (.region .secondFinally)
    else
      { e with
        openRegions := { region with finallyStart := some e.position } :: outer
        depth := 0
        reachable := true }

/-- Ends the innermost finally part and places the label behind the region. -/
def closeTry (e : Emitter) : Emitter :=
  match e.openRegions with
  | [] => e.fault (.region .endWithoutTry)
  | region :: outer =>
    let e := { e with openRegions := outer }
    match region.finallyStart with
    | none => e.fault (.region .endWithoutFinally)
    | some start =>
      let e := if e.reachable then e.push .endfinally else e
      let closed : Region := ⟨region.tryStart, start, start, e.position⟩
      { e with regions := e.regions.push closed, depth := 0 }.placeLabel region.exit

/-- The fault that is reported: the first, and a region left open counts as the last. -/
def firstError? (e : Emitter) : Option EmitError :=
  match e.errors[0]? with
  | some error => some error
  | none => e.openRegions.getLast?.map fun region => .region (.neverClosed region.tryStart)

/-- The positions of all labels, numbered from `id`. -/
def resolveLabels (id : Nat) : List LabelState → Except EmitError (List Nat)
  | [] => .ok []
  | state :: rest =>
    match state.position with
    | none => .error (.unmarkedLabel id)
    | some position => (resolveLabels (id + 1) rest).map (position :: ·)

def finish (e : Emitter) : Except EmitError Body :=
  match e.firstError? with
  | some error => .error error
  | none =>
    (resolveLabels 0 e.labels.toList).map fun labels =>
      { locals := e.locals.toList
        instrs := e.instrs.toList
        labels
        regions := e.regions.toList
        initLocals := true
        maxStack := max e.maxDepth 1 }

end Emitter

namespace Emit

def defineLabel : Emit Label := fun e => e.newLabel

def markLabel (l : Label) : Emit Unit := modify (·.placeLabel l)

def declareLocal (type : TypeRef) : Emit UInt16 := fun e => e.newLocal type false

/-- A local whose referent stays in place while the local holds it. -/
def declarePinned (type : TypeRef) : Emit UInt16 := fun e => e.newLocal type true

def instr (i : Instr) : Emit Unit := modify (·.push i)

def instrs (is : List Instr) : Emit Unit := modify fun e => is.foldl Emitter.push e

def beginTry : Emit Label := fun e => e.openTry

def beginFinally : Emit Unit := modify Emitter.openFinally

def endTry : Emit Unit := modify Emitter.closeTry

/-- Runs a generator from the empty body. -/
def body (generate : Emit Unit) : Except EmitError Body :=
  (generate Emitter.empty).2.finish

end Emit

end LateBind
