import LateBind.Machine.Step

/-! Running methods. Control leaves a protected region in two ways: `leave` runs the finally parts
of the regions that it goes out of, and an exception those of the regions around the instruction
that threw it, both in the order of the region table, which is innermost first. `fuel` bounds the
length of a run and the depth of its calls. -/

namespace LateBind

namespace Body

/-- The regions that a jump goes out of. -/
def regionsLeft (body : Body) (source target : Nat) : List Region :=
  body.regions.filter fun r => r.tryContains source && !r.tryContains target

/-- The regions around a position. -/
def regionsAround (body : Body) (pc : Nat) : List Region :=
  body.regions.filter (·.tryContains pc)

end Body

/-- The frame that a method starts in. -/
def Frame.start (m : Module) (callee : OwnedMethod) (body : Body) (args : List Value) : Frame :=
  { name := callee.qualifiedName
    returnType := callee.method.returnType
    body
    args
    locals := body.locals.map fun l => m.defaultValue l.type
    stack := []
    pc := 0 }

namespace Machine

mutual

/-- Calls a method of the module: an import stub through the native world, any other by its body. -/
def invoke (m : Machine) : Nat → OwnedMethod → List Value → Exec (Option Value)
  | 0, _, _ => Exec.fatal .outOfFuel
  | fuel + 1, callee, args =>
    match callee.method.importInfo, callee.method.body with
    | some info, _ => m.callImport (m.world.invoke fuel) callee.method info args
    | none, none => Exec.fatal (.missingBody callee.qualifiedName)
    | none, some body => do
      let (how, _) ← run m fuel (.start m.module callee body args)
      match how with
      | .ret v => return v
      | .endfinally => Exec.unsupported (.strayEndfinally callee.qualifiedName)

/-- Runs a frame from its position until its body, or a finally part, ends. -/
def run (m : Machine) : Nat → Frame → Exec (Exit × Frame)
  | 0, _ => Exec.fatal .outOfFuel
  | fuel + 1, f =>
    match f.body.instrs[f.pc]? with
    | none => Exec.unsupported (.endOfCode f.name)
    | some i => do
      let callees : Callees := ⟨fun callee args => invoke m fuel callee args, m.world.invoke fuel⟩
      match ← Exec.attempt ((Step.instr m callees i).run f) with
      | .ok (.next, after) => run m fuel { after with pc := f.pc + 1 }
      | .ok (.jump target, after) => run m fuel { after with pc := target }
      | .ok (.leave target, after) => do
        let regions := f.body.regionsLeft f.pc target
        let after ← regions.foldlM (fun f r => runFinally m fuel r f) { after with stack := [] }
        run m fuel { after with pc := target }
      | .ok (.exit how, after) => return (how, after)
      | .error (.exception object) => do
        let regions := f.body.regionsAround f.pc
        let _ ← regions.foldlM (fun f r => runFinally m fuel r f) f
        throw (.exception object)
      | .error (.fatal e) => Exec.fatal e

/-- Runs the finally part of a region on an empty stack, and puts the stack back. -/
def runFinally (m : Machine) : Nat → Region → Frame → Exec Frame
  | 0, _, _ => Exec.fatal .outOfFuel
  | fuel + 1, r, f => do
    let (how, after) ← run m fuel { f with stack := [], pc := r.finallyStart }
    match how with
    | .endfinally => return { after with stack := f.stack }
    | .ret _ => Exec.unsupported (.returnInFinally f.name)

end

/-! ## Calls from outside -/

/-- What a trap is to the outside, where nothing is left to handle an exception. -/
def unhandled (s : MachineState) : Trap → MachineError
  | .fatal e => e
  | .exception r =>
    match s.objects[r.index]? with
    | some (.exception className message) => .unhandled className message
    | some o => .unhandled o.className ""
    | none => .unsupported (.thrownObjectGone r)

/-- A computation that is asked for from outside. -/
abbrev Session := ExceptT MachineError (StateM MachineState)

/-- Calls a method and then frees what it pinned; its own failure comes before one of the
freeing. -/
def call (m : Machine) (fuel : Nat) (callee : OwnedMethod) (args : List Value) :
    Session (Option Value) := fun s =>
  let (outcome, s) := m.invoke fuel callee args s
  let (released, s) := releasePins s
  match outcome, released with
  | .error trap, _ => (.error (unhandled s trap), s)
  | .ok _, .error trap => (.error (unhandled s trap), s)
  | .ok v, .ok _ => (.ok v, s)

/-- Calls the first method of a name. -/
def callByName (m : Machine) (fuel : Nat) (owner method : String) (args : List Value) :
    Session (Option Value) :=
  match m.module.firstMethod? (.parse owner) method with
  | some callee => m.call fuel callee args
  | none => throw (.missingMethod (owner ++ "::" ++ method))

/-- Calls the method that has a name and exactly these parameter types. -/
def callOverload (m : Machine) (fuel : Nat) (owner method : String) (params : List TypeRef)
    (args : List Value) : Session (Option Value) :=
  match m.module.resolveMethod? (.parse owner) method params with
  | some callee => m.call fuel callee args
  | none => throw (.missingMethod (owner ++ "::" ++ method))

/-- The type initialisers that have a body. -/
def initialisers (m : Module) : List OwnedMethod :=
  m.types.filterMap fun t => do
    let method ← t.method? ".cctor"
    if method.body.isSome then some ⟨t.name, method⟩ else none

/-- Runs type initialisers in order. -/
def initialise (m : Machine) (fuel : Nat) : List OwnedMethod → Session Unit
  | [] => pure ()
  | init :: rest => do
    let _ ← ExceptT.adapt (.typeInitializer init.owner) (m.call fuel init [])
    initialise m fuel rest

/-- Loads the module: its static fields are zero before its type initialisers run. -/
def load (m : Machine) (fuel : Nat) : Except MachineError MachineState :=
  let loaded : MachineState := ⟨.start, staticCells m.module, #[], []⟩
  let (result, s) := m.initialise fuel (initialisers m.module) loaded
  result.map fun _ => s.newSession

/-- A record of the module, the world and the number of static fields, for diagnostics. -/
def display (m : Machine) (s : MachineState) : String :=
  "Machine \x7b module: " ++ Text.quote m.module.name ++ ", world: " ++ m.world.display ++
    ", statics: " ++ toString s.statics.length ++ " \x7d"

end Machine

end LateBind
