import LateBind.Helper.Loader
import LateBind.Report
import LateBind.StubBody

/-! Late binding: the import stubs of a module become methods that load their library when they are
called first, and a helper type is added. Everything that can fail comes before the first change. -/

namespace LateBind

/-- A module whose stubs are bound late, and what was done to it. -/
structure LateBound where
  module : Module
  report : Report
  deriving DecidableEq, Repr

namespace Config

def exclusions (c : Config) : Exclusions := ⟨c.helperType, c.excludedNames⟩

end Config

/-- A stub that asks for the last error does not get it. -/
def Stub.warning? (s : Stub) : Option String :=
  if s.setLastError then
    some (s.qualifiedName ++ ": last-error capture is not supported and was dropped")
  else none

namespace Module

/-- The new members of every type that has stubs. -/
def planTypes (m : Module) (c : Config) (found : ImportTable) :
    Except BindError (List TypeScaffold) :=
  found.mapM fun imports => do TypeScaffold.plan c (← m.resolve imports.owner) imports

/-- The new bodies, by the places of the stubs. -/
def compileStubs (c : Config) (types : List TypeScaffold) :
    Except BindError (List (MethodHandle × Body)) :=
  (types.flatMap TypeScaffold.stubs).mapM fun s => do
    return (s.stub.handle, ← StubBody.compile c.helperType s)

/-- Adds the new members of one type to the first type of its name. -/
def installType (c : Config) (m : Module) (t : TypeScaffold) : Except BindError Module := do
  match m.typeIndex? t.owner with
  | none =>
    throw (.emit ("members of " ++ t.owner.display) (.member (.typeNotFound t.owner)))
  | some i =>
    match m.types[i]? with
    | none => throw (.emit ("members of " ++ t.owner.display) (.member (.typeNotFound t.owner)))
    | some owner => return { m with types := m.types.set i (← t.install c.helperType owner) }

/-- Makes an import stub an ordinary method. -/
def replaceStub (m : Module) (h : MethodHandle) (body : Body) : Module :=
  m.modifyMethod h fun method => { method with importInfo := none, body := some body }

/-- Binds all stubs late that are not excluded; `freshId` becomes the version id of a changed
module. -/
def bindLate (m : Module) (c : Config) (freshId : Uuid) : Except BindError LateBound := do
  if let some fault := c.fault? then throw (.config fault)
  let report := Report.empty m.name c.helperType
  let found ← m.importTable c.exclusions
  if found.isEmpty then return ⟨m, report⟩
  if (m.typeIndex? c.helperType).isSome then throw (.helperTypeConflict c.helperType)
  let types ← m.planTypes c found
  let bodies ← compileStubs c types
  let helper ← Helper.typeDef c.helperType c.loadFlags
  let installed ← types.foldlM (installType c) m
  let replaced := bodies.foldl (fun m (h, body) => m.replaceStub h body) installed
  return {
    module := { replaced with types := replaced.types ++ [helper], mvid := freshId }
    report :=
      { types.foldl Report.addType report with warnings := found.stubs.filterMap Stub.warning? } }

end Module

end LateBind
