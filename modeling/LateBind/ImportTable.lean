import LateBind.Slot

/-! The import stubs of a module, each checked and with a plan for every slot, grouped by the type
that declares them. -/

namespace LateBind

structure ParamSlot where
  name : String
  type : TypeRef
  marshal : Option MarshalInfo
  plan : SlotPlan
  deriving DecidableEq, Repr

/-- The type of the parameter in native code. -/
def ParamSlot.nativeType (s : ParamSlot) : TypeRef := s.plan.nativeType s.type

structure ReturnSlot where
  type : TypeRef
  marshal : Option MarshalInfo
  plan : SlotPlan
  deriving DecidableEq, Repr

def ReturnSlot.nativeType (s : ReturnSlot) : TypeRef := s.plan.nativeType s.type

/-- An import stub that has been checked. -/
structure Stub where
  handle : MethodHandle
  owner : TypeName
  name : String
  params : List ParamSlot
  returns : ReturnSlot
  declaredConvention : ImportConv
  convention : CallConv
  charSet : CharSet
  /-- As declared. -/
  library : String
  /-- The declared entry point, or the name of the method. -/
  symbol : String
  setLastError : Bool
  deriving DecidableEq, Repr

namespace Stub

def qualifiedName (s : Stub) : String := s.owner.display ++ "::" ++ s.name

def paramTypes (s : Stub) : List TypeRef := s.params.map ParamSlot.type

def nativeParamTypes (s : Stub) : List TypeRef := s.params.map ParamSlot.nativeType

def hasStringArrays (s : Stub) : Bool := s.params.any (·.plan.isStringArray)

end Stub

/-- The convention of an indirect call, or the convention bits that have none; the platform's own
counts as stdcall. -/
def ImportConv.indirect : ImportConv → Except UInt16 CallConv
  | cdecl => .ok .cdecl
  | stdCall | winapi => .ok .stdCall
  | fastCall => .ok .fastCall
  | thisCall => .ok .thisCall
  | other bits => .error bits

/-- The stubs of one type, and the libraries they need, each once. -/
structure TypeImports where
  owner : TypeName
  stubs : List Stub
  libraries : List String
  deriving DecidableEq, Repr

def TypeImports.add (imports : TypeImports) (s : Stub) : TypeImports :=
  { imports with
    stubs := imports.stubs ++ [s]
    libraries :=
      if imports.libraries.contains s.library then imports.libraries
      else imports.libraries ++ [s.library] }

/-- Imports by type, in the order of the types' first stubs. -/
abbrev ImportTable := List TypeImports

namespace ImportTable

def add (found : ImportTable) (s : Stub) : ImportTable :=
  if found.any (·.owner == s.owner) then
    found.map fun imports => if imports.owner == s.owner then imports.add s else imports
  else found ++ [(TypeImports.mk s.owner [] []).add s]

def ofStubs (stubs : List Stub) : ImportTable := stubs.foldl add []

def importsOf? (found : ImportTable) (owner : TypeName) : Option TypeImports :=
  found.find? (·.owner == owner)

def stubsOf (found : ImportTable) (owner : TypeName) : List Stub :=
  ((found.importsOf? owner).map TypeImports.stubs).getD []

def librariesOf (found : ImportTable) (owner : TypeName) : List String :=
  ((found.importsOf? owner).map TypeImports.libraries).getD []

/-- All stubs, type by type. -/
def stubs (found : ImportTable) : List Stub := found.flatMap TypeImports.stubs

end ImportTable

/-- The types whose stubs stay as they are. -/
structure Exclusions where
  helperType : TypeName
  others : List TypeName

def Exclusions.excludes (x : Exclusions) (name : TypeName) : Bool :=
  name == x.helperType || x.others.contains name

namespace Module

/-- The stubs that are to be bound late, with what makes each a stub. -/
def eligibleStubs (m : Module) (x : Exclusions) : List (LocatedMethod × Import) :=
  m.methods.filterMap fun l =>
    if x.excludes l.owner.name then none else l.method.importInfo.map fun info => (l, info)

/-- Checks a stub and plans its slots, the return value first. -/
def analyzeStub (m : Module) (l : LocatedMethod) (info : Import) : Inquiry Stub := do
  let qualified := l.owner.name.display ++ "::" ++ l.method.name
  unless l.method.isStatic do
    throw (.unsupportedSignature qualified (.named l.owner.name) .notStatic)
  let convention ← match info.convention.indirect with
    | .ok convention => pure convention
    | .error bits => throw (.unknownConvention qualified bits)
  let cx : SlotContext := ⟨qualified, info.charSet⟩
  let returnPlan ← m.planReturn cx l.method.returnType l.method.returnMarshal
  let params ← l.method.params.mapM fun p => do
    return { name := p.name, type := p.type, marshal := p.marshal, plan := ← m.planParameter cx p }
  return {
    handle := l.handle
    owner := l.owner.name
    name := l.method.name
    params
    returns := ⟨l.method.returnType, l.method.returnMarshal, returnPlan⟩
    declaredConvention := info.convention
    convention
    charSet := info.charSet
    library := info.library
    symbol := info.entryPoint.getD l.method.name
    setLastError := info.setLastError }

/-- Checks all stubs in module order, and stops at the first that cannot be bound late. -/
def checkedStubs (m : Module) (x : Exclusions) : Inquiry (List Stub) :=
  (m.eligibleStubs x).mapM fun (l, info) => m.analyzeStub l info

def importTable (m : Module) (x : Exclusions) : Except BindError ImportTable :=
  (((m.checkedStubs x).run []).1).map ImportTable.ofStubs

end Module

end LateBind
