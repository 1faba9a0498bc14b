import LateBind.ImportTable
import LateBind.Helper.Members

/-! The members that a type gets for its stubs: a cell and a loading method for each library; and
for each stub a cell for its address, a method that fills the cell, and a thunk that calls the
address. A new name never is that of another member. -/

namespace LateBind

/-! ## Names -/

/-- The n-th name that is tried: the base itself, then the base with a number. -/
def candidateName (base : String) : Nat → String
  | 0 => base
  | n + 1 => base ++ "_" ++ toString (n + 1)

/-- The first candidate that is not taken; one more candidate than there are names taken is
enough. -/
def firstFree (taken : List String) (base : String) : String :=
  let isFree (n : Nat) : Bool := !taken.contains (candidateName base n)
  candidateName base (((List.range (taken.length + 1)).find? isFree).getD 0)

/-- A computation that gives out names, on the names that are taken. -/
abbrev Naming := StateM (List String)

/-- Takes the first free name. -/
def Naming.fresh (base : String) : Naming String := fun taken =>
  let name := firstFree taken base
  (name, name :: taken)

/-- The names of fields and methods. -/
def TypeDef.memberNames (t : TypeDef) : List String :=
  t.fields.map FieldDef.name ++ t.methods.map MethodDef.name

/-- A library's name with an underscore for each character that is no ASCII letter or digit. -/
def libraryFragment (library : String) : String :=
  String.ofList (library.toList.map fun c => if c.isAlphanum then c else '_')

/-! ## Planned members -/

/-- What the stubs of one type share for one library. -/
structure LibraryScaffold where
  /-- As declared. -/
  library : String
  /-- As the loader is asked for it. -/
  loadName : String
  cell : FieldRef
  loader : MethodRef
  deriving DecidableEq, Repr

/-- What one stub gets. -/
structure StubScaffold where
  stub : Stub
  cell : FieldRef
  initializer : MethodRef
  thunk : MethodRef
  callSite : CallSite
  library : LibraryScaffold
  deriving DecidableEq, Repr

/-- What one type gets. -/
structure TypeScaffold where
  owner : TypeName
  libraries : List LibraryScaffold
  stubs : List StubScaffold
  deriving DecidableEq, Repr

namespace LibraryScaffold

def plan (config : Config) (owner : TypeName) (library : String) : Naming LibraryScaffold := do
  let cell ← Naming.fresh ("pl_" ++ libraryFragment library)
  let loader ← Naming.fresh ("LoadLibrary" ++ libraryFragment library)
  return {
    library
    loadName := config.loadName library
    cell := ⟨owner, cell, .intPtr⟩
    loader := .static owner loader [] .void }

/-- Loads the library and keeps its handle. -/
def emitLoader (helper : TypeName) (l : LibraryScaffold) : Emit Unit :=
  Emit.instrs [.ldstr l.loadName, .call (Helper.loadLibrary helper), .stsfld l.cell, .ret]

def loaderDef (helper : TypeName) (l : LibraryScaffold) : Except BindError MethodDef :=
  MethodDef.generated .priv l.loader.name [] .void (l.emitLoader helper)

end LibraryScaffold

namespace StubScaffold

def callSiteOf (s : Stub) : CallSite := ⟨s.convention, s.returns.nativeType, s.nativeParamTypes⟩

def plan (owner : TypeName) (library : LibraryScaffold) (s : Stub) : Naming StubScaffold := do
  let cell ← Naming.fresh ("p_" ++ s.name)
  let initializer ← Naming.fresh ("init_" ++ s.name)
  let thunk ← Naming.fresh ("native_" ++ s.name)
  let callSite := callSiteOf s
  return {
    stub := s
    cell := ⟨owner, cell, .intPtr⟩
    initializer := .static owner initializer [] .void
    thunk := .static owner thunk (callSite.params ++ [.intPtr]) callSite.returnType
    callSite
    library }

/-- Loads the library unless that has been done, and keeps the address of the symbol. -/
def emitInitializer (helper : TypeName) (s : StubScaffold) : Emit Unit := do
  let loaded ← Emit.defineLabel
  Emit.instrs [.ldsfld s.library.cell, .brtrue loaded, .call s.library.loader]
  Emit.markLabel loaded
  Emit.instrs [.ldsfld s.library.cell, .ldstr s.stub.symbol, .call (Helper.getProcAddress helper),
    .stsfld s.cell, .ret]

def initializerDef (helper : TypeName) (s : StubScaffold) : Except BindError MethodDef :=
  MethodDef.generated .priv s.initializer.name [] .void (s.emitInitializer helper)

/-- Calls the address in the last argument with all the others. -/
def emitThunk (s : StubScaffold) : Emit Unit := do
  Emit.instrs ((List.range s.thunk.params.length).map fun i => .ldarg (UInt16.ofNat i))
  Emit.instrs [.calli s.callSite, .ret]

def thunkDef (s : StubScaffold) : Except BindError MethodDef :=
  let params := s.stub.params.map (fun p => (p.name, p.nativeType)) ++ [("fn", .intPtr)]
  (MethodDef.generated .priv s.thunk.name params s.thunk.returnType s.emitThunk).map fun m =>
    { m with flags := { m.flags with aggressiveInlining := true } }

end StubScaffold

namespace TypeScaffold

def planStubs (owner : TypeName) (libraries : List LibraryScaffold) :
    List Stub → ExceptT BindError Naming (List StubScaffold)
  | [] => pure []
  | s :: rest => do
    match libraries.find? (·.library == s.library) with
    | none => throw (.missingLibrary (owner.display ++ "::" ++ s.name) s.library)
    | some library =>
      let planned ← StubScaffold.plan owner library s
      return planned :: (← planStubs owner libraries rest)

/-- Chooses names and signatures for the members that a type gets. -/
def plan (config : Config) (t : TypeDef) (imports : TypeImports) :
    Except BindError TypeScaffold :=
  let planning : ExceptT BindError Naming TypeScaffold := do
    let libraries ← (imports.libraries.mapM (LibraryScaffold.plan config t.name) : Naming _)
    let stubs ← planStubs t.name libraries imports.stubs
    return ⟨t.name, libraries, stubs⟩
  (planning.run t.memberNames).1

/-- A private static field that holds an address. -/
def addressCell (cell : FieldRef) : FieldDef := ⟨cell.name, cell.type, true, false, .priv, none⟩

def addField (owner : TypeName) (what : String) (field : FieldDef) (t : TypeDef) :
    Except BindError TypeDef :=
  (t.addField field).mapError fun e => .emit (what ++ " of " ++ owner.display) (.member e)

def addMethod (owner : TypeName) (what : String) (method : MethodDef) (t : TypeDef) :
    Except BindError TypeDef :=
  (t.addMethod method).mapError fun e => .emit (what ++ " of " ++ owner.display) (.member e)

def installLibrary (helper owner : TypeName) (t : TypeDef) (l : LibraryScaffold) :
    Except BindError TypeDef := do
  let t ← addField owner "library cell" (addressCell l.cell) t
  addMethod owner "library loader" (← l.loaderDef helper) t

def installStub (helper owner : TypeName) (t : TypeDef) (s : StubScaffold) :
    Except BindError TypeDef := do
  let t ← addField owner "address cell" (addressCell s.cell) t
  let t ← addMethod owner "initializer" (← s.initializerDef helper) t
  addMethod owner "thunk" (← s.thunkDef) t

/-- Adds the planned members to a type. -/
def install (helper : TypeName) (scaffold : TypeScaffold) (t : TypeDef) :
    Except BindError TypeDef := do
  let t ← scaffold.libraries.foldlM (installLibrary helper scaffold.owner) t
  scaffold.stubs.foldlM (installStub helper scaffold.owner) t

end TypeScaffold

end LateBind
