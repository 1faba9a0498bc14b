import LateBind.Proofs.BoundModule
import LateBind.Proofs.ImportGroups
import LateBind.Proofs.StubChecks

/-! # Reports of late binding

The report is made from the table of checked stubs and from the planned members. It tells what became
of the module: the entries are the methods that lost their import, grouped by their types, and the
library cells are those that the types got. -/

namespace LateBind

/-! ## Checked stubs -/

/-- What a stub that passed its check has from its declaration, with the plans of its slots. -/
structure Stub.Checked (m : Module) (l : LocatedMethod) (info : Import) (s : Stub) : Prop where
  owner : s.owner = l.owner.name
  name : s.name = l.method.name
  library : s.library = info.library
  symbol : s.symbol = info.entryPoint.getD l.method.name
  convention : info.convention.indirect = .ok s.convention
  setLastError : s.setLastError = info.setLastError
  params : List.Forall₂ (fun p slot => slot.name = p.name ∧ slot.type = p.type ∧
    (m.planParameter ⟨s.qualifiedName, info.charSet⟩ p).alone = .ok slot.plan) l.method.params s.params
  returnType : s.returns.type = l.method.returnType
  returnPlan : (m.planReturn ⟨s.qualifiedName, info.charSet⟩ l.method.returnType
    l.method.returnMarshal).alone = .ok s.returns.plan

namespace Module

variable {m : Module} {x : Exclusions}

theorem checked_of_checkAlone {l : LocatedMethod} {info : Import} {s : Stub}
    (h : m.checkAlone l info = .ok s) : s.Checked m l info := by
  cases isStatic : l.method.isStatic with
  | false =>
    simp only [checkAlone, isStatic] at h
    obtain ⟨_, threw, -⟩ := bind_eq_ok h
    cases threw
  | true =>
    simp only [checkAlone, isStatic, if_true] at h
    cases indirect : info.convention.indirect with
    | error bits =>
      rw [indirect] at h
      obtain ⟨_, threw, -⟩ := bind_eq_ok h
      cases threw
    | ok convention =>
      rw [indirect] at h
      obtain ⟨_, same, h⟩ := bind_eq_ok h
      cases same
      obtain ⟨returnPlan, returns, h⟩ := bind_eq_ok h
      obtain ⟨params, planned, h⟩ := bind_eq_ok h
      cases h
      refine ⟨rfl, rfl, rfl, rfl, indirect, rfl, ?_, rfl, returns⟩
      refine (mapM_eq_ok_iff.mp planned).imp fun p slot made => ?_
      obtain ⟨plan, eq, made⟩ := bind_eq_ok made
      cases made
      exact ⟨rfl, rfl, eq⟩

/-- The table is that of the eligible stubs, each checked. -/
theorem exists_checked_of_importTable {found : ImportTable} (h : m.importTable x = .ok found) :
    ∃ stubs, List.Forall₂ (fun e s => s.Checked m e.1 e.2) (m.eligibleStubs x) stubs ∧
      found = .ofStubs stubs := by
  have alone := (Inquiry.Gives.mapM (fun e : LocatedMethod × Import => analyzeStub_gives e.1 e.2)
    (m.eligibleStubs x) [] m.certain_nil).1
  have checked : ((m.checkedStubs x).run []).1 =
      (m.eligibleStubs x).mapM fun e => m.checkAlone e.1 e.2 := alone
  rw [importTable, checked] at h
  cases each : (m.eligibleStubs x).mapM fun e => m.checkAlone e.1 e.2 with
  | error e =>
    rw [each] at h
    cases h
  | ok stubs =>
    rw [each] at h
    cases h
    exact ⟨stubs, (mapM_eq_ok_iff.mp each).imp fun e s => checked_of_checkAlone, rfl⟩

end Module

/-! ## The cells of libraries -/

/-- The name is that of the cell of a library. -/
def FieldDef.isLibraryCell (f : FieldDef) : Bool := "pl_".toList.isPrefixOf f.name.toList

namespace TypeScaffold

/-- The cells of libraries are told from those of addresses by their names. -/
structure NamesCells (planned : TypeScaffold) : Prop where
  library : ∀ l ∈ planned.libraries, "pl_".toList <+: l.cell.name.toList
  stub : ∀ s ∈ planned.stubs, "p_".toList <+: s.cell.name.toList

theorem prefix_of_mem_mapM_plan {c : Config} {owner : TypeName} {libraries : List String}
    {taken : List String} :
    ∀ l ∈ ((libraries.mapM (LibraryScaffold.plan c owner) : Naming _) taken).1,
      "pl_".toList <+: l.cell.name.toList := by
  induction libraries generalizing taken with
  | nil => exact fun l mem => absurd mem List.not_mem_nil
  | cons library libraries ih =>
    rw [List.mapM_cons]
    refine List.forall_mem_cons.mpr ⟨?_, ih⟩
    exact Naming.prefix_fresh "pl_" (libraryFragment library) taken

theorem prefix_of_mem_planStubs {owner : TypeName} {libraries : List LibraryScaffold}
    {stubs : List Stub} {planned : List StubScaffold} {taken taken' : List String}
    (h : (planStubs owner libraries stubs).run taken = (.ok planned, taken')) :
    ∀ s ∈ planned, "p_".toList <+: s.cell.name.toList := by
  induction stubs generalizing planned taken taken' with
  | nil =>
    cases h
    exact fun l mem => absurd mem List.not_mem_nil
  | cons s stubs ih =>
    rw [planStubs] at h
    cases known : libraries.find? (·.library == s.library) with
    | none =>
      rw [known] at h
      cases h
    | some library =>
      rw [known] at h
      simp only at h
      rw [Naming.run_lift_bind, run_bind] at h
      rcases others : (planStubs owner libraries stubs).run
        (StubScaffold.plan owner library s taken).2 with ⟨answer, taken₁⟩
      rw [others] at h
      cases answer with
      | error e => cases h
      | ok rest =>
        cases h
        exact List.forall_mem_cons.mpr ⟨Naming.prefix_fresh "p_" s.name taken, ih others⟩

theorem namesCells_of_plan {c : Config} {t : TypeDef} {imports : TypeImports} {planned : TypeScaffold}
    (h : plan c t imports = .ok planned) : planned.NamesCells := by
  simp only [plan] at h
  rw [Naming.run_lift_bind, run_bind] at h
  rcases stubs : (planStubs t.name _ imports.stubs).run _ with ⟨answer, taken⟩
  rw [stubs] at h
  cases answer with
  | error e => cases h
  | ok planned' =>
    cases h
    exact ⟨prefix_of_mem_mapM_plan, prefix_of_mem_planStubs stubs⟩

/-- The new fields that are cells of libraries are as many as there are libraries. -/
theorem NamesCells.length_filter_fields {planned : TypeScaffold} (names : planned.NamesCells) :
    (planned.fields.filter FieldDef.isLibraryCell).length = planned.libraries.length := by
  have cells : ∀ f ∈ planned.libraries.flatMap (fun l => [addressCell l.cell]),
      f.isLibraryCell = true := by
    intro f mem
    obtain ⟨l, hl, hf⟩ := List.mem_flatMap.mp mem
    rw [List.mem_singleton.mp hf]
    exact List.isPrefixOf_iff_prefix.mpr (names.library l hl)
  have others : ∀ f ∈ planned.stubs.flatMap (fun s => [addressCell s.cell]),
      ¬f.isLibraryCell = true := by
    intro f mem isCell
    obtain ⟨s, hs, hf⟩ := List.mem_flatMap.mp mem
    rw [List.mem_singleton.mp hf] at isCell
    obtain ⟨rest, eq⟩ := names.stub s hs
    obtain ⟨rest', eq'⟩ := List.isPrefixOf_iff_prefix.mp isCell
    have differ := eq.trans eq'.symm
    simp at differ
  rw [fields, List.filter_append, List.filter_eq_self.mpr cells, List.filter_eq_nil_iff.mpr others]
  simp

end TypeScaffold

/-! ## Methods that lost their import -/

def LocatedMethod.qualifiedName (l : LocatedMethod) : String :=
  l.owner.name.display ++ "::" ++ l.method.name

namespace Module

variable {m : Module} {c : Config} {found : ImportTable} {types : List TypeScaffold}
  {bodies : List (MethodHandle × Body)} {helper : TypeDef}

def methodAt? (m : Module) (h : MethodHandle) : Option MethodDef :=
  m.types[h.typeIndex]?.bind (·.methods[h.methodIndex]?)

/-- The import stubs of a module that are ordinary methods in another, in module order. -/
def implementedIn (m m' : Module) : List (LocatedMethod × Import) :=
  m.methods.filterMap fun l =>
    if (m'.methodAt? l.handle).any (!·.isStub) then l.method.importInfo.map fun info => (l, info)
    else none

theorem methodAt?_of_mem {l : LocatedMethod} (mem : l ∈ m.methods) :
    m.methodAt? l.handle = some l.method := by
  obtain ⟨own, at_⟩ := mem_methods.mp mem
  rw [methodAt?, own, Option.bind_some, at_]

theorem implementedIn_self (m : Module) : m.implementedIn m = [] := by
  refine List.filterMap_eq_nil_iff.mpr fun l mem => ?_
  rw [methodAt?_of_mem mem, Option.any_some, MethodDef.isStub]
  cases l.method.importInfo <;> rfl

theorem Binds.methodAt?_boundLate (binds : m.Binds c found types bodies helper) (id : Uuid)
    {l : LocatedMethod} (mem : l ∈ m.methods) :
    (m.boundLate c types bodies helper id).methodAt? l.handle =
      some (l.method.bound l.handle bodies) := by
  obtain ⟨own, at_⟩ := mem_methods.mp mem
  have known := (List.getElem?_eq_some_iff.mp at_).1
  rw [methodAt?, binds.getElem?_boundLate id own, Option.bind_some, boundType,
    List.getElem?_append_left (by rwa [List.length_mapIdx]), List.getElem?_mapIdx, at_]
  rfl

/-- The stubs that lose their import are the eligible ones. -/
theorem Binds.implementedIn_boundLate (binds : m.Binds c found types bodies helper) (id : Uuid) :
    m.implementedIn (m.boundLate c types bodies helper id) = m.eligibleStubs c.exclusions := by
  refine List.filterMap_congr fun l mem => ?_
  obtain ⟨own, at_⟩ := mem_methods.mp mem
  have kept := binds.bound own at_
  rw [binds.methodAt?_boundLate id mem, Option.any_some]
  cases isImport : l.method.importInfo with
  | none => simp
  | some info =>
    have stub : l.method.isStub := by rw [MethodDef.isStub, isImport]; rfl
    cases excluded : c.exclusions.excludes l.owner.name with
    | true =>
      rw [if_neg (by simp [excluded])] at kept
      rw [kept, stub]
      rfl
    | false =>
      rw [if_pos ⟨stub, excluded⟩] at kept
      obtain ⟨body, eq⟩ := kept
      rw [eq]
      rfl

/-! ## New fields -/

/-- The fields of a module behind those that the types in their places have in another. -/
def newFields (m m' : Module) : List FieldDef :=
  (m'.types.mapIdx fun i t => t.fields.drop ((m.types[i]?.map (·.fields.length)).getD 0)).flatten

theorem newFields_self (m : Module) : m.newFields m = [] := by
  refine List.flatten_eq_nil_iff.mpr fun fields mem => ?_
  obtain ⟨i, known, rfl⟩ := List.mem_mapIdx.mp mem
  simp [List.getElem?_eq_getElem known]

theorem Binds.newFields_boundLate (binds : m.Binds c found types bodies helper) (id : Uuid) :
    m.newFields (m.boundLate c types bodies helper id) =
      ((List.range m.types.length).flatMap fun i =>
        (m.plansAt types i).flatMap TypeScaffold.fields) ++ helper.fields := by
  have old : (m.types.mapIdx fun i t => (m.boundType c.helperType types bodies i t).fields.drop
      ((m.types[i]?.map (·.fields.length)).getD 0)) =
        (List.range m.types.length).map fun i =>
          (m.plansAt types i).flatMap TypeScaffold.fields := by
    apply List.ext_getElem?
    intro i
    rw [List.getElem?_mapIdx, List.getElem?_map]
    cases own : m.types[i]? with
    | none => simp [List.getElem?_eq_none_iff.mp own]
    | some t => simp [boundType, (List.getElem?_eq_some_iff.mp own).1]
  rw [newFields, binds.boundLate_eq]
  simp only [List.mapIdx_append, List.mapIdx_mapIdx, List.flatten_append]
  rw [List.flatMap_def, ← old]
  simp
  rfl

/-- Every plan is for one of the module's types. -/
theorem Binds.flatMap_plansAt_perm (binds : m.Binds c found types bodies helper) :
    ((List.range m.types.length).flatMap (m.plansAt types)).Perm types := by
  have places : ((List.range m.types.length).map some).Nodup :=
    List.nodup_range.map (Option.some_injective Nat)
  have known : ∀ planned ∈ types,
      m.typeIndex? planned.owner ∈ (List.range m.types.length).map some := by
    intro planned mem
    obtain ⟨imports, -, plans⟩ := List.exists_left_of_forall₂ binds.planned mem
    have owner := plans.owner
    obtain ⟨t, own, -, -, -⟩ := plans
    rw [ownType?_eq] at own
    obtain ⟨i, index, at_⟩ := Option.bind_eq_some_iff.mp own
    rw [owner, index]
    exact List.mem_map_of_mem (List.mem_range.mpr (List.getElem?_eq_some_iff.mp at_).1)
  have each := flatMap_filter_perm places known
  rwa [List.flatMap_map] at each

theorem Binds.namesCells (binds : m.Binds c found types bodies helper) :
    ∀ planned ∈ types, planned.NamesCells := by
  intro planned mem
  obtain ⟨imports, -, made⟩ := List.exists_left_of_forall₂ (mapM_eq_ok_iff.mp binds.plan) mem
  obtain ⟨t, -, made⟩ := bind_eq_ok made
  exact TypeScaffold.namesCells_of_plan made

theorem Binds.length_libraryCells (binds : m.Binds c found types bodies helper) (id : Uuid) :
    ((m.newFields (m.boundLate c types bodies helper id)).filter FieldDef.isLibraryCell).length =
      (types.map (·.libraries.length)).sum := by
  have own : helper.fields.filter FieldDef.isLibraryCell = [] := by
    cases binds.helper.symm.trans (Helper.typeDef_eq c.helperType c.loadFlags)
    rfl
  have cells : types.map (fun planned => (planned.fields.filter FieldDef.isLibraryCell).length) =
      types.map (·.libraries.length) :=
    List.map_congr_left fun planned mem => (binds.namesCells planned mem).length_filter_fields
  have placed := (binds.flatMap_plansAt_perm.flatMap_right TypeScaffold.fields).filter
    FieldDef.isLibraryCell
  rw [binds.newFields_boundLate, List.filter_append, own, List.append_nil, ← List.flatMap_assoc,
    placed.length_eq, List.filter_flatMap, List.length_flatMap, cells]

end Module

/-! ## What the report is made of -/

namespace Report

theorem foldl_addType (r : Report) (types : List TypeScaffold) :
    types.foldl addType r =
      { r with
        unchanged := r.unchanged && types.isEmpty
        types := r.types ++ types.map TypeScaffold.owner
        libraryCells := r.libraryCells + (types.map (·.libraries.length)).sum
        stubs := r.stubs ++ (types.flatMap TypeScaffold.stubs).map StubReport.ofScaffold } := by
  induction types generalizing r with
  | nil => simp
  | cons t types ih =>
    rw [List.foldl_cons, ih]
    simp [addType, Nat.add_assoc]

end Report

namespace Module

variable {m : Module} {c : Config} {found : ImportTable} {types : List TypeScaffold}
  {bodies : List (MethodHandle × Body)} {helper : TypeDef}

theorem Binds.bindLate_eq (binds : m.Binds c found types bodies helper) (some : found ≠ [])
    (id : Uuid) : m.bindLate c id = .ok {
      module := m.boundLate c types bodies helper id
      report := {
        module := m.name
        helperType := c.helperType
        duration := 0
        unchanged := false
        types := types.map TypeScaffold.owner
        libraryCells := (types.map (·.libraries.length)).sum
        stubs := (types.flatMap TypeScaffold.stubs).map StubReport.ofScaffold
        warnings := found.stubs.filterMap Stub.warning? } } := by
  have absent := typeIndex?_eq_none.mpr binds.free
  have planned : types.isEmpty = false := by
    have lengths := binds.planned.length_eq
    rw [List.isEmpty_eq_false_iff, ← List.length_pos_iff, ← lengths]
    exact List.length_pos_iff.mpr some
  rw [bindLate, binds.valid]
  simp only [binds.table, binds.plan, binds.compiled, binds.helper, binds.installed, ok_bind,
    absent, List.isEmpty_eq_false_iff.mpr some, Report.foldl_addType, Report.empty, planned]
  rw [boundLate, ← foldl_replaceStub]
  simp
  rfl

end Module

/-! ## What the report tells -/

/-- The name that a library is asked for by: that of its first alias, or else its own. -/
inductive Config.LoadsAs (c : Config) (library : String) : String → Prop
  | aliased {loaded : String} (before after : List (String × String))
      (table : c.aliases = before ++ (library, loaded) :: after)
      (first : ∀ pair ∈ before, pair.1 ≠ library) : LoadsAs c library loaded
  | declared (none : ∀ pair ∈ c.aliases, pair.1 ≠ library) : LoadsAs c library library

theorem Config.loadsAs_iff {c : Config} {library loaded : String} :
    c.LoadsAs library loaded ↔ loaded = c.loadName library := by
  constructor
  · rintro (⟨before, after, table, first⟩ | none)
    · have found : c.aliases.lookup library = some loaded :=
        List.lookup_eq_some_iff.mpr ⟨before, after, table, fun pair mem => by
          simpa using (first pair mem).symm⟩
      rw [loadName, found, Option.getD_some]
    · have unknown : c.aliases.lookup library = .none :=
        List.lookup_eq_none_iff.mpr fun pair mem => by simpa using (none pair mem).symm
      rw [loadName, unknown, Option.getD_none]
  · rintro rfl
    rw [loadName]
    cases found : c.aliases.lookup library with
    | none =>
      refine .declared fun pair mem same => ?_
      simpa [same] using List.lookup_eq_none_iff.mp found pair mem
    | some loaded =>
      obtain ⟨before, after, table, first⟩ := List.lookup_eq_some_iff.mp found
      exact .aliased before after table fun pair mem same => by simpa [same] using first pair mem

/-- The convention that a method is called by for the declared one; the platform's own is stdcall. -/
inductive ImportConv.Maps : ImportConv → CallConv → Prop
  | cdecl : Maps .cdecl .cdecl
  | stdCall : Maps .stdCall .stdCall
  | winapi : Maps .winapi .stdCall
  | fastCall : Maps .fastCall .fastCall
  | thisCall : Maps .thisCall .thisCall

theorem ImportConv.maps_iff {declared : ImportConv} {convention : CallConv} :
    declared.Maps convention ↔ declared.indirect = .ok convention := by
  constructor
  · rintro ⟨⟩ <;> rfl
  · intro mapped
    cases declared <;> cases mapped <;> constructor

/-- The entry for a stub: its declaration, the name that its library is asked for by, and the plans
of its slots. -/
structure StubReport.Describes (m : Module) (c : Config) (e : LocatedMethod × Import)
    (r : StubReport) : Prop where
  method : r.method = e.1.qualifiedName
  library : r.library = e.2.library
  loadName : c.LoadsAs e.2.library r.loadName
  symbol : r.symbol = e.2.entryPoint.getD e.1.method.name
  convention : e.2.convention.Maps r.convention
  params : List.Forall₂ (fun p slot => slot.name = p.name ∧ slot.type = p.type ∧
    (m.planParameter ⟨e.1.qualifiedName, e.2.charSet⟩ p).alone = .ok slot.plan)
      e.1.method.params r.params
  returnName : r.returns.name = "return"
  returnType : r.returns.type = e.1.method.returnType
  returnPlan : (m.planReturn ⟨e.1.qualifiedName, e.2.charSet⟩ e.1.method.returnType
    e.1.method.returnMarshal).alone = .ok r.returns.plan

theorem Stub.Checked.qualifiedName {m : Module} {l : LocatedMethod} {info : Import} {s : Stub}
    (checked : s.Checked m l info) : s.qualifiedName = l.qualifiedName := by
  rw [Stub.qualifiedName, checked.owner, checked.name, LocatedMethod.qualifiedName]

theorem Stub.Checked.describes {m : Module} {c : Config} {l : LocatedMethod} {info : Import}
    {s : StubScaffold} (checked : s.stub.Checked m l info)
    (loadName : s.library.loadName = c.loadName s.stub.library)
    (callSite : s.callSite = StubScaffold.callSiteOf s.stub) :
    StubReport.Describes m c (l, info) (.ofScaffold s) where
  method := checked.qualifiedName
  library := checked.library
  loadName := by
    rw [StubReport.ofScaffold, loadName, checked.library]
    exact Config.loadsAs_iff.mpr rfl
  symbol := checked.symbol
  convention := by
    rw [StubReport.ofScaffold, callSite]
    exact ImportConv.maps_iff.mpr checked.convention
  params := by
    have params := checked.params
    rw [checked.qualifiedName] at params
    exact List.forall₂_map_right_iff.mpr params
  returnName := rfl
  returnType := checked.returnType
  returnPlan := by
    have plan := checked.returnPlan
    rwa [checked.qualifiedName] at plan

namespace Module

variable {m : Module} {c : Config} {found : ImportTable} {types : List TypeScaffold}
  {bodies : List (MethodHandle × Body)} {helper : TypeDef}

/-- What was done to a module's stubs: those that lost their import, type by type. -/
def doneIn (m m' : Module) : List (LocatedMethod × Import) :=
  groupedBy (·.1.owner.name) (m.implementedIn m')

/-- A planned stub calls and loads what its declaration says. -/
theorem Binds.callSite_of_mem (binds : m.Binds c found types bodies helper) :
    ∀ s ∈ types.flatMap TypeScaffold.stubs, s.library.loadName = c.loadName s.stub.library ∧
      s.callSite = StubScaffold.callSiteOf s.stub := by
  intro s mem
  obtain ⟨planned, hp, hs⟩ := List.mem_flatMap.mp mem
  obtain ⟨imports, -, t, -, fits, -, -⟩ := List.exists_left_of_forall₂ binds.planned hp
  obtain ⟨fit, known⟩ := fits.stub s hs
  exact ⟨by rw [(fits.library _ known).loadName, fit.library], fit.callSite⟩

/-- The planned stubs are the eligible ones, type by type. -/
theorem Binds.checked (binds : m.Binds c found types bodies helper) :
    List.Forall₂ (fun e s => s.Checked m e.1 e.2)
      (groupedBy (·.1.owner.name) (m.eligibleStubs c.exclusions)) found.stubs := by
  obtain ⟨stubs, checked, rfl⟩ := exists_checked_of_importTable binds.table
  rw [ImportTable.stubs_ofStubs]
  exact forall₂_groupedBy checked fun e s each => each.owner.symm

theorem Binds.describes (binds : m.Binds c found types bodies helper) :
    List.Forall₂ (StubReport.Describes m c)
      (groupedBy (·.1.owner.name) (m.eligibleStubs c.exclusions))
      ((types.flatMap TypeScaffold.stubs).map StubReport.ofScaffold) := by
  have checked := binds.checked
  rw [← stubs_of_plans binds.planned, List.forall₂_map_right_iff] at checked
  have planned := (List.forall₂_and_left _ _).mpr ⟨binds.callSite_of_mem, checked.flip⟩
  rw [List.forall₂_map_right_iff]
  exact (planned.imp fun s e ⟨⟨loadName, callSite⟩, each⟩ => each.describes loadName callSite).flip

/-- The types that get members, in the order of their first stubs. -/
theorem Binds.map_owner (binds : m.Binds c found types bodies helper) :
    types.map TypeScaffold.owner =
      ((m.eligibleStubs c.exclusions).map (·.1.owner.name)).eraseDups := by
  obtain ⟨stubs, checked, rfl⟩ := exists_checked_of_importTable binds.table
  have owners : stubs.map Stub.owner = (m.eligibleStubs c.exclusions).map (·.1.owner.name) :=
    List.map_eq_of_forall₂ (List.forall₂_map_left_iff.mpr (checked.imp fun _ _ each => each.owner))
  rw [owners_of_plans binds.planned, ImportTable.ofStubs_eq, List.map_map, ← owners]
  exact List.map_id _

/-- The libraries of the types are the different pairs of a type and a library. -/
theorem Binds.libraries_perm (binds : m.Binds c found types bodies helper) :
    (types.flatMap fun planned => planned.libraries.map fun l => (planned.owner, l.library)).Perm
      ((m.eligibleStubs c.exclusions).map fun e => (e.1.owner.name, e.2.library)).eraseDups := by
  obtain ⟨stubs, checked, rfl⟩ := exists_checked_of_importTable binds.table
  have pairs : stubs.map (fun s => (s.owner, s.library)) =
      (m.eligibleStubs c.exclusions).map fun e => (e.1.owner.name, e.2.library) :=
    List.map_eq_of_forall₂ (List.forall₂_map_left_iff.mpr
      (checked.imp fun _ _ each => Prod.ext each.owner each.library))
  have planned : types.map (fun planned => planned.libraries.map fun l => (planned.owner, l.library)) =
      (ImportTable.ofStubs stubs).map fun imports => imports.libraries.map (imports.owner, ·) := by
    refine List.map_eq_of_forall₂ (List.forall₂_map_left_iff.mpr
      (binds.planned.imp fun imports planned plans => ?_))
    obtain ⟨t, -, fits, -⟩ := id plans
    rw [← fits.libraries, List.map_map, plans.owner]
    rfl
  rw [List.flatMap_def, planned, ImportTable.ofStubs_eq, List.map_map, ← pairs, ← List.flatMap_def]
  exact flatMap_eraseDups_perm Stub.owner Stub.library stubs

/-- The types have as many libraries as there are different pairs of a type and a library. -/
theorem Binds.sum_libraries (binds : m.Binds c found types bodies helper) :
    (types.map (·.libraries.length)).sum = ((m.eligibleStubs c.exclusions).map fun e =>
      (e.1.owner.name, e.2.library)).eraseDups.length := by
  rw [← binds.libraries_perm.length_eq, List.length_flatMap]
  simp only [List.length_map]

/-- Each stub that asks for the last error gets a warning. -/
theorem Binds.warnings (binds : m.Binds c found types bodies helper) :
    found.stubs.filterMap Stub.warning? =
      ((groupedBy (·.1.owner.name) (m.eligibleStubs c.exclusions)).filter
        (·.2.setLastError)).map fun e =>
          e.1.qualifiedName ++ ": last-error capture is not supported and was dropped" := by
  have each := binds.checked
  generalize found.stubs = stubs at each
  generalize groupedBy (·.1.owner.name) (m.eligibleStubs c.exclusions) = done at each
  induction each with
  | nil => rfl
  | @cons e s _ _ checked _ ih =>
    rw [List.filterMap_cons, List.filter_cons, Stub.warning?, checked.setLastError,
      checked.qualifiedName, ih]
    cases e.2.setLastError <;> rfl

end Module

/-- What the report of late binding tells, said of the module before and of the module after. -/
structure Report.Tells (r : Report) (c : Config) (m m' : Module) : Prop where
  unchanged : r.unchanged ↔ ∀ l ∈ m.methods, l.method.isStub →
    l.owner.name = c.helperType ∨ l.owner.name ∈ c.excludedTypes.map TypeName.parse
  same : r.unchanged → m' = m
  stubs : List.Forall₂ (StubReport.Describes m c) (m.doneIn m') r.stubs
  types : r.types = ((m.implementedIn m').map (·.1.owner.name)).eraseDups
  libraries : r.libraryCells =
    ((m.implementedIn m').map fun e => (e.1.owner.name, e.2.library)).eraseDups.length
  cells : r.libraryCells = ((m.newFields m').filter FieldDef.isLibraryCell).length
  warnings : r.warnings = ((m.doneIn m').filter (·.2.setLastError)).map fun e =>
    e.1.qualifiedName ++ ": last-error capture is not supported and was dropped"

namespace Module

variable {m : Module} {c : Config}

theorem eligibleStubs_eq_nil_iff {x : Exclusions} {found : ImportTable}
    (table : m.importTable x = .ok found) : m.eligibleStubs x = [] ↔ found = [] := by
  obtain ⟨stubs, checked, rfl⟩ := exists_checked_of_importTable table
  constructor
  · intro none
    rw [none, List.forall₂_nil_left_iff] at checked
    rw [checked]
    rfl
  · intro none
    have grouped : groupedBy Stub.owner stubs = [] := by
      rw [← ImportTable.stubs_ofStubs, none]
      rfl
    have perm := groupedBy_perm Stub.owner stubs
    rw [grouped] at perm
    rw [← perm.nil_eq, List.forall₂_nil_right_iff] at checked
    exact checked

/-- No stub is eligible when all of them are in types that keep theirs. -/
theorem eligibleStubs_eq_nil_iff_forall : m.eligibleStubs c.exclusions = [] ↔
    ∀ l ∈ m.methods, l.method.isStub →
      l.owner.name = c.helperType ∨ l.owner.name ∈ c.excludedTypes.map TypeName.parse := by
  rw [eligibleStubs, List.filterMap_eq_nil_iff]
  refine forall₂_congr fun l mem => ?_
  have keeps : c.exclusions.excludes l.owner.name = true ↔
      l.owner.name = c.helperType ∨ l.owner.name ∈ c.excludedTypes.map TypeName.parse := by
    simp [Exclusions.excludes, Config.exclusions, Config.excludedNames]
  rw [← keeps, MethodDef.isStub]
  cases c.exclusions.excludes l.owner.name <;> cases l.method.importInfo <;> simp

/-- What became of the module: its eligible stubs, and no others, lost their import. -/
theorem implementedIn_of_bindLate {id : Uuid} {out : LateBound} (h : m.bindLate c id = .ok out) :
    m.implementedIn out.module = m.eligibleStubs c.exclusions := by
  rcases bindLate_cases h with ⟨valid, table, -⟩ | ⟨found, types, bodies, helper, binds, some, -⟩
  · rw [bindLate_of_nil valid table] at h
    cases h
    rw [implementedIn_self, (eligibleStubs_eq_nil_iff table).mpr rfl]
  · rw [binds.bindLate_eq some] at h
    cases h
    exact binds.implementedIn_boundLate id

/-- The report tells what was done: which stubs lost their import, in which types, from which
libraries, and what of their declarations was dropped. -/
theorem bindLate_report {id : Uuid} {out : LateBound} (h : m.bindLate c id = .ok out) :
    out.report.Tells c m out.module := by
  rcases bindLate_cases h with ⟨valid, table, -⟩ | ⟨found, types, bodies, helper, binds, some, -⟩
  · rw [bindLate_of_nil valid table] at h
    cases h
    have none := (eligibleStubs_eq_nil_iff table).mpr rfl
    have done : m.doneIn m = [] := by rw [doneIn, implementedIn_self]; rfl
    refine ⟨iff_of_true rfl (eligibleStubs_eq_nil_iff_forall.mp none), fun _ => rfl, ?_, ?_, ?_, ?_, ?_⟩
    · rw [done]
      exact .nil
    · rw [implementedIn_self]
      rfl
    · rw [implementedIn_self]
      rfl
    · rw [newFields_self]
      rfl
    · rw [done]
      rfl
  · rw [binds.bindLate_eq some] at h
    cases h
    have eligible := binds.implementedIn_boundLate id
    have done : m.doneIn (m.boundLate c types bodies helper id) =
        groupedBy (·.1.owner.name) (m.eligibleStubs c.exclusions) := by rw [doneIn, eligible]
    have notNone : m.eligibleStubs c.exclusions ≠ [] := mt (eligibleStubs_eq_nil_iff binds.table).mp some
    refine ⟨iff_of_false (by simp) (mt eligibleStubs_eq_nil_iff_forall.mpr notNone),
      fun unchanged => absurd unchanged (by simp), ?_, ?_, ?_, ?_, ?_⟩
    · rw [done]
      exact binds.describes
    · rw [eligible]
      exact binds.map_owner
    · rw [eligible]
      exact binds.sum_libraries
    · exact (binds.length_libraryCells id).symm
    · rw [done]
      exact binds.warnings

/-- The default settings, but that `m` is loaded under another name. -/
def aliased : Config := { Config.default with aliases := [("libc", "c"), ("m", "libm.so.6")] }

theorem bindLate_report_twins :
    ∃ out entry, twins.bindLate aliased Uuid.zero = .ok out ∧
      out.report.Tells aliased twins out.module ∧ out.report.stubs = [entry] ∧
      entry.library = "m" ∧ entry.loadName = "libm.so.6" ∧ entry.convention = .stdCall := by
  obtain ⟨found, table⟩ := exists_importTable_twins
  obtain ⟨out, ok⟩ := bindLate_of_free (c := aliased) fewParams_twins Uuid.zero (by decide +kernel)
    table (.inr (by decide))
  have tells := bindLate_report ok
  have done : ∃ e, twins.doneIn out.module = [e] ∧ e.2.library = "m" ∧ e.2.convention = .winapi := by
    rw [doneIn, implementedIn_of_bindLate ok]
    exact ⟨_, rfl, rfl, rfl⟩
  obtain ⟨e, done, library, convention⟩ := done
  have stubs := tells.stubs
  rw [done, List.forall₂_cons_left_iff] at stubs
  obtain ⟨entry, rest, describes, none, eq⟩ := stubs
  rw [List.forall₂_nil_left_iff.mp none] at eq
  refine ⟨out, entry, ok, tells, eq, describes.library.trans library, ?_, ?_⟩
  · have loads := Config.loadsAs_iff.mp describes.loadName
    rw [loads, library]
    decide
  · have maps := describes.convention
    rw [convention] at maps
    generalize entry.convention = mapped at maps ⊢
    cases maps
    rfl

end Module

end LateBind
