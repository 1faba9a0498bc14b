import LateBind.Module.Construction
import LateBind.Proofs.HelperType
import LateBind.Proofs.ImportTable
import LateBind.Proofs.Places
import LateBind.Proofs.StubEmission

/-! # Late binding

After the stubs have been checked nothing can fail, and what is done to the module is to put bodies
in the places of stubs and new members behind the old ones. -/

namespace LateBind

namespace Module

variable {m m' : Module} {c : Config} {found : ImportTable} {stubs : List Stub}
  {types : List TypeScaffold} {imports : TypeImports} {planned : TypeScaffold}

/-! ## Planned types -/

/-- The plan fits the first own type of the name, and none of its names is in use there. -/
def Plans (m : Module) (c : Config) (imports : TypeImports) (planned : TypeScaffold) : Prop :=
  ∃ t, m.ownType? imports.owner = some t ∧ planned.Fits c t imports ∧ planned.names.Nodup ∧
    ∀ name ∈ planned.names, name ∉ t.memberNames

theorem Plans.owner (h : m.Plans c imports planned) : planned.owner = imports.owner := by
  obtain ⟨t, own, fits, -, -⟩ := h
  rw [fits.owner, name_of_ownType own]

/-- Every type of the table can be planned when it is one of the module's own. -/
theorem planTypes_spec (m : Module) (c : Config)
    (known : ∀ imports ∈ found, ∀ s ∈ imports.stubs, s.library ∈ imports.libraries)
    (own : ∀ imports ∈ found, ∃ t ∈ m.types, t.name = imports.owner) :
    ∃ types, m.planTypes c found = .ok types ∧ List.Forall₂ (m.Plans c) found types := by
  induction found with
  | nil => exact ⟨[], rfl, .nil⟩
  | cons imports found ih =>
    obtain ⟨t, ht, name⟩ := own imports (by simp)
    obtain ⟨first, found₁⟩ : ∃ t, m.ownType? imports.owner = some t :=
      Option.isSome_iff_exists.mp (List.find?_isSome.mpr ⟨t, ht, by simpa using name⟩)
    obtain ⟨planned, eq, fits, nodup, free⟩ :=
      TypeScaffold.plan_spec c first (known imports (by simp))
    obtain ⟨types, eqs, plans⟩ := ih (fun imports h => known imports (List.mem_cons_of_mem _ h))
      (fun imports h => own imports (List.mem_cons_of_mem _ h))
    refine ⟨planned :: types, ?_, .cons ⟨first, found₁, fits, nodup, free⟩ plans⟩
    unfold planTypes at eqs ⊢
    rw [List.mapM_cons, resolve_eq_ownType found₁, ok_bind, eq, ok_bind, eqs]
    rfl

/-! ## Added members -/

/-- The plans for the type at a place. -/
def plansAt (m : Module) (types : List TypeScaffold) (i : Nat) : List TypeScaffold :=
  types.filter (m.typeIndex? ·.owner == some i)

/-- The module with the planned members behind the old ones. -/
def extendTypes (m : Module) (helper : TypeName) (types : List TypeScaffold) : Module :=
  { m with
    types := m.types.mapIdx fun i t =>
      t.extend ((m.plansAt types i).flatMap TypeScaffold.fields)
        ((m.plansAt types i).flatMap (TypeScaffold.methods helper)) }

theorem extendTypes_nil (helper : TypeName) : m.extendTypes helper [] = m := by
  have types : m.types.mapIdx (fun i t =>
      t.extend ((m.plansAt [] i).flatMap TypeScaffold.fields)
        ((m.plansAt [] i).flatMap (TypeScaffold.methods helper))) = m.types := by
    apply List.ext_getElem?
    intro i
    simp [plansAt, TypeDef.extend_nil, List.mapIdx_eq_zipIdx_map]
  rw [extendTypes, types]

/-- The module after the addition of one type's members. -/
theorem setType_of_installType (h : installType c m planned = .ok m') :
    ∃ i t, m.typeIndex? planned.owner = some i ∧ m.types[i]? = some t ∧
      m' = m.setType i (t.extend planned.fields (planned.methods c.helperType)) := by
  unfold installType at h
  split at h
  · cases h
  · next i index =>
    split at h
    · cases h
    · next t own =>
      obtain ⟨t', installed, h⟩ := bind_eq_ok h
      cases h
      exact ⟨i, t, index, own, by rw [TypeScaffold.extend_of_install installed]; rfl⟩

theorem extendTypes_cons {helper : TypeName} {i : Nat} {t : TypeDef}
    (index : m.typeIndex? planned.owner = some i) (own : m.types[i]? = some t) :
    (m.setType i (t.extend planned.fields (planned.methods helper))).extendTypes helper types =
      m.extendTypes helper (planned :: types) := by
  have inside : i < m.types.length := (List.getElem?_eq_some_iff.mp own).1
  unfold extendTypes plansAt
  have same : (t.extend planned.fields (planned.methods helper)).name = t.name := rfl
  simp only [typeIndex?_setType own same]
  unfold setType
  congr 1
  apply List.ext_getElem?
  intro j
  simp only [List.getElem?_mapIdx, List.getElem?_set]
  by_cases hj : i = j
  · subst hj
    rw [if_pos rfl, if_pos inside, own]
    simp [index, TypeDef.extend]
  · simp [hj, index]

theorem extend_of_installTypes (h : types.foldlM (installType c) m = .ok m') :
    m' = m.extendTypes c.helperType types := by
  induction types generalizing m with
  | nil =>
    cases h
    exact (extendTypes_nil _).symm
  | cons planned types ih =>
    rw [List.foldlM_cons] at h
    obtain ⟨m₁, first, h⟩ := bind_eq_ok h
    obtain ⟨i, t, index, own, rfl⟩ := setType_of_installType first
    rw [ih h, extendTypes_cons index own]

/-- The members of one type can be added when its plan fits. -/
theorem installType_eq (plans : m.Plans c imports planned)
    (few : ∀ s ∈ planned.stubs, s.stub.params.length < 30000) :
    ∃ i t, m.typeIndex? planned.owner = some i ∧ m.types[i]? = some t ∧
      installType c m planned =
        .ok (m.setType i (t.extend planned.fields (planned.methods c.helperType))) := by
  obtain ⟨t, own, fits, nodup, free⟩ := plans
  obtain ⟨i, index, place⟩ : ∃ i, m.typeIndex? planned.owner = some i ∧
      m.types[i]? = some t := by
    rw [ownType?_eq, Option.bind_eq_some_iff] at own
    rw [Plans.owner ⟨t, by rw [ownType?_eq, Option.bind_eq_some_iff]; exact own, fits, nodup, free⟩]
    exact own
  refine ⟨i, t, index, place, ?_⟩
  rw [installType, index]
  simp only [place]
  rw [TypeScaffold.install_eq c.helperType fits few nodup free]
  rfl

/-- A plan for another type still fits. -/
theorem Plans.setType (plans : m.Plans c imports planned) {i : Nat} {t t' : TypeDef}
    (own : m.types[i]? = some t) (same : t'.name = t.name) (other : t.name ≠ imports.owner) :
    (m.setType i t').Plans c imports planned := by
  obtain ⟨first, found, rest⟩ := plans
  refine ⟨first, ?_, rest⟩
  rw [ownType?_eq, Option.bind_eq_some_iff] at found
  obtain ⟨j, index, place⟩ := found
  have differ : i ≠ j := by
    rintro rfl
    obtain ⟨t₁, place₁, name, -⟩ := typeIndex?_eq_some index
    rw [own] at place₁
    cases place₁
    exact other name
  rw [ownType?_eq, typeIndex?_setType own same, index]
  simp only [Module.setType, Option.bind_some, List.getElem?_set, differ, if_false]
  exact place

/-- The members of all types can be added, one type after the other. -/
theorem installTypes_eq (plans : List.Forall₂ (m.Plans c) found types)
    (owners : (found.map TypeImports.owner).Nodup)
    (few : ∀ planned ∈ types, ∀ s ∈ planned.stubs, s.stub.params.length < 30000) :
    types.foldlM (installType c) m = .ok (m.extendTypes c.helperType types) := by
  induction types generalizing m found with
  | nil => rw [extendTypes_nil]; rfl
  | cons planned types ih =>
    cases plans with
    | cons first rest =>
      rename_i imports found
      rw [List.map_cons, List.nodup_cons] at owners
      obtain ⟨i, t, index, own, eq⟩ := installType_eq first (few planned (by simp))
      obtain ⟨t₁, own₁, name, -⟩ := typeIndex?_eq_some index
      rw [own] at own₁
      cases own₁
      have later : List.Forall₂ ((m.setType i (t.extend planned.fields
          (planned.methods c.helperType))).Plans c) found types := by
        have others : ∀ imports' ∈ found, t.name ≠ imports'.owner := by
          intro imports' h same
          rw [name, first.owner] at same
          exact owners.1 (same ▸ List.mem_map_of_mem h)
        refine List.Forall₂.imp ?_ (List.forall₂_and_left found types |>.mpr ⟨others, rest⟩)
        rintro imports' planned' ⟨other, plans⟩
        exact plans.setType own rfl other
      rw [List.foldlM_cons, eq, ok_bind, ih later owners.2 fun p hp =>
        few p (List.mem_cons_of_mem _ hp), extendTypes_cons index own]

/-! ## The stubs of a table -/

/-- A table is made of the checked stubs, and these are the eligible ones. -/
theorem exists_declared_of_importTable {x : Exclusions} (h : m.importTable x = .ok found) :
    ∃ stubs, List.Forall₂ (fun (l, info) s => Stub.Declares s l info) (m.eligibleStubs x) stubs ∧
      found = .ofStubs stubs := by
  unfold importTable at h
  rcases run : (m.checkedStubs x).run [] with ⟨answer, memo⟩
  rw [run] at h
  cases answer with
  | error e => cases h
  | ok stubs =>
    cases h
    exact ⟨stubs, checkedStubs_declare m x [] stubs memo run, rfl⟩

/-- A table holds the checked stubs. -/
theorem importTable_spec {x : Exclusions} (h : m.importTable x = .ok found) :
    ∃ stubs, List.Forall₂ (fun (l, info) s => Stub.Declares s l info) (m.eligibleStubs x) stubs ∧
      found.Groups stubs := by
  obtain ⟨stubs, declared, rfl⟩ := exists_declared_of_importTable h
  exact ⟨stubs, declared, ImportTable.ofStubs_groups stubs⟩

/-- Every stub of a table comes from an eligible one. -/
theorem declares_of_mem_stubs {x : Exclusions} (h : m.importTable x = .ok found) {s : Stub}
    (hs : s ∈ found.stubs) : ∃ l info, (l, info) ∈ m.eligibleStubs x ∧ s.Declares l info := by
  obtain ⟨stubs, declared, groups⟩ := importTable_spec h
  obtain ⟨⟨l, info⟩, eligible, declares⟩ :=
    List.exists_left_of_forall₂ declared ((groups.mem s).mp hs)
  exact ⟨l, info, eligible, declares⟩

/-- Every eligible stub is in the table. -/
theorem exists_mem_stubs {x : Exclusions} (h : m.importTable x = .ok found) {l : LocatedMethod}
    {info : Import} (eligible : (l, info) ∈ m.eligibleStubs x) :
    ∃ s ∈ found.stubs, s.Declares l info := by
  obtain ⟨stubs, declared, groups⟩ := importTable_spec h
  obtain ⟨s, hs, declares⟩ := List.exists_right_of_forall₂ declared eligible
  exact ⟨s, (groups.mem s).mpr hs, declares⟩

/-- Every type of a table declares an eligible stub. -/
theorem exists_eligible_of_mem {x : Exclusions} (h : m.importTable x = .ok found)
    (hi : imports ∈ found) :
    ∃ l info, (l, info) ∈ m.eligibleStubs x ∧ l.owner.name = imports.owner := by
  obtain ⟨stubs, -, groups⟩ := importTable_spec h
  obtain ⟨s, hs⟩ := List.exists_mem_of_ne_nil _ (groups.used imports hi)
  obtain ⟨l, info, eligible, declares⟩ :=
    declares_of_mem_stubs h (List.mem_flatMap.mpr ⟨imports, hi, hs⟩)
  exact ⟨l, info, eligible, by rw [← declares.owner, groups.own imports hi s hs]⟩

theorem exists_type_of_importTable {x : Exclusions} (h : m.importTable x = .ok found) :
    ∀ imports ∈ found, ∃ t ∈ m.types, t.name = imports.owner := by
  intro imports hi
  obtain ⟨l, info, eligible, owner⟩ := exists_eligible_of_mem h hi
  have place := mem_methods.mp (mem_eligibleStubs.mp eligible).1
  exact ⟨l.owner, List.mem_of_getElem? place.1, owner⟩

/-- The planned stubs are those of the table. -/
theorem stubs_of_plans (plans : List.Forall₂ (m.Plans c) found types) :
    (types.flatMap TypeScaffold.stubs).map StubScaffold.stub = found.stubs := by
  induction plans with
  | nil => rfl
  | cons first _ ih =>
    obtain ⟨t, -, fits, -, -⟩ := first
    rw [List.flatMap_cons, List.map_append, ih, fits.stubs]
    rfl

theorem owners_of_plans (plans : List.Forall₂ (m.Plans c) found types) :
    types.map TypeScaffold.owner = found.map TypeImports.owner :=
  List.map_eq_of_forall₂ (List.forall₂_map_left_iff.mpr (plans.imp fun _ _ plans => plans.owner))

/-! ## Bodies -/

theorem compileStubs_spec {bodies : List (MethodHandle × Body)}
    (h : compileStubs c types = .ok bodies) :
    List.Forall₂ (fun s b => b.1 = s.stub.handle ∧ StubBody.compile c.helperType s = .ok b.2)
      (types.flatMap TypeScaffold.stubs) bodies := by
  unfold compileStubs at h
  generalize types.flatMap TypeScaffold.stubs = stubs at h
  induction stubs generalizing bodies with
  | nil =>
    cases h
    exact .nil
  | cons s stubs ih =>
    rw [List.mapM_cons] at h
    obtain ⟨b, first, h⟩ := bind_eq_ok h
    obtain ⟨body, compiled, first⟩ := bind_eq_ok first
    obtain ⟨rest, later, h⟩ := bind_eq_ok h
    cases first
    cases h
    exact .cons ⟨rfl, compiled⟩ (ih later)

theorem compileStubs_isOk
    (h : ∀ s ∈ types.flatMap TypeScaffold.stubs, ∃ body,
      StubBody.compile c.helperType s = .ok body) :
    ∃ bodies, compileStubs c types = .ok bodies := by
  unfold compileStubs
  generalize types.flatMap TypeScaffold.stubs = stubs at h
  induction stubs with
  | nil => exact ⟨[], rfl⟩
  | cons s stubs ih =>
    obtain ⟨body, compiled⟩ := h s (by simp)
    obtain ⟨bodies, eq⟩ := ih fun s hs => h s (List.mem_cons_of_mem _ hs)
    refine ⟨(s.stub.handle, body) :: bodies, ?_⟩
    rw [List.mapM_cons, eq, compiled]
    rfl

/-! ## Runs -/

/-- What a run with stubs has gone through. -/
structure Binds (m : Module) (c : Config) (found : ImportTable) (types : List TypeScaffold)
    (bodies : List (MethodHandle × Body)) (helper : TypeDef) : Prop where
  valid : c.fault? = none
  table : m.importTable c.exclusions = .ok found
  free : ∀ t ∈ m.types, t.name ≠ c.helperType
  plan : m.planTypes c found = .ok types
  planned : List.Forall₂ (m.Plans c) found types
  compiled : compileStubs c types = .ok bodies
  helper : Helper.typeDef c.helperType c.loadFlags = .ok helper
  installed : types.foldlM (installType c) m = .ok (m.extendTypes c.helperType types)

/-- The module with its stubs bound late. -/
def boundLate (m : Module) (c : Config) (types : List TypeScaffold)
    (bodies : List (MethodHandle × Body)) (helper : TypeDef) (freshId : Uuid) : Module :=
  let replaced := (m.extendTypes c.helperType types).implementStubs bodies
  { replaced with types := replaced.types ++ [helper], mvid := freshId }

theorem typeIndex?_eq_none {name : TypeName} :
    (m.typeIndex? name).isSome = false ↔ ∀ t ∈ m.types, t.name ≠ name := by
  rw [← Bool.not_eq_true, typeIndex?_isSome]
  simp

/-- A table that is not empty is planned as a whole. -/
theorem planTypes_of_importTable (h : m.importTable c.exclusions = .ok found) :
    ∃ types, m.planTypes c found = .ok types ∧ List.Forall₂ (m.Plans c) found types := by
  obtain ⟨stubs, -, groups⟩ := importTable_spec h
  exact planTypes_spec m c groups.known (exists_type_of_importTable h)

theorem bindLate_cases {id : Uuid} {out : LateBound} (h : m.bindLate c id = .ok out) :
    (c.fault? = none ∧ m.importTable c.exclusions = .ok [] ∧ out.module = m) ∨
      ∃ found types bodies helper, m.Binds c found types bodies helper ∧ found ≠ [] ∧
        out.module = m.boundLate c types bodies helper id := by
  unfold bindLate at h
  cases fault : c.fault? with
  | some fault =>
    rw [fault] at h
    cases h
  | none =>
    rw [fault] at h
    obtain ⟨found, table, h⟩ := bind_eq_ok h
    cases found with
    | nil =>
      cases h
      exact .inl ⟨rfl, table, rfl⟩
    | cons imports rest =>
      simp only [List.isEmpty_cons] at h
      cases taken : (m.typeIndex? c.helperType).isSome with
      | true =>
        rw [taken] at h
        cases h
      | false =>
        rw [taken] at h
        obtain ⟨types, planned, h⟩ := bind_eq_ok h
        obtain ⟨bodies, compiled, h⟩ := bind_eq_ok h
        obtain ⟨helper, made, h⟩ := bind_eq_ok h
        obtain ⟨installed, eq, h⟩ := bind_eq_ok h
        obtain ⟨types', planned', plans⟩ := planTypes_of_importTable table
        rw [planned] at planned'
        cases planned'
        cases h
        obtain rfl := extend_of_installTypes eq
        refine .inr ⟨_, types, bodies, helper,
          ⟨fault, table, typeIndex?_eq_none.mp taken, planned, plans, compiled, made, eq⟩, by simp, ?_⟩
        rw [boundLate, ← foldl_replaceStub]

/-! ## Runs that succeed -/

/-- Every stub of the module has fewer parameters than a method can be called with. -/
def FewParams (m : Module) : Prop :=
  ∀ t ∈ m.types, ∀ method ∈ t.methods, method.isStub → method.params.length < 30000

theorem FewParams.stub (few : m.FewParams) {x : Exclusions} (h : m.importTable x = .ok found)
    {s : Stub} (hs : s ∈ found.stubs) : s.params.length < 30000 := by
  obtain ⟨l, info, eligible, declares⟩ := declares_of_mem_stubs h hs
  obtain ⟨mem, -, isImport⟩ := mem_eligibleStubs.mp eligible
  obtain ⟨own, method⟩ := mem_methods.mp mem
  have count : s.params.length = l.method.params.length := by
    rw [← declares.params, List.length_map]
  rw [count]
  exact few l.owner (List.mem_of_getElem? own) l.method (List.mem_of_getElem? method)
    (by rw [MethodDef.isStub, isImport]; rfl)

/-- A planned stub is one of those that were found, and its plan fits. -/
theorem fits_of_plans (table : m.importTable c.exclusions = .ok found)
    (plans : List.Forall₂ (m.Plans c) found types) {s : StubScaffold}
    (hs : s ∈ types.flatMap TypeScaffold.stubs) : s.stub ∈ found.stubs ∧
      (s.stub.returns.type.isVoid → s.stub.returns.plan = .direct) ∧ ∃ owner, s.Fits owner := by
  have mem : s.stub ∈ found.stubs := by
    rw [← stubs_of_plans plans]
    exact List.mem_map_of_mem hs
  obtain ⟨planned, hp, hs⟩ := List.mem_flatMap.mp hs
  obtain ⟨imports, -, t, -, fits, -, -⟩ := List.exists_left_of_forall₂ plans hp
  obtain ⟨l, info, -, declares⟩ := declares_of_mem_stubs table mem
  exact ⟨mem, declares.void, t.name, (fits.stub s hs).1⟩

/-- A planned stub has a body. -/
theorem emittable_of_plans (few : m.FewParams) (table : m.importTable c.exclusions = .ok found)
    (plans : List.Forall₂ (m.Plans c) found types) {s : StubScaffold}
    (hs : s ∈ types.flatMap TypeScaffold.stubs) : ∃ owner, StubBody.Emittable owner s := by
  obtain ⟨mem, void, owner, fits⟩ := fits_of_plans table plans hs
  exact ⟨owner, fits, void, few.stub table mem⟩

/-- No stage can fail once the stubs have been checked. -/
theorem stages_isOk (few : m.FewParams) (table : m.importTable c.exclusions = .ok found) :
    ∃ types bodies helper installed, m.planTypes c found = .ok types ∧
      compileStubs c types = .ok bodies ∧ Helper.typeDef c.helperType c.loadFlags = .ok helper ∧
      types.foldlM (installType c) m = .ok installed := by
  obtain ⟨stubs, -, groups⟩ := importTable_spec table
  obtain ⟨types, planned, plans⟩ := planTypes_of_importTable table
  obtain ⟨bodies, compiled⟩ : ∃ bodies, compileStubs c types = .ok bodies := by
    refine compileStubs_isOk fun s hs => ?_
    obtain ⟨owner, emittable⟩ := emittable_of_plans few table plans hs
    exact StubBody.compile_isOk c.helperType emittable.countable
  have helper := Helper.typeDef_eq c.helperType c.loadFlags
  refine ⟨types, bodies, _, m.extendTypes c.helperType types, planned, compiled, helper, ?_⟩
  refine installTypes_eq plans groups.owners fun planned hp s hs => ?_
  obtain ⟨owner, emittable⟩ :=
    emittable_of_plans few table plans (List.mem_flatMap.mpr ⟨planned, hp, hs⟩)
  exact emittable.few

/-- Without stubs the module stays as it is. -/
theorem bindLate_of_nil (valid : c.fault? = none) (table : m.importTable c.exclusions = .ok [])
    (id : Uuid) : m.bindLate c id = .ok ⟨m, Report.empty m.name c.helperType⟩ := by
  rw [bindLate, valid, table]
  rfl

theorem bindLate_of_free (few : m.FewParams) (id : Uuid) (valid : c.fault? = none)
    (table : m.importTable c.exclusions = .ok found)
    (free : found = [] ∨ ∀ t ∈ m.types, t.name ≠ c.helperType) :
    ∃ out, m.bindLate c id = .ok out := by
  cases found with
  | nil => exact ⟨_, bindLate_of_nil valid table id⟩
  | cons imports rest =>
    obtain ⟨types, bodies, helper, installed, planned, compiled, made, added⟩ :=
      stages_isOk few table
    have absent := typeIndex?_eq_none.mpr (free.resolve_left (by simp))
    apply Exists.intro
    rw [bindLate, valid, table]
    simp only [ok_bind, List.isEmpty_cons, absent, planned, compiled, made, added]
    rfl

/-- What a run can fail on: unfit settings, a stub that fails its check, or the name of the helper
type. -/
theorem bindLate_error (few : m.FewParams) {id : Uuid} {e : BindError}
    (h : m.bindLate c id = .error e) :
    (∃ fault, c.fault? = some fault ∧ e = .config fault) ∨
      (c.fault? = none ∧ m.importTable c.exclusions = .error e) ∨
      ∃ found, c.fault? = none ∧ m.importTable c.exclusions = .ok found ∧ found ≠ [] ∧
        (∃ t ∈ m.types, t.name = c.helperType) ∧ e = .helperTypeConflict c.helperType := by
  cases fault : c.fault? with
  | some why =>
    rw [bindLate, fault] at h
    cases h
    exact .inl ⟨why, rfl, rfl⟩
  | none =>
    refine .inr ?_
    cases table : m.importTable c.exclusions with
    | error e' =>
      rw [bindLate, fault, table] at h
      cases h
      exact .inl ⟨rfl, rfl⟩
    | ok found =>
      refine .inr ⟨found, rfl, rfl, ?_⟩
      cases found with
      | nil =>
        rw [bindLate, fault, table] at h
        cases h
      | cons imports rest =>
        cases taken : (m.typeIndex? c.helperType).isSome with
        | false =>
          obtain ⟨out, ok⟩ := bindLate_of_free few id fault table (.inr (typeIndex?_eq_none.mp taken))
          rw [h] at ok
          cases ok
        | true =>
          refine ⟨by simp, typeIndex?_isSome.mp taken, ?_⟩
          rw [bindLate, fault, table] at h
          simp only [ok_bind, List.isEmpty_cons, taken] at h
          cases h
          rfl

/-! ## A module with a stub -/

theorem Config.fault?_default : Config.default.fault? = none := by decide +kernel

/-- Two types of one name, where the second declares a stub. -/
def twins : Module :=
  let add : MethodDef :=
    { (MethodDef.static "Add" .i32).importing "m" with
      params := [ParamDef.plain "a" .i32, ParamDef.plain "b" .i32] }
  ((start "twins" Uuid.zero).withType (TypeDef.ofKind "A.T" .classType)).withType
    ((TypeDef.ofKind "A.T" .classType).withMethod add)

theorem fewParams_twins : twins.FewParams := by
  unfold FewParams
  decide

theorem exists_importTable_twins :
    ∃ found, twins.importTable Config.default.exclusions = .ok found := by
  have checked : (twins.importTable Config.default.exclusions).isOk = true := by decide +kernel
  cases table : twins.importTable Config.default.exclusions with
  | error e =>
    rw [table] at checked
    cases checked
  | ok found => exact ⟨found, rfl⟩

theorem bindLate_twins : ∃ out, twins.bindLate Config.default Uuid.zero = .ok out := by
  obtain ⟨found, table⟩ := exists_importTable_twins
  exact bindLate_of_free fewParams_twins Uuid.zero Config.fault?_default table (.inr (by decide))

/-! ## Completeness of the check -/

/-- Checking is complete: a run succeeds exactly when the settings are fit, every stub passes its
check, and either there is no stub or the name of the helper type is free. Planning, bodies, the
helper type and the new members never fail once the stubs have passed. -/
theorem bindLate_isOk_iff (few : m.FewParams) (c : Config) (id : Uuid) :
    ((∃ out, m.bindLate c id = .ok out) ↔
      c.fault? = none ∧ ∃ found, m.importTable c.exclusions = .ok found ∧
        (found = [] ∨ ∀ t ∈ m.types, t.name ≠ c.helperType)) ∧
    (∀ e, m.bindLate c id = .error e →
      (∃ fault, c.fault? = some fault ∧ e = .config fault) ∨
        (c.fault? = none ∧ m.importTable c.exclusions = .error e) ∨
        ∃ found, c.fault? = none ∧ m.importTable c.exclusions = .ok found ∧ found ≠ [] ∧
          (∃ t ∈ m.types, t.name = c.helperType) ∧ e = .helperTypeConflict c.helperType) ∧
    ∀ found, m.importTable c.exclusions = .ok found →
      ∃ types bodies helper installed, m.planTypes c found = .ok types ∧
        compileStubs c types = .ok bodies ∧
        Helper.typeDef c.helperType c.loadFlags = .ok helper ∧
        types.foldlM (installType c) m = .ok installed := by
  refine ⟨⟨?_, ?_⟩, fun e => bindLate_error few, fun found => stages_isOk few⟩
  · rintro ⟨out, ok⟩
    rcases bindLate_cases ok with ⟨valid, table, -⟩ | ⟨found, types, bodies, helper, binds, -, -⟩
    · exact ⟨valid, [], table, .inl rfl⟩
    · exact ⟨binds.valid, found, binds.table, .inr binds.free⟩
  · rintro ⟨valid, found, table, rfl | free⟩
    · exact bindLate_of_free few id valid table (.inl rfl)
    · exact bindLate_of_free few id valid table (.inr free)

theorem bindLate_isOk_twins :
    twins.FewParams ∧ ∃ out, twins.bindLate Config.default Uuid.zero = .ok out := by
  obtain ⟨found, table⟩ := exists_importTable_twins
  have complete := (bindLate_isOk_iff fewParams_twins Config.default Uuid.zero).1
  exact ⟨fewParams_twins,
    complete.mpr ⟨Config.fault?_default, found, table, .inr (by decide)⟩⟩

end Module

end LateBind
