import LateBind.Proofs.Binding

/-! # The bound module

Late binding keeps the types and their members where they are. Only the import stubs that are
eligible change, and what is new stands at the end. -/

namespace LateBind

/-- What late binding makes of a type: every old method stays in its place, an eligible stub without
its import and with a body; new members stand behind the old ones. -/
def TypeDef.BoundLate (x : Exclusions) (t t' : TypeDef) : Prop :=
  ∃ old fields methods,
    t' = { t with fields := t.fields ++ fields, methods := old ++ methods } ∧
    List.Forall₂ (fun method method' =>
      if method.isStub ∧ x.excludes t.name = false then ∃ body, method' = method.implemented body
      else method' = method) t.methods old

/-- A type after late binding, with what is known of the new members: the fields are static and have
names that were free, and the methods have generated names. -/
def TypeDef.Widened (x : Exclusions) (t t' : TypeDef) : Prop :=
  ∃ old fields methods,
    t' = { t with fields := t.fields ++ fields, methods := old ++ methods } ∧
    List.Forall₂ (fun method method' =>
      if method.isStub ∧ x.excludes t.name = false then ∃ body, method' = method.implemented body
      else method' = method) t.methods old ∧
    (∀ f ∈ fields, f.isStatic ∧ f.name ∉ t.memberNames) ∧
    ∀ method ∈ methods, Naming.Generated method.name

theorem TypeDef.Widened.boundLate {x : Exclusions} {t t' : TypeDef} (h : t.Widened x t') :
    t.BoundLate x t' := by
  obtain ⟨old, fields, methods, eq, kept, -, -⟩ := h
  exact ⟨old, fields, methods, eq, kept⟩

theorem List.forall₂_mapIdx {α β : Type} {R : α → β → Prop} {f : Nat → α → β} {l : List α}
    (h : ∀ i a, l[i]? = some a → R a (f i a)) : List.Forall₂ R l (l.mapIdx f) := by
  refine List.forall₂_iff_get.mpr ⟨by simp, fun i hi hi' => ?_⟩
  simpa using h i l[i] (List.getElem?_eq_getElem hi)

namespace Module

variable {m : Module} {c : Config} {found : ImportTable} {types : List TypeScaffold}
  {bodies : List (MethodHandle × Body)} {helper : TypeDef}

/-! ## Places of bodies -/

/-- The stub whose place a body is for. -/
theorem Binds.stub_of_mem (binds : m.Binds c found types bodies helper) {b : MethodHandle × Body}
    (hb : b ∈ bodies) : ∃ s ∈ types.flatMap TypeScaffold.stubs, ∃ l info,
      StubBody.compile c.helperType s = .ok b.2 ∧ l.handle = b.1 ∧
        (l, info) ∈ m.eligibleStubs c.exclusions ∧ s.stub.Declares l info := by
  obtain ⟨s, hs, handle, compiled⟩ := List.exists_left_of_forall₂ (compileStubs_spec binds.compiled) hb
  have mem : s.stub ∈ found.stubs := by
    rw [← stubs_of_plans binds.planned]
    exact List.mem_map_of_mem hs
  obtain ⟨l, info, eligible, declares⟩ := declares_of_mem_stubs binds.table mem
  exact ⟨s, hs, l, info, compiled, by rw [handle, declares.handle], eligible, declares⟩

/-- Every body is for the place of an eligible stub. -/
theorem Binds.eligible_of_mem (binds : m.Binds c found types bodies helper)
    {b : MethodHandle × Body} (hb : b ∈ bodies) :
    ∃ l info, (l, info) ∈ m.eligibleStubs c.exclusions ∧ l.handle = b.1 := by
  obtain ⟨s, -, l, info, -, place, eligible, -⟩ := binds.stub_of_mem hb
  exact ⟨l, info, eligible, place⟩

/-- Every eligible stub gets a body. -/
theorem Binds.exists_mem (binds : m.Binds c found types bodies helper) {l : LocatedMethod}
    {info : Import} (eligible : (l, info) ∈ m.eligibleStubs c.exclusions) :
    ∃ b ∈ bodies, b.1 = l.handle := by
  obtain ⟨s, hs, declares⟩ := exists_mem_stubs binds.table eligible
  rw [← stubs_of_plans binds.planned] at hs
  obtain ⟨planned, hp, rfl⟩ := List.mem_map.mp hs
  obtain ⟨b, hb, handle, -⟩ :=
    List.exists_right_of_forall₂ (compileStubs_spec binds.compiled) hp
  exact ⟨b, hb, by rw [handle, declares.handle]⟩

/-- The method at a place after late binding. -/
theorem Binds.bound (binds : m.Binds c found types bodies helper) {i j : Nat} {t : TypeDef}
    {method : MethodDef} (own : m.types[i]? = some t) (at_ : t.methods[j]? = some method) :
    if method.isStub ∧ c.exclusions.excludes t.name = false then
      ∃ body, method.bound ⟨i, j⟩ bodies = method.implemented body
    else method.bound ⟨i, j⟩ bodies = method := by
  split
  · next eligible =>
    obtain ⟨info, isImport⟩ := Option.isSome_iff_exists.mp eligible.1
    have mem : (⟨⟨i, j⟩, t, method⟩, info) ∈ m.eligibleStubs c.exclusions :=
      mem_eligibleStubs.mpr ⟨mem_methods.mpr ⟨own, at_⟩, eligible.2, isImport⟩
    obtain ⟨body, -, eq⟩ := MethodDef.bound_of_exists method (binds.exists_mem mem)
    exact ⟨body, eq⟩
  · next other =>
    refine MethodDef.bound_of_forall_ne _ fun b hb place => other ?_
    obtain ⟨⟨handle, t', method'⟩, info, eligible, rfl⟩ := binds.eligible_of_mem hb
    obtain ⟨mem, excluded, isImport⟩ := mem_eligibleStubs.mp eligible
    obtain ⟨own', at'⟩ := mem_methods.mp mem
    simp only at place own' at' isImport excluded
    rw [place] at own' at'
    rw [own] at own'
    cases own'
    rw [at_] at at'
    cases at'
    exact ⟨by rw [MethodDef.isStub, isImport]; rfl, excluded⟩

/-- A place behind the old methods has no stub. -/
theorem Binds.bound_of_le (binds : m.Binds c found types bodies helper) {i j : Nat} {t : TypeDef}
    (own : m.types[i]? = some t) (new : t.methods.length ≤ j) (method : MethodDef) :
    method.bound ⟨i, j⟩ bodies = method := by
  refine MethodDef.bound_of_forall_ne _ fun b hb place => ?_
  obtain ⟨⟨handle, t', method'⟩, info, eligible, rfl⟩ := binds.eligible_of_mem hb
  obtain ⟨own', at'⟩ := mem_methods.mp (mem_eligibleStubs.mp eligible).1
  simp only at place own' at'
  rw [place] at own' at'
  rw [own] at own'
  cases own'
  rw [List.getElem?_eq_none new] at at'
  cases at'

/-! ## Bound types -/

/-- The type at a place after late binding. -/
def boundType (m : Module) (helper : TypeName) (types : List TypeScaffold)
    (bodies : List (MethodHandle × Body)) (i : Nat) (t : TypeDef) : TypeDef :=
  { t with
    fields := t.fields ++ (m.plansAt types i).flatMap TypeScaffold.fields
    methods := t.methods.mapIdx (fun j method => method.bound ⟨i, j⟩ bodies) ++
      (m.plansAt types i).flatMap (TypeScaffold.methods helper) }

theorem Binds.boundLate_eq (binds : m.Binds c found types bodies helper) (id : Uuid) :
    m.boundLate c types bodies helper id =
      { m with
        mvid := id
        types := m.types.mapIdx (m.boundType c.helperType types bodies) ++ [helper] } := by
  have same : ((m.extendTypes c.helperType types).implementStubs bodies).types =
      m.types.mapIdx (m.boundType c.helperType types bodies) := by
    apply List.ext_getElem?
    intro i
    simp only [implementStubs, extendTypes, List.getElem?_mapIdx, Option.map_map]
    cases own : m.types[i]? with
    | none => rfl
    | some t =>
      have new : ∀ methods : List MethodDef,
          methods.mapIdx (fun j method => method.bound ⟨i, j + t.methods.length⟩ bodies) =
            methods := by
        intro methods
        apply List.ext_getElem?
        intro j
        rw [List.getElem?_mapIdx]
        cases methods[j]? with
        | none => rfl
        | some method =>
          rw [Option.map_some, binds.bound_of_le own (Nat.le_add_left _ _)]
      simp only [Option.map_some, Function.comp_apply, TypeDef.extend, List.mapIdx_append, new]
      rfl
  rw [boundLate]
  simp only [same]
  rfl

/-- The old types stay in their places. -/
theorem Binds.getElem?_boundLate (binds : m.Binds c found types bodies helper) (id : Uuid) {i : Nat}
    {t : TypeDef} (own : m.types[i]? = some t) :
    (m.boundLate c types bodies helper id).types[i]? =
      some (m.boundType c.helperType types bodies i t) := by
  have known : i < m.types.length := (List.getElem?_eq_some_iff.mp own).1
  rw [binds.boundLate_eq, List.getElem?_append_left (by rwa [List.length_mapIdx]),
    List.getElem?_mapIdx, own, Option.map_some]

/-- Where a method of the bound module comes from: it is an old one at its place, an old one there
with a new body, a planned one, or one of the helper type. -/
theorem Binds.method_cases (binds : m.Binds c found types bodies helper) (id : Uuid) {i j : Nat}
    {t : TypeDef} {method : MethodDef} (own : (m.boundLate c types bodies helper id).types[i]? = some t)
    (at_ : t.methods[j]? = some method) :
    (∃ old, m.types[i]? = some old ∧ old.methods[j]? = some method) ∨
      (∃ old stub body, m.types[i]? = some old ∧ old.methods[j]? = some stub ∧
        (⟨i, j⟩, body) ∈ bodies ∧ method = stub.implemented body) ∨
      (∃ planned ∈ types, method ∈ planned.methods c.helperType) ∨ t = helper := by
  rw [binds.boundLate_eq] at own
  rcases Nat.lt_or_ge i m.types.length with known | new
  · -- An old type: its old methods stay in front, with bodies in the places of stubs.
    rw [List.getElem?_append_left (by rwa [List.length_mapIdx]), List.getElem?_mapIdx,
      List.getElem?_eq_getElem known, Option.map_some] at own
    obtain rfl := Option.some.inj own
    rcases Nat.lt_or_ge j m.types[i].methods.length with known' | new'
    · rw [boundType, List.getElem?_append_left (by rwa [List.length_mapIdx]), List.getElem?_mapIdx,
        List.getElem?_eq_getElem known', Option.map_some] at at_
      obtain rfl := Option.some.inj at_
      by_cases replaced : ∃ b ∈ bodies, b.1 = ⟨i, j⟩
      · obtain ⟨body, mem, eq⟩ := MethodDef.bound_of_exists m.types[i].methods[j] replaced
        exact .inr (.inl ⟨_, _, body, List.getElem?_eq_getElem known,
          List.getElem?_eq_getElem known', mem, eq⟩)
      · rw [MethodDef.bound_of_forall_ne _ fun b hb same => replaced ⟨b, hb, same⟩]
        exact .inl ⟨_, List.getElem?_eq_getElem known, List.getElem?_eq_getElem known'⟩
    · rw [boundType, List.getElem?_append_right (by rwa [List.length_mapIdx])] at at_
      obtain ⟨planned, hp, hm⟩ := List.mem_flatMap.mp (List.mem_of_getElem? at_)
      exact .inr (.inr (.inl ⟨planned, (List.mem_filter.mp hp).1, hm⟩))
  · rw [List.getElem?_append_right (by rwa [List.length_mapIdx])] at own
    exact .inr (.inr (.inr (List.mem_singleton.mp (List.mem_of_getElem? own))))

/-- The names of planned members are free at their place. -/
theorem Binds.names_of_plansAt (binds : m.Binds c found types bodies helper) {i : Nat} {t : TypeDef}
    (own : m.types[i]? = some t) {planned : TypeScaffold} (hp : planned ∈ m.plansAt types i) :
    ∀ name ∈ planned.names, name ∉ t.memberNames ∧ Naming.Generated name := by
  obtain ⟨hp, index⟩ := List.mem_filter.mp hp
  obtain ⟨imports, -, plans⟩ := List.exists_left_of_forall₂ binds.planned hp
  have owner := plans.owner
  obtain ⟨t', own', fits, -, free⟩ := plans
  rw [ownType?_eq, ← owner, beq_iff_eq.mp index, Option.bind_some, own] at own'
  cases own'
  exact fun name hname => ⟨free name hname, fits.generated name hname⟩

theorem Binds.boundType_widened (binds : m.Binds c found types bodies helper) {i : Nat}
    {t : TypeDef} (own : m.types[i]? = some t) :
    t.Widened c.exclusions (m.boundType c.helperType types bodies i t) := by
  refine ⟨_, _, _, rfl, List.forall₂_mapIdx fun _ _ => binds.bound own, fun f hf => ?_,
    fun method hm => ?_⟩
  · obtain ⟨planned, hp, hf⟩ := List.mem_flatMap.mp hf
    exact ⟨TypeScaffold.isStatic_of_mem_fields hf,
      (binds.names_of_plansAt own hp _ (TypeScaffold.mem_names_of_field hf)).1⟩
  · obtain ⟨planned, hp, hm⟩ := List.mem_flatMap.mp hm
    exact (binds.names_of_plansAt own hp _ (TypeScaffold.mem_names_of_method hm)).2

/-- A type whose name is not that of a type with an eligible stub is as it was. -/
theorem Binds.boundType_eq (binds : m.Binds c found types bodies helper) {i : Nat} {t : TypeDef}
    (own : m.types[i]? = some t)
    (other : ∀ l ∈ m.eligibleStubs c.exclusions, l.1.owner.name ≠ t.name) :
    m.boundType c.helperType types bodies i t = t := by
  have plans : m.plansAt types i = [] := by
    refine List.filter_eq_nil_iff.mpr fun planned hp index => ?_
    obtain ⟨imports, hi, plans⟩ := List.exists_left_of_forall₂ binds.planned hp
    obtain ⟨l, info, eligible, owner⟩ := exists_eligible_of_mem binds.table hi
    obtain ⟨t', own', name, -⟩ := typeIndex?_eq_some (beq_iff_eq.mp index)
    rw [own] at own'
    cases own'
    exact other _ eligible (by rw [owner, name, plans.owner])
  have methods : t.methods.mapIdx (fun j method => method.bound ⟨i, j⟩ bodies) = t.methods := by
    apply List.ext_getElem?
    intro j
    rw [List.getElem?_mapIdx]
    cases at_ : t.methods[j]? with
    | none => rfl
    | some method =>
      have kept := binds.bound own at_
      split at kept
      · next eligible =>
        obtain ⟨info, isImport⟩ := Option.isSome_iff_exists.mp eligible.1
        exact absurd rfl (other (⟨⟨i, j⟩, t, method⟩, info)
          (mem_eligibleStubs.mpr ⟨mem_methods.mpr ⟨own, at_⟩, eligible.2, isImport⟩))
      · rw [Option.map_some, kept]
  rw [boundType, plans, methods, List.flatMap_nil, List.flatMap_nil, List.append_nil,
    List.append_nil]

/-! ## What a run changes -/

theorem Binds.name_helper (binds : m.Binds c found types bodies helper) :
    helper.name = c.helperType := by
  cases binds.helper.symm.trans (Helper.typeDef_eq c.helperType c.loadFlags)
  rfl

/-- No stub is left outside the helper type and the excluded types. -/
theorem Binds.importInfo_eq_none (binds : m.Binds c found types bodies helper) (id : Uuid) :
    ∀ t ∈ (m.boundLate c types bodies helper id).types, c.exclusions.excludes t.name = false →
      ∀ method ∈ t.methods, method.importInfo = none := by
  intro t ht included method hm
  rw [binds.boundLate_eq] at ht
  rcases List.mem_append.mp ht with ht | ht
  · obtain ⟨i, hi, rfl⟩ := List.mem_mapIdx.mp ht
    have own : m.types[i]? = some m.types[i] := List.getElem?_eq_getElem hi
    rcases List.mem_append.mp hm with hm | hm
    · obtain ⟨j, hj, rfl⟩ := List.mem_mapIdx.mp hm
      have kept := binds.bound own (List.getElem?_eq_getElem hj)
      split at kept
      · obtain ⟨body, eq⟩ := kept
        rw [eq]
        rfl
      · next other =>
        rw [kept]
        cases isImport : m.types[i].methods[j].importInfo with
        | none => rfl
        | some info => exact absurd ⟨by rw [MethodDef.isStub, isImport]; rfl, included⟩ other
    · obtain ⟨planned, -, hm⟩ := List.mem_flatMap.mp hm
      exact TypeScaffold.importInfo_of_mem_methods hm
  · rw [List.mem_singleton.mp ht, binds.name_helper] at included
    simp [Exclusions.excludes, Config.exclusions] at included

/-- Late binding adds one type at the end, the helper type. Every other type stays in its place with
its members in front; of these only the eligible stubs change, and they keep all but their import and
their body. A type whose name no declaring type has stays as it is, and so does all else of the
module but its version. -/
theorem bindLate_changes {id : Uuid} {out : LateBound} (h : m.bindLate c id = .ok out)
    (eligible : m.eligibleStubs c.exclusions ≠ []) :
    ∃ types helper,
      out.module = { m with mvid := id, types := types ++ [helper] } ∧
      helper.name = c.helperType ∧ Helper.typeDef c.helperType c.loadFlags = .ok helper ∧
      List.Forall₂ (TypeDef.BoundLate c.exclusions) m.types types ∧
      List.Forall₂ (fun t t' =>
        (∀ l ∈ m.eligibleStubs c.exclusions, l.1.owner.name ≠ t.name) → t' = t) m.types types ∧
      ∀ t ∈ out.module.types, c.exclusions.excludes t.name = false →
        ∀ method ∈ t.methods, method.importInfo = none := by
  rcases bindLate_cases h with ⟨-, table, -⟩ | ⟨found, planned, bodies, helper, binds, -, eq⟩
  · obtain ⟨⟨l, info⟩, mem⟩ := List.exists_mem_of_ne_nil _ eligible
    obtain ⟨s, hs, -⟩ := exists_mem_stubs table mem
    cases hs
  · refine ⟨m.types.mapIdx (m.boundType c.helperType planned bodies), helper,
      eq.trans (binds.boundLate_eq id), binds.name_helper, binds.helper,
      List.forall₂_mapIdx fun i t own => (binds.boundType_widened own).boundLate,
      List.forall₂_mapIdx fun i t => binds.boundType_eq, ?_⟩
    rw [eq]
    exact binds.importInfo_eq_none id

theorem bindLate_changes_twins :
    ∃ out, twins.bindLate Config.default Uuid.zero = .ok out ∧
      twins.eligibleStubs Config.default.exclusions ≠ [] ∧
      ∃ types helper, out.module.types = types ++ [helper] ∧
        List.Forall₂ (TypeDef.BoundLate Config.default.exclusions) twins.types types := by
  obtain ⟨out, ok⟩ := bindLate_twins
  have some : (twins.eligibleStubs Config.default.exclusions).isEmpty = false := by decide +kernel
  have eligible : twins.eligibleStubs Config.default.exclusions ≠ [] := by
    intro none
    rw [none] at some
    cases some
  obtain ⟨types, helper, eq, -, -, bound, -⟩ := bindLate_changes ok eligible
  exact ⟨out, ok, eligible, types, helper, by rw [eq], bound⟩

end Module

end LateBind
