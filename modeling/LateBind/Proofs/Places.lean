import LateBind.Binding

/-! # Places in a module

Where the types and methods of a module stand, and what putting bodies in place of stubs leaves as
it is. -/

namespace LateBind

namespace Module

variable {m : Module}

/-! ## Types by name -/

theorem ownType?_eq (name : TypeName) :
    m.ownType? name = (m.typeIndex? name).bind (m.types[·]?) :=
  List.find?_eq_bind_findIdx?_getElem?

theorem typeIndex?_eq_some {name : TypeName} {i : Nat} (h : m.typeIndex? name = some i) :
    ∃ t, m.types[i]? = some t ∧ t.name = name ∧ m.ownType? name = some t := by
  obtain ⟨hi, found, -⟩ := List.findIdx?_eq_some_iff_getElem.mp h
  refine ⟨m.types[i], List.getElem?_eq_getElem hi, by simpa using found, ?_⟩
  rw [ownType?_eq, h]
  exact List.getElem?_eq_getElem hi

theorem typeIndex?_isSome {name : TypeName} :
    (m.typeIndex? name).isSome ↔ ∃ t ∈ m.types, t.name = name := by
  simp [typeIndex?]

theorem typeIndex?_of_names {m' : Module}
    (h : m'.types.map TypeDef.name = m.types.map TypeDef.name) (name : TypeName) :
    m'.typeIndex? name = m.typeIndex? name := by
  have index (m : Module) :
      m.typeIndex? name = (m.types.map TypeDef.name).findIdx? (· == name) := by
    rw [List.findIdx?_map]
    rfl
  rw [index, index, h]

theorem name_of_ownType {name : TypeName} {t : TypeDef} (h : m.ownType? name = some t) :
    t.name = name := by
  have found := List.find?_some h
  exact beq_iff_eq.mp found

/-- The module with another type at a place. -/
def setType (m : Module) (i : Nat) (t : TypeDef) : Module := { m with types := m.types.set i t }

theorem typeIndex?_setType {i : Nat} {t t' : TypeDef} (own : m.types[i]? = some t)
    (same : t'.name = t.name) (name : TypeName) :
    (m.setType i t').typeIndex? name = m.typeIndex? name := by
  apply typeIndex?_of_names
  apply List.ext_getElem?
  intro j
  rw [setType, List.getElem?_map, List.getElem?_map, List.getElem?_set]
  by_cases hj : i = j
  · subst hj
    have inside : i < m.types.length := (List.getElem?_eq_some_iff.mp own).1
    rw [if_pos rfl, if_pos inside, own, Option.map_some, Option.map_some, same]
  · simp [hj]

theorem resolve_eq_ownType {name : TypeName} {t : TypeDef} (h : m.ownType? name = some t) :
    m.resolve name = .ok t := by
  have found : m.findType? name = some t := by
    rw [findType?, List.find?_append]
    exact congrArg (Option.or · _) h
  rw [resolve, found]

/-! ## Methods by signature -/

theorem resolveMethod?_eq_some_iff {owner : TypeName} {name : String} {params : List TypeRef}
    {callee : OwnedMethod} : m.resolveMethod? owner name params = some callee ↔
      ∃ t method, m.ownType? owner = some t ∧
        t.methods.find? (fun method => method.name == name && method.paramTypes == params) =
          some method ∧ callee = ⟨t.name, method⟩ := by
  constructor
  · intro found
    obtain ⟨t, isType, found⟩ := Option.bind_eq_some_iff.mp found
    obtain ⟨method, isMethod, eq⟩ := Option.bind_eq_some_iff.mp found
    cases eq
    exact ⟨t, method, isType, isMethod, rfl⟩
  · rintro ⟨t, method, isType, isMethod, rfl⟩
    exact Option.bind_eq_some_iff.mpr
      ⟨t, isType, Option.bind_eq_some_iff.mpr ⟨method, isMethod, rfl⟩⟩

/-! ## Methods by place -/

theorem mem_methods {l : LocatedMethod} :
    l ∈ m.methods ↔ m.types[l.handle.typeIndex]? = some l.owner ∧
      l.owner.methods[l.handle.methodIndex]? = some l.method := by
  obtain ⟨⟨i, j⟩, t, method⟩ := l
  simp only [methods, List.mem_flatMap, List.mem_map, Prod.exists, List.mem_zipIdx_iff_getElem?]
  constructor
  · rintro ⟨t', i', ht, method', j', hm, eq⟩
    cases eq
    exact ⟨ht, hm⟩
  · rintro ⟨ht, hm⟩
    exact ⟨t, i, ht, method, j, hm, rfl⟩

theorem mem_eligibleStubs {x : Exclusions} {l : LocatedMethod} {info : Import} :
    (l, info) ∈ m.eligibleStubs x ↔
      l ∈ m.methods ∧ x.excludes l.owner.name = false ∧ l.method.importInfo = some info := by
  simp only [eligibleStubs, List.mem_filterMap]
  constructor
  · rintro ⟨l', hl, h⟩
    cases excluded : x.excludes l'.owner.name with
    | true => simp [excluded] at h
    | false =>
      obtain ⟨info', himport, eq⟩ : ∃ info', l'.method.importInfo = some info' ∧
          (l', info') = (l, info) := by
        simpa [excluded, Option.map_eq_some_iff] using h
      cases eq
      exact ⟨hl, excluded, himport⟩
  · rintro ⟨hl, excluded, himport⟩
    exact ⟨l, hl, by simp [excluded, himport]⟩

theorem exists_eligible {x : Exclusions} {t : TypeDef} {method : MethodDef} (ht : t ∈ m.types)
    (hm : method ∈ t.methods) (stub : method.isStub) (included : x.excludes t.name = false) :
    ∃ l info, (l, info) ∈ m.eligibleStubs x ∧ l.method = method := by
  obtain ⟨info, isImport⟩ := Option.isSome_iff_exists.mp stub
  obtain ⟨i, own⟩ := List.mem_iff_getElem?.mp ht
  obtain ⟨j, at_⟩ := List.mem_iff_getElem?.mp hm
  exact ⟨⟨⟨i, j⟩, t, method⟩, info,
    mem_eligibleStubs.mpr ⟨mem_methods.mpr ⟨own, at_⟩, included, isImport⟩, rfl⟩

end Module

/-! ## Bodies in place of stubs -/

namespace MethodDef

variable {place : MethodHandle} {bodies : List (MethodHandle × Body)}

/-- The method without its import and with a body. -/
def implemented (method : MethodDef) (body : Body) : MethodDef :=
  { method with importInfo := none, body := some body }

/-- What becomes of the method at a place when stubs are given bodies. -/
def bound (method : MethodDef) (place : MethodHandle) (bodies : List (MethodHandle × Body)) :
    MethodDef :=
  bodies.foldl (fun method b => if b.1 = place then method.implemented b.2 else method) method

theorem bound_of_forall_ne (method : MethodDef) (h : ∀ b ∈ bodies, b.1 ≠ place) :
    method.bound place bodies = method := by
  induction bodies with
  | nil => rfl
  | cons b bodies ih =>
    rw [bound, List.foldl_cons, if_neg (h b (by simp))]
    exact ih fun b hb => h b (List.mem_cons_of_mem _ hb)

theorem bound_of_exists (method : MethodDef) (h : ∃ b ∈ bodies, b.1 = place) :
    ∃ body, (place, body) ∈ bodies ∧ method.bound place bodies = method.implemented body := by
  induction bodies generalizing method with
  | nil => simp at h
  | cons b bodies ih =>
    by_cases later : ∃ b ∈ bodies, b.1 = place
    · obtain ⟨body, mem, eq⟩ := ih (if b.1 = place then method.implemented b.2 else method) later
      refine ⟨body, List.mem_cons_of_mem _ mem, ?_⟩
      rw [bound, List.foldl_cons]
      refine Eq.trans eq ?_
      split <;> rfl
    · have first : b.1 = place := by
        obtain ⟨b', hb', same⟩ := h
        rcases List.mem_cons.mp hb' with rfl | hb'
        · exact same
        · exact absurd ⟨b', hb', same⟩ later
      refine ⟨b.2, by simp [← first], ?_⟩
      rw [bound, List.foldl_cons, if_pos first]
      exact bound_of_forall_ne _ fun b' hb' same => later ⟨b', hb', same⟩

end MethodDef

namespace Module

/-- The module with bodies in the places of stubs. -/
def implementStubs (m : Module) (bodies : List (MethodHandle × Body)) : Module :=
  { m with
    types := m.types.mapIdx fun i t =>
      { t with methods := t.methods.mapIdx fun j method => method.bound ⟨i, j⟩ bodies } }

theorem foldl_replaceStub (m : Module) (bodies : List (MethodHandle × Body)) :
    bodies.foldl (fun m b => m.replaceStub b.1 b.2) m = m.implementStubs bodies := by
  induction bodies generalizing m with
  | nil =>
    have types : m.types.mapIdx (fun i t =>
        { t with methods := t.methods.mapIdx fun j method => method.bound ⟨i, j⟩ [] }) = m.types := by
      apply List.ext_getElem?
      intro i
      simp [MethodDef.bound, List.mapIdx_eq_zipIdx_map]
    rw [implementStubs, types]
    rfl
  | cons b bodies ih =>
    rw [List.foldl_cons, ih]
    unfold implementStubs replaceStub modifyMethod
    congr 1
    apply List.ext_getElem?
    intro i
    simp only [List.getElem?_mapIdx, List.getElem?_modify]
    cases m.types[i]? with
    | none => rfl
    | some t =>
      by_cases hi : b.1.typeIndex = i
      · simp only [hi, Option.map_eq_map, Option.map_some, if_true]
        congr 2
        apply List.ext_getElem?
        intro j
        simp only [List.getElem?_mapIdx, List.getElem?_modify]
        cases t.methods[j]? with
        | none => rfl
        | some method =>
          by_cases hj : b.1.methodIndex = j
          · have place : b.1 = ⟨i, j⟩ := by rw [← hi, ← hj]
            simp [MethodDef.bound, MethodDef.implemented, place]
          · have other : b.1 ≠ ⟨i, j⟩ := fun h => hj (by rw [h])
            simp [MethodDef.bound, hj, other]
      · have other (j : Nat) : b.1 ≠ ⟨i, j⟩ := fun h => hi (by rw [h])
        simp [MethodDef.bound, hi, other]

end Module

end LateBind
