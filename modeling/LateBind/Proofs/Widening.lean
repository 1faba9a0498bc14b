import LateBind.Proofs.Startup
import LateBind.Proofs.Values

/-! # What late binding adds

The members that late binding adds have names of their own, and the type that it adds is new. So the
methods that are no stubs, the static fields and the values of a module are what they were. -/

namespace LateBind

open Machine

/-! ## Widened types -/

theorem List.find?_of_forall₂ {α β : Type} {R : α → β → Prop} {p : α → Bool} {q : β → Bool}
    {l : List α} {l' : List β} (h : List.Forall₂ R l l') (same : ∀ a b, R a b → q b = p a) :
    (l.find? p = none ∧ l'.find? q = none) ∨
      ∃ a b, l.find? p = some a ∧ l'.find? q = some b ∧ R a b := by
  induction h with
  | nil => exact .inl ⟨rfl, rfl⟩
  | @cons a b l l' related _ ih =>
    cases found : p a with
    | true =>
      exact .inr ⟨a, b, List.find?_cons_of_pos found,
        List.find?_cons_of_pos ((same a b related).trans found), related⟩
    | false =>
      rw [List.find?_cons_of_neg (by simp [found]),
        List.find?_cons_of_neg (by simp [same a b related, found])]
      exact ih

theorem List.map_congr_of_forall₂ {α β γ : Type} {R : α → β → Prop} {f : α → γ} {g : β → γ}
    {l : List α} {l' : List β} (h : List.Forall₂ R l l') (same : ∀ a ∈ l, ∀ b, R a b → g b = f a) :
    l'.map g = l.map f := by
  induction h with
  | nil => rfl
  | @cons a b l l' related _ ih =>
    rw [List.map_cons, List.map_cons, same a (by simp) b related,
      ih fun a ha => same a (List.mem_cons_of_mem _ ha)]

namespace TypeDef.Widened

variable {x : Exclusions} {t t' : TypeDef}

theorem name_eq (h : t.Widened x t') : t'.name = t.name := by
  obtain ⟨_, _, _, rfl, -⟩ := h
  rfl

/-- The new fields are static. -/
theorem shape_eq (h : t.Widened x t') : t'.shape = t.shape := by
  obtain ⟨_, fields, _, rfl, -, new, -⟩ := h
  have none : (fields.filter fun f => !f.isStatic) = [] :=
    List.filter_eq_nil_iff.mpr fun f hf => by simp [(new f hf).1]
  rw [shape, shape, List.filter_append, none, List.append_nil]

/-- The first method of a kind stays where it is, as it is unless it is a stub. A method of a kind
that the type does not have has a generated name. -/
theorem find?_cases (h : t.Widened x t') {p : MethodDef → Bool}
    (blind : ∀ (method : MethodDef) body, p (method.implemented body) = p method) :
    (t.methods.find? p = none ∧
        ∀ method, t'.methods.find? p = some method → Naming.Generated method.name) ∨
      ∃ method method', t.methods.find? p = some method ∧ t'.methods.find? p = some method' ∧
        ((method.isStub → x.excludes t.name) → method' = method) := by
  obtain ⟨old, fields, methods, rfl, kept, -, new⟩ := h
  have same : ∀ method method', (if method.isStub ∧ x.excludes t.name = false then
      ∃ body, method' = method.implemented body else method' = method) → p method' = p method := by
    intro method method' related
    split at related
    · obtain ⟨body, rfl⟩ := related
      exact blind method body
    · rw [related]
  rcases List.find?_of_forall₂ kept same with ⟨missing, missing'⟩ | ⟨method, method', found, found', rel⟩
  · refine .inl ⟨missing, fun method found => ?_⟩
    rw [List.find?_append, missing', Option.none_or] at found
    exact new method (List.mem_of_find?_eq_some found)
  · refine .inr ⟨method, method', found, by rw [List.find?_append, found']; rfl, fun own => ?_⟩
    rw [if_neg fun ⟨stub, included⟩ => by simp [own stub] at included] at rel
    exact rel

/-- The new fields have no cell under a name that the type has had before. -/
theorem filter_typeCells (h : t.Widened x t') {m m' : Module}
    (scalars : ∀ type, isScalar m' type = isScalar m type) {owner : TypeName} {name : String}
    (taken : t.name = owner → name ∈ t.memberNames) :
    (typeCells m' t').filter (fun c => c.owner == owner && c.name == name) =
      (typeCells m t).filter fun c => c.owner == owner && c.name == name := by
  obtain ⟨old, fields, methods, rfl, -, new, -⟩ := h
  have none : (typeCells m { t with fields }).filter
      (fun c => c.owner == owner && c.name == name) = [] := by
    refine List.filter_eq_nil_iff.mpr fun c hc key => ?_
    obtain ⟨f, hf, -, -, rfl⟩ := mem_typeCells.mp hc
    simp only [Bool.and_eq_true, beq_iff_eq] at key
    exact (new f hf).2 (key.2 ▸ taken key.1)
  have split : typeCells m' { t with fields := t.fields ++ fields, methods := old ++ methods } =
      typeCells m t ++ typeCells m { t with fields } := by
    simp only [typeCells, scalars, List.filter_append, List.map_append]
  rw [split, List.filter_append, none, List.append_nil]

end TypeDef.Widened

/-! ## Widened modules -/

/-- The module declares a field of the name. -/
def Module.Declares (m : Module) (owner : TypeName) (name : String) : Prop :=
  ∃ t ∈ m.types, t.name = owner ∧ ∃ f ∈ t.fields, f.name = name

/-- No definition of the module has the name, or a field of a type of that name. -/
def Module.Ignores (m : Module) (name : TypeName) : Prop :=
  ∀ t ∈ m.types ++ m.references, t.name ≠ name ∧ ∀ f ∈ t.fields, f.type ≠ .named name

/-- Every type is widened, and the helper type is new and the last. -/
structure Module.Widens (x : Exclusions) (helper : TypeName) (flags : Int32) (m m' : Module) :
    Prop where
  types : ∃ types, List.Forall₂ (TypeDef.Widened x) m.types types ∧
    m'.types = types ++ [Helper.helperDef helper flags]
  references : m'.references = m.references
  other : ∀ t ∈ m.types, t.name ≠ helper

namespace Module.Widens

variable {x : Exclusions} {helper : TypeName} {flags : Int32} {m m' : Module}
  (widens : Widens x helper flags m m')

include widens

theorem ownType?_cases (name : TypeName) :
    (m.ownType? name = none ∧
        m'.ownType? name = if name = helper then some (Helper.helperDef helper flags) else none) ∨
      ∃ t t', m.ownType? name = some t ∧ m'.ownType? name = some t' ∧ t.Widened x t' := by
  obtain ⟨types, widened, eq⟩ := widens.types
  rw [ownType?, ownType?, eq, List.find?_append]
  rcases List.find?_of_forall₂ (p := (·.name == name)) (q := (·.name == name)) widened
      fun t t' h => by rw [h.name_eq] with ⟨missing, missing'⟩ | ⟨t, t', found, found', h⟩
  · refine .inl ⟨missing, ?_⟩
    rw [missing', Option.none_or]
    split
    · next same =>
      rw [same]
      exact List.find?_cons_of_pos (beq_self_eq_true helper)
    · next differ =>
      exact List.find?_cons_of_neg fun same => differ (beq_iff_eq.mp same).symm
  · exact .inr ⟨t, t', found, by rw [found']; rfl, h⟩

/-! ### Values -/

theorem oneMore (ignores : m.Ignores helper) : m.OneMore helper m' where
  unknown := List.find?_eq_none.mpr fun t ht => by simpa using (ignores t ht).1
  isClass := by
    have own : m'.ownType? helper = some (Helper.helperDef helper flags) := by
      rcases widens.ownType?_cases helper with ⟨-, own⟩ | ⟨t, t', found, -⟩
      · rw [own, if_pos rfl]
      · exact absurd (name_of_ownType found) (widens.other t (List.mem_of_find?_eq_some found))
    rw [findType?, List.find?_append]
    change ((m'.ownType? helper).or _).map TypeDef.kind = _
    rw [own]
    rfl
  shapes {name} other := by
    rw [findType?, findType?, List.find?_append, List.find?_append, widens.references]
    change ((m'.ownType? name).or _).map TypeDef.shape = ((m.ownType? name).or _).map TypeDef.shape
    rcases widens.ownType?_cases name with ⟨missing, missing'⟩ | ⟨t, t', found, found', h⟩
    · rw [missing, missing', if_neg other]
    · rw [found, found', Option.some_or, Option.some_or, Option.map_some, Option.map_some,
        h.shape_eq]
  unused {name t} found := (ignores t (List.mem_of_find?_eq_some found)).2

/-! ### Methods -/

/-- A method that is no stub is found where it was. -/
theorem resolveMethod?_of_some {owner : TypeName} {name : String} {params : List TypeRef}
    {callee : OwnedMethod} (found : m.resolveMethod? owner name params = some callee)
    (own : callee.method.isStub = false) : m'.resolveMethod? owner name params = some callee := by
  obtain ⟨t, method, isType, isMethod, rfl⟩ := resolveMethod?_eq_some_iff.mp found
  rcases widens.ownType?_cases owner with ⟨missing, -⟩ | ⟨t₁, t', isType₁, isType', h⟩
  · cases missing.symm.trans isType
  cases isType₁.symm.trans isType
  rcases h.find?_cases (p := fun method => method.name == name && method.paramTypes == params)
    (fun _ _ => rfl) with ⟨missing, -⟩ | ⟨method₁, method', isMethod₁, isMethod', same⟩
  · cases missing.symm.trans isMethod
  cases isMethod₁.symm.trans isMethod
  rw [same fun stub => by simp [own] at stub] at isMethod'
  exact resolveMethod?_eq_some_iff.mpr ⟨t', method, isType', isMethod', by rw [h.name_eq]⟩

/-- What is found only now has the name of a generated method. -/
theorem named_of_resolveMethod? {owner : TypeName} {name : String} {params : List TypeRef}
    {callee : OwnedMethod} (missing : m.resolveMethod? owner name params = none)
    (found : m'.resolveMethod? owner name params = some callee) :
    Naming.Generated name ∨ name ∈ (Helper.methods helper flags).map MethodDef.name := by
  obtain ⟨t', method, isType', isMethod, -⟩ := resolveMethod?_eq_some_iff.mp found
  have named : method.name = name := by
    have key := List.find?_some isMethod
    simp only [Bool.and_eq_true, beq_iff_eq] at key
    exact key.1
  rcases widens.ownType?_cases owner with ⟨-, isHelper⟩ | ⟨t, t₁, isType, isType₁, h⟩
  · rw [isHelper] at isType'
    split at isType'
    · cases isType'
      exact .inr (named ▸ List.mem_map_of_mem (List.mem_of_find?_eq_some isMethod))
    · cases isType'
  · cases isType₁.symm.trans isType'
    rcases h.find?_cases (p := fun method => method.name == name && method.paramTypes == params)
      (fun _ _ => rfl) with ⟨-, generated⟩ | ⟨method₁, _, isMethod₁, -⟩
    · exact .inl (named ▸ generated method isMethod)
    · cases missing.symm.trans
        (resolveMethod?_eq_some_iff.mpr ⟨t, method₁, isType, isMethod₁, rfl⟩)

/-- No new method stands for a member of the framework. -/
theorem resolveMethod?_member {r : MethodRef} (member : (RuntimeMember.ofRef? r).isSome)
    (missing : m.resolveMethod? r.owner r.name r.params = none) :
    m'.resolveMethod? r.owner r.name r.params = none := by
  obtain ⟨member, isMember⟩ := Option.isSome_iff_exists.mp member
  have named : member.ref.name = r.name := by
    have key := List.find?_some isMember
    simp only [Bool.and_eq_true, beq_iff_eq] at key
    exact key.2
  have apart : ∀ member : RuntimeMember, ¬Naming.Generated member.ref.name ∧
      member.ref.name ∉ (Helper.methods helper flags).map MethodDef.name := by
    intro member
    rw [Helper.methods_names]
    cases member <;> decide
  cases found : m'.resolveMethod? r.owner r.name r.params with
  | none => rfl
  | some callee =>
    have new := widens.named_of_resolveMethod? missing found
    rw [← named] at new
    exact absurd new (not_or.mpr (apart member))

/-- The initialiser of the helper type comes after all others. -/
theorem initialisers_eq
    (named : ∀ stub ∈ m.eligibleStubs x, stub.1.method.name ≠ ".cctor") :
    initialisers m' = initialisers m ++ [⟨helper, Helper.staticConstructorMethod helper⟩] := by
  obtain ⟨types, widened, eq⟩ := widens.types
  let init? (t : TypeDef) : Option OwnedMethod := do
    let method ← t.method? ".cctor"
    if method.body.isSome then some ⟨t.name, method⟩ else none
  have each (t : TypeDef) (ht : t ∈ m.types) (t' : TypeDef) (h : t.Widened x t') :
      init? t' = init? t := by
    rcases h.find?_cases (p := (·.name == ".cctor")) (fun _ _ => rfl) with
      ⟨missing, generated⟩ | ⟨method, method', found, found', same⟩
    · have missing' : t'.methods.find? (·.name == ".cctor") = none := by
        cases found : t'.methods.find? (·.name == ".cctor") with
        | none => rfl
        | some method =>
          have name : method.name = ".cctor" := by simpa using List.find?_some found
          exact absurd (name ▸ generated method found) (by decide)
      simp only [init?, TypeDef.method?, missing, missing']
      rfl
    · have name : method.name = ".cctor" := by simpa using List.find?_some found
      have kept : method' = method := same fun stub => by
        cases included : x.excludes t.name with
        | true => rfl
        | false =>
          obtain ⟨l, info, eligible, eq⟩ :=
            exists_eligible ht (List.mem_of_find?_eq_some found) stub included
          exact absurd (by rw [eq]; exact name) (named (l, info) eligible)
      rw [kept] at found'
      simp only [init?, TypeDef.method?, found, found', h.name_eq]
  have last : init? (Helper.helperDef helper flags) =
      some ⟨helper, Helper.staticConstructorMethod helper⟩ := rfl
  have all : types.filterMap init? = m.types.filterMap init? := by
    have mapped := congrArg (List.filterMap id) (List.map_congr_of_forall₂ widened each)
    rwa [List.filterMap_map, List.filterMap_map] at mapped
  rw [initialisers, eq, List.filterMap_append, List.filterMap_cons_some last]
  exact congrArg (· ++ _) all

/-! ### The helper type -/

theorem hasHelper {w : World}
    (framework : ∀ member : RuntimeMember, member.ref.owner ≠ helper ∧
      ∀ t ∈ m.types, t.name ≠ member.ref.owner) : Machine.HasHelper ⟨m', w⟩ helper flags := by
  obtain ⟨types, widened, eq⟩ := widens.types
  have old : ∀ t' ∈ types, ∃ t ∈ m.types, t'.name = t.name := by
    intro t' ht'
    obtain ⟨t, ht, h⟩ := List.exists_left_of_forall₂ widened ht'
    exact ⟨t, ht, h.name_eq⟩
  refine Helper.hasHelper_of_last eq (fun t' ht' => ?_) fun member t' ht' => ?_
  · obtain ⟨t, ht, name⟩ := old t' ht'
    rw [name]
    exact widens.other t ht
  · rw [eq] at ht'
    rcases List.mem_append.mp ht' with ht' | ht'
    · obtain ⟨t, ht, name⟩ := old t' ht'
      rw [name]
      exact (framework member).2 t ht
    · rw [List.mem_singleton.mp ht']
      exact (framework member).1.symm

/-! ### Static fields -/

/-- Of a declared field the same cells are made as before. -/
theorem declaredCells_eq (distinct : (m.types.map TypeDef.name).Nodup)
    (ignores : m.Ignores helper) {owner : TypeName} {name : String} (declares : m.Declares owner name) :
    (declaredCells m').filter (fun c => c.owner == owner && c.name == name) =
      (declaredCells m).filter fun c => c.owner == owner && c.name == name := by
  have scalars := (widens.oneMore ignores).isScalar_eq
  obtain ⟨types, widened, eq⟩ := widens.types
  obtain ⟨t₀, ht₀, rfl, f₀, hf₀, rfl⟩ := declares
  have taken : ∀ t ∈ m.types, t.name = t₀.name → f₀.name ∈ t.memberNames := by
    intro t ht same
    rw [List.inj_on_of_nodup_map distinct ht ht₀ same]
    exact List.mem_append_left _ (List.mem_map_of_mem hf₀)
  have last : (typeCells m' (Helper.helperDef helper flags)).filter
      (fun c => c.owner == t₀.name && c.name == f₀.name) = [] := by
    refine List.filter_eq_nil_iff.mpr fun c hc key => ?_
    obtain ⟨f, hf, -, -, rfl⟩ := mem_typeCells.mp hc
    simp only [Bool.and_eq_true, beq_iff_eq] at key
    exact widens.other t₀ ht₀ key.1.symm
  have all := congrArg List.flatten (List.map_congr_of_forall₂ widened fun t ht t' h =>
    h.filter_typeCells scalars (taken t ht))
  rw [declaredCells, declaredCells, List.filter_flatMap, List.filter_flatMap, eq,
    List.flatMap_append, List.flatMap_singleton, last, List.append_nil]
  exact all

theorem staticValue?_eq (ignores : m.Ignores helper) {w w' : World} {s s' : MachineState}
    {owner : TypeName} {name : String} (same : cell? s' owner name = cell? s owner name)
    (types : ∀ c, cell? s owner name = some c → c.type ≠ .named helper) :
    staticValue? ⟨m', w'⟩ s' owner name = staticValue? ⟨m, w⟩ s owner name := by
  unfold staticValue?
  rw [same]
  cases found : cell? s owner name with
  | none => rfl
  | some c =>
    exact congrArg Except.toOption ((widens.oneMore ignores).decode_eq (types c found) _)

end Module.Widens

theorem Module.Binds.widens {m : Module} {c : Config} {found : ImportTable}
    {types : List TypeScaffold} {bodies : List (MethodHandle × Body)} {helper : TypeDef}
    (binds : m.Binds c found types bodies helper) (id : Uuid) :
    Widens c.exclusions c.helperType c.loadFlags m (m.boundLate c types bodies helper id) := by
  obtain rfl := Except.ok.inj (binds.helper.symm.trans (Helper.typeDef_eq c.helperType c.loadFlags))
  rw [binds.boundLate_eq]
  exact ⟨⟨_, List.forall₂_mapIdx fun _ _ => binds.boundType_widened, rfl⟩, rfl, binds.free⟩

end LateBind
