import LateBind.Blittable
import LateBind.Module.Construction
import Mathlib.Data.List.Permutation

/-! # Which types look the same on both sides

The answers about types are the greatest ones that fit the rules: a struct does unless a chain of
instance fields leads from it to something that does not. What is remembered from earlier questions
changes an answer only where it hides a definition that is missing. -/

namespace LateBind

def TypeDef.instanceFields (t : TypeDef) : List FieldDef := t.fields.filter fun f => !f.isStatic

/-- Numbers other than pointer-sized ones. -/
def Primitive.isNumber : Primitive → Bool
  | i8 | u8 | i16 | u16 | i32 | u32 | i64 | u64 | f32 | f64 => true
  | _ => false

theorem Primitive.isNumericOrPointer_eq_false_iff (p : Primitive) :
    p.isNumericOrPointer = false ↔ p ∈ [boolean, char, string, object, void] := by
  cases p <;> decide

namespace Module

/-! ## The rules -/

section Rules

variable (m : Module) (base : Primitive → Bool)

/-- A chain of instance fields leads from a struct to a field. -/
inductive Contains : TypeName → FieldDef → Prop
  | own {name : TypeName} {t : TypeDef} {f : FieldDef} (found : m.findType? name = some t)
      (isStruct : t.kind = .structType) (mem : f ∈ t.instanceFields) : Contains name f
  | within {name inner : TypeName} {t : TypeDef} {f g : FieldDef}
      (found : m.findType? name = some t) (isStruct : t.kind = .structType)
      (mem : f ∈ t.instanceFields) (isNamed : f.type = .named inner) (rest : Contains inner g) :
      Contains name g

/-- The field keeps every struct that it is a part of from looking the same on both sides; `base`
tells the primitives that an enum may stand for. -/
def Spoils (f : FieldDef) : Prop :=
  f.marshal.isSome ∨
  match f.type with
  | .primitive p => p ∈ [.boolean, .char, .string, .object, .void]
  | .pointer _ => False
  | .array _ _ | .byRef _ => True
  | .named name => ∃ t, m.findType? name = some t ∧
    match t.kind with
    | .classType | .delegate | .interface => True
    | .enum underlying => base underlying = false
    | .structType => False

/-- Values of the type look the same on both sides where they are stored in place. -/
def FitsInline : TypeRef → Prop
  | .primitive p => p.isNumericOrPointer
  | .pointer _ => True
  | .array _ _ | .byRef _ => False
  | .named name => ∃ t, m.findType? name = some t ∧
    match t.kind with
    | .enum underlying => base underlying
    | .structType => ∀ f, m.Contains name f → ¬m.Spoils base f
    | .classType | .delegate | .interface => False

/-- Values of the type look the same on both sides; those of a vector do if its elements do. -/
def Fits : TypeRef → Prop
  | .array element rank => rank = 1 ∧ m.FitsInline base element
  | t => m.FitsInline base t

/-- Array elements and instance fields of structs lead from one type to another. -/
inductive Reaches : TypeRef → TypeRef → Prop
  | refl (t : TypeRef) : Reaches t t
  | element {element t : TypeRef} (rank : UInt32) (rest : Reaches element t) :
      Reaches (.array element rank) t
  | field {name : TypeName} {t : TypeDef} {f : FieldDef} {u : TypeRef}
      (found : m.findType? name = some t) (isStruct : t.kind = .structType)
      (mem : f ∈ t.instanceFields) (rest : Reaches f.type u) : Reaches (.named name) u

end Rules

variable {m : Module} {memo : Memo} {name : TypeName} {t : TypeDef} {f : FieldDef}
  {fields : List FieldDef} {active active' : List TypeName} {P Q : TypeName → Prop}

/-! ## The greatest set of names -/

/-- The type fits when the names with the property do. -/
def TypePasses (P : TypeName → Prop) : TypeRef → Prop
  | .named name => P name
  | t => t.isInlineScalar

/-- The field fits when the names with the property do. -/
def Passes (P : TypeName → Prop) (f : FieldDef) : Prop := f.marshal = none ∧ TypePasses P f.type

/-- The definition fits when the names with the property do. -/
def Upholds (m : Module) (P : TypeName → Prop) (name : TypeName) : Prop :=
  ∃ t, m.findType? name = some t ∧
    match t.kind with
    | .enum underlying => underlying.isNumericOrPointer
    | .structType => ∀ f ∈ t.instanceFields, Passes P f
    | .classType | .delegate | .interface => False

/-- The name fits if the active structs do: it is in a set of which every other name upholds it. -/
def Uniform (m : Module) (active : List TypeName) (name : TypeName) : Prop :=
  ∃ P : TypeName → Prop, P name ∧ ∀ n, P n → n ∈ active ∨ m.Upholds P n

theorem TypePasses.mono (h : ∀ n, P n → Q n) {t : TypeRef} (passes : TypePasses P t) :
    TypePasses Q t := by
  cases t with
  | named name => exact h name passes
  | _ => exact passes

theorem Passes.mono (h : ∀ n, P n → Q n) (passes : Passes P f) : Passes Q f :=
  ⟨passes.1, passes.2.mono h⟩

theorem Upholds.mono (h : ∀ n, P n → Q n) (upholds : m.Upholds P name) : m.Upholds Q name := by
  obtain ⟨t, found, fits⟩ := upholds
  refine ⟨t, found, ?_⟩
  cases kind : t.kind with
  | structType =>
    rw [kind] at fits
    exact fun f mem => (fits f mem).mono h
  | _ =>
    rw [kind] at fits
    exact fits

theorem Uniform.of_active (mem : name ∈ active) : m.Uniform active name :=
  ⟨(· ∈ active), mem, fun _ => .inl⟩

theorem Uniform.mono (sub : active ⊆ active') (uniform : m.Uniform active name) :
    m.Uniform active' name := by
  obtain ⟨P, own, supports⟩ := uniform
  exact ⟨P, own, fun n has => (supports n has).imp_left (@sub n)⟩

theorem Uniform.upholds (uniform : m.Uniform active name) :
    name ∈ active ∨ m.Upholds (m.Uniform active) name := by
  obtain ⟨P, own, supports⟩ := uniform
  exact (supports name own).imp_right (.mono fun n has => ⟨P, has, supports⟩)

/-- A struct fits if its fields do while it counts as one that fits. -/
theorem Uniform.of_fields (found : m.findType? name = some t) (isStruct : t.kind = .structType)
    (passes : ∀ f ∈ t.instanceFields, Passes (m.Uniform (name :: active)) f) :
    m.Uniform active name := by
  refine ⟨fun n => n = name ∨ m.Uniform (name :: active) n, .inl rfl, fun n has => ?_⟩
  have own : m.Upholds (fun n => n = name ∨ m.Uniform (name :: active) n) name := by
    refine ⟨t, found, ?_⟩
    rw [isStruct]
    exact fun f mem => (passes f mem).mono fun _ => .inr
  rcases has with rfl | uniform
  · exact .inr own
  · rcases uniform.upholds with mem | upholds
    · rcases List.mem_cons.mp mem with rfl | mem
      · exact .inr own
      · exact .inl mem
    · exact .inr (upholds.mono fun _ => .inr)

/-- Without active structs the set consists of names that uphold it. -/
theorem Uniform.found (uniform : m.Uniform [] name) :
    ∃ t, m.findType? name = some t ∧
      match t.kind with
      | .enum underlying => underlying.isNumericOrPointer
      | .structType => ∀ f ∈ t.instanceFields, Passes (m.Uniform []) f
      | .classType | .delegate | .interface => False :=
  uniform.upholds.resolve_left List.not_mem_nil

/-- The type of a field that passes is uniform or looks the same anyway. -/
theorem Uniform.passes (uniform : m.Uniform [] name) (found : m.findType? name = some t)
    (isStruct : t.kind = .structType) (mem : f ∈ t.instanceFields) : Passes (m.Uniform []) f := by
  obtain ⟨t', found', fits⟩ := uniform.found
  rw [found] at found'
  cases found'
  rw [isStruct] at fits
  exact fits f mem

/-! ## Names that fit and names that do not -/

theorem Contains.not_spoils (contains : m.Contains name f) (uniform : m.Uniform [] name) :
    ¬m.Spoils Primitive.isNumericOrPointer f := by
  induction contains with
  | @own name t f found isStruct mem =>
    obtain ⟨plain, type⟩ := uniform.passes found isStruct mem
    rintro (annotated | spoils)
    · rw [plain] at annotated
      cases annotated
    · cases shape : f.type with
      | named inner =>
        rw [shape] at type spoils
        obtain ⟨t', found', fits⟩ := Uniform.found type
        obtain ⟨t'', found'', spoilt⟩ := spoils
        rw [found'] at found''
        cases found''
        cases kind : t'.kind <;> simp_all
      | primitive p =>
        rw [shape] at type spoils
        have numeric : p.isNumericOrPointer = true := type
        rw [p.isNumericOrPointer_eq_false_iff.mpr spoils] at numeric
        cases numeric
      | pointer target =>
        rw [shape] at spoils
        exact spoils
      | _ =>
        rw [shape] at type
        cases type
  | within found isStruct mem isNamed _ ih =>
    obtain ⟨-, type⟩ := uniform.passes found isStruct mem
    rw [isNamed] at type
    exact ih type

theorem Uniform.fitsInline (uniform : m.Uniform [] name) :
    m.FitsInline Primitive.isNumericOrPointer (.named name) := by
  obtain ⟨t, found, fits⟩ := uniform.found
  refine ⟨t, found, ?_⟩
  cases kind : t.kind with
  | structType => exact fun f contains => contains.not_spoils uniform
  | _ =>
    rw [kind] at fits
    exact fits

/-- The name is that of a definition that does not fit. -/
def Unfit (m : Module) (name : TypeName) : Prop :=
  ∃ t, m.findType? name = some t ∧
    match t.kind with
    | .enum underlying => underlying.isNumericOrPointer = false
    | .structType => ∃ f, m.Contains name f ∧ m.Spoils Primitive.isNumericOrPointer f
    | .classType | .delegate | .interface => True

theorem Unfit.not_fitsInline (unfit : m.Unfit name) :
    ¬m.FitsInline Primitive.isNumericOrPointer (.named name) := by
  obtain ⟨t, found, bad⟩ := unfit
  rintro ⟨t', found', fits⟩
  rw [found] at found'
  cases found'
  cases kind : t.kind with
  | structType =>
    rw [kind] at bad fits
    obtain ⟨f, contains, spoils⟩ := bad
    exact fits f contains spoils
  | enum underlying =>
    rw [kind] at bad fits
    have numeric : underlying.isNumericOrPointer = true := fits
    rw [show underlying.isNumericOrPointer = false from bad] at numeric
    cases numeric
  | _ =>
    rw [kind] at fits
    exact fits

def TypeFails (m : Module) : TypeRef → Prop
  | .named name => m.Unfit name
  | t => t.isInlineScalar = false

/-- The field keeps its struct from fitting. -/
def Fails (m : Module) (f : FieldDef) : Prop := f.marshal.isSome ∨ m.TypeFails f.type

theorem Unfit.of_field (found : m.findType? name = some t) (isStruct : t.kind = .structType)
    (mem : f ∈ t.instanceFields) (fails : m.Fails f) : m.Unfit name := by
  refine ⟨t, found, ?_⟩
  rw [isStruct]
  have own := Contains.own found isStruct mem
  rcases fails with annotated | type
  · exact ⟨f, own, .inl annotated⟩
  · cases shape : f.type with
    | named inner =>
      rw [shape] at type
      obtain ⟨t', found', bad⟩ := type
      cases kind : t'.kind with
      | structType =>
        -- The chain behind the field is one field longer from here.
        rw [kind] at bad
        obtain ⟨g, contains, spoils⟩ := bad
        exact ⟨g, .within found isStruct mem shape contains, spoils⟩
      | _ =>
        refine ⟨f, own, .inr ?_⟩
        rw [shape]
        refine ⟨t', found', ?_⟩
        rw [kind] at bad ⊢
        exact bad
    | primitive p =>
      refine ⟨f, own, .inr ?_⟩
      rw [shape] at type ⊢
      exact p.isNumericOrPointer_eq_false_iff.mp type
    | pointer target =>
      rw [shape] at type
      cases type
    | _ =>
      refine ⟨f, own, .inr ?_⟩
      rw [shape]
      trivial

/-- Every name that a type leads to has a definition, if the names in its place are uniform. -/
theorem Reaches.found {u u' : TypeRef} (reaches : m.Reaches u u')
    (passes : TypePasses (m.Uniform []) u) :
    ∀ other, u' = .named other → (m.findType? other).isSome := by
  induction reaches with
  | refl u =>
    rintro other rfl
    obtain ⟨t, found, -⟩ := Uniform.found passes
    rw [found]
    rfl
  | element rank rest ih => cases passes
  | field found isStruct mem rest ih => exact ih (Uniform.passes passes found isStruct mem).2

/-! ## What an answer tells -/

/-- Everything remembered is right. -/
def Knows (m : Module) (memo : Memo) : Prop :=
  ∀ name fits, (name, .answered fits) ∈ memo → if fits then m.Uniform [] name else m.Unfit name

/-- The definition of a name is missing to which the type leads. -/
def Misses (m : Module) (t : TypeRef) (e : BindError) : Prop :=
  ∃ missing, e = .unresolvedType missing ∧ m.findType? missing = none ∧ m.Reaches t (.named missing)

/-- What an answer about a name says when the active structs count as ones that fit. -/
def Tells (m : Module) (active : List TypeName) (name : TypeName) : Except BindError Bool → Prop
  | .ok true => m.Uniform active name
  | .ok false => m.Unfit name
  | .error e => m.Misses (.named name) e

/-- What an answer about a type in its place says. -/
def TellsType (m : Module) (active : List TypeName) (t : TypeRef) : Except BindError Bool → Prop
  | .ok true => TypePasses (m.Uniform active) t
  | .ok false => m.TypeFails t
  | .error e => m.Misses t e

/-- What an answer about fields says. -/
def TellsAll (m : Module) (active : List TypeName) (fields : List FieldDef) :
    Except BindError Bool → Prop
  | .ok true => ∀ f ∈ fields, Passes (m.Uniform active) f
  | .ok false => ∃ f ∈ fields, m.Fails f
  | .error e => ∃ f ∈ fields, m.Misses f.type e

theorem Knows.enter (knows : m.Knows memo) : m.Knows (memo.enter name) := by
  intro other fits mem
  rcases List.mem_cons.mp mem with same | mem
  · cases same
  · exact knows other fits mem

theorem Knows.leave (knows : m.Knows memo) : m.Knows (memo.leave name) :=
  fun other fits mem => knows other fits ((List.mem_filter.mp mem).1)

theorem Knows.conclude {fits : Bool} (knows : m.Knows memo)
    (tells : m.Tells memo.active name (.ok fits)) : m.Knows (memo.conclude name fits) := by
  unfold Memo.conclude
  split
  · next final =>
    intro other fits' mem
    rcases List.mem_cons.mp mem with same | mem
    · cases same
      cases fits with
      | true =>
        have outermost : memo.active = [] := by simpa using final
        rw [outermost] at tells
        exact tells
      | false => exact tells
    · exact knows other fits' mem
  · exact knows

theorem Knows.tells {fits : Bool} (knows : m.Knows memo)
    (known : memo.lookup name = some (.answered fits)) : m.Tells active name (.ok fits) := by
  have right := knows name fits (Memo.mem_of_lookup known)
  cases fits with
  | true => exact right.mono (List.nil_subset _)
  | false => exact right

theorem Search.knows_conclude {s : Search memo} (knows : m.Knows s.after)
    (tells : m.Tells memo.active name s.answer) : m.Knows (s.conclude name).after := by
  cases eq : s.answer with
  | ok fits =>
    rw [Search.after_conclude_of_ok eq]
    refine knows.conclude ?_
    rwa [s.active_after, ← eq]
  | error e => rwa [Search.conclude_of_error eq]

/-- The fields of a struct decide about it. -/
theorem TellsAll.tells {answer : Except BindError Bool} (found : m.findType? name = some t)
    (isStruct : t.kind = .structType)
    (tells : m.TellsAll (name :: active) t.instanceFields answer) : m.Tells active name answer := by
  match answer with
  | .ok true => exact .of_fields found isStruct tells
  | .ok false =>
    obtain ⟨f, mem, fails⟩ := tells
    exact .of_field found isStruct mem fails
  | .error e =>
    obtain ⟨f, mem, missing, eq, unknown, reaches⟩ := tells
    exact ⟨missing, eq, unknown, .field found isStruct mem reaches⟩

/-- What an enum stands for decides about it. -/
theorem Tells.of_enum {underlying : Primitive} (found : m.findType? name = some t)
    (isEnum : t.kind = .enum underlying) :
    m.Tells active name (.ok underlying.isNumericOrPointer) := by
  cases numeric : underlying.isNumericOrPointer with
  | true =>
    refine ⟨(· = name), rfl, fun n same => .inr ⟨t, same ▸ found, ?_⟩⟩
    rw [isEnum]
    exact numeric
  | false =>
    refine ⟨t, found, ?_⟩
    rw [isEnum]
    exact numeric

/-- The first field and the others decide about all. -/
theorem TellsAll.cons {answer : Except BindError Bool} (passes : Passes (m.Uniform active) f)
    (tells : m.TellsAll active fields answer) : m.TellsAll active (f :: fields) answer := by
  match answer with
  | .ok true => exact List.forall_mem_cons.mpr ⟨passes, tells⟩
  | .ok false =>
    obtain ⟨g, mem, fails⟩ := tells
    exact ⟨g, List.mem_cons_of_mem _ mem, fails⟩
  | .error e =>
    obtain ⟨g, mem, misses⟩ := tells
    exact ⟨g, List.mem_cons_of_mem _ mem, misses⟩

/-- What the search for a field's type answers. -/
def lookAt (m : Module) (memo : Memo) : TypeRef → Search memo
  | .named name => m.namedBlittable memo name
  | t => .pure t.isInlineScalar

theorem fieldsBlittable_cons (memo : Memo) (plain : f.marshal.isSome = false) :
    m.fieldsBlittable memo (f :: fields) =
      (m.lookAt memo f.type).andThen fun after _ => m.fieldsBlittable after fields := by
  rw [fieldsBlittable, if_neg (by simp [plain])]
  rfl

theorem fieldsBlittable_marshalled (memo : Memo) (annotated : f.marshal.isSome) :
    m.fieldsBlittable memo (f :: fields) = .pure false := by
  rw [fieldsBlittable, if_pos annotated]

theorem namedBlittable_answered {known : Bool} (eq : memo.lookup name = some (.answered known)) :
    m.namedBlittable memo name = .pure known := by
  rw [namedBlittable]
  split <;> simp_all

theorem namedBlittable_active (eq : memo.lookup name = some .active) :
    m.namedBlittable memo name = .pure true := by
  rw [namedBlittable]
  split <;> simp_all

theorem namedBlittable_missing (unknown : memo.lookup name = none)
    (missing : m.findType? name = none) :
    m.namedBlittable memo name = .fail (.unresolvedType name) := by
  rw [namedBlittable]
  split <;> try simp_all
  split <;> simp_all

/-- What the search into a definition answers. -/
def lookInto (m : Module) (memo : Memo) (name : TypeName) (fresh : name ∉ memo.active)
    (t : TypeDef) : Search memo :=
  match t.kind with
  | .enum underlying => .pure underlying.isNumericOrPointer
  | .structType => (m.fieldsBlittable (memo.enter name) t.instanceFields).leave fresh
  | .classType | .delegate | .interface => .pure false

theorem namedBlittable_found (unknown : memo.lookup name = none) (found : m.findType? name = some t) :
    m.namedBlittable memo name =
      (m.lookInto memo name (Memo.not_mem_active_of_lookup unknown) t).conclude name := by
  rw [namedBlittable]
  split
  · simp_all
  · simp_all
  · split
    · simp_all
    · next t' found' =>
      rw [found] at found'
      cases found'
      rfl

theorem TellsType.all {answer : Except BindError Bool} (tells : m.TellsType active f.type answer)
    (stops : answer ≠ .ok true) : m.TellsAll active (f :: fields) answer := by
  match answer with
  | .ok true => exact absurd rfl stops
  | .ok false => exact ⟨f, List.mem_cons_self, .inr tells⟩
  | .error e => exact ⟨f, List.mem_cons_self, tells⟩

theorem lookAt_tells
    (named : ∀ name, m.Tells memo.active name (m.namedBlittable memo name).answer ∧
      m.Knows (m.namedBlittable memo name).after) (knows : m.Knows memo) (t : TypeRef) :
    m.TellsType memo.active t (m.lookAt memo t).answer ∧ m.Knows (m.lookAt memo t).after := by
  cases t with
  | named name =>
    obtain ⟨tells, knows'⟩ := named name
    refine ⟨?_, knows'⟩
    rw [lookAt]
    cases eq : (m.namedBlittable memo name).answer with
    | error e =>
      rw [eq] at tells
      exact tells
    | ok fits =>
      rw [eq] at tells
      cases fits <;> exact tells
  | primitive p =>
    refine ⟨?_, knows⟩
    change m.TellsType _ _ (.ok p.isNumericOrPointer)
    cases numeric : p.isNumericOrPointer <;> exact numeric
  | _ => exact ⟨rfl, knows⟩

/-- Every answer is right, and so is all that is remembered with it. -/
theorem search_tells (m : Module) :
    (∀ memo name, m.Knows memo →
      m.Tells memo.active name (m.namedBlittable memo name).answer ∧
        m.Knows (m.namedBlittable memo name).after) ∧
    ∀ memo fields, m.Knows memo →
      m.TellsAll memo.active fields (m.fieldsBlittable memo fields).answer ∧
        m.Knows (m.fieldsBlittable memo fields).after := by
  refine namedBlittable.mutual_induct m _ _
    ?answered ?active ?missing ?found ?nil ?marshalled ?field
  case answered =>
    intro memo name known eq knows
    rw [namedBlittable_answered eq]
    exact ⟨knows.tells eq, knows⟩
  case active =>
    intro memo name eq knows
    rw [namedBlittable_active eq]
    exact ⟨.of_active (Memo.mem_active.mpr (Memo.mem_of_lookup eq)), knows⟩
  case missing =>
    intro memo name unknown missing knows
    rw [namedBlittable_missing unknown missing]
    exact ⟨⟨name, rfl, missing, .refl _⟩, knows⟩
  case found =>
    intro memo name unknown t found ih knows
    rw [namedBlittable_found unknown found]
    have looked : m.Tells memo.active name
          (m.lookInto memo name (Memo.not_mem_active_of_lookup unknown) t).answer ∧
        m.Knows (m.lookInto memo name (Memo.not_mem_active_of_lookup unknown) t).after := by
      unfold lookInto
      split
      · next underlying kind =>
        exact ⟨.of_enum found kind, knows⟩
      · next kind =>
        obtain ⟨tells, knows'⟩ := ih knows.enter
        rw [Memo.active_enter] at tells
        exact ⟨tells.tells found kind, knows'.leave⟩
      all_goals
        next kind =>
        refine ⟨⟨t, found, ?_⟩, knows⟩
        rw [kind]
        trivial
    exact ⟨by rw [Search.answer_conclude]; exact looked.1, Search.knows_conclude looked.2 looked.1⟩
  case nil =>
    intro memo knows
    rw [fieldsBlittable]
    exact ⟨fun _ mem => absurd mem List.not_mem_nil, knows⟩
  case marshalled =>
    intro memo f rest annotated knows
    rw [fieldsBlittable_marshalled memo annotated]
    exact ⟨⟨f, List.mem_cons_self, .inl annotated⟩, knows⟩
  case field =>
    intro memo f rest plain ihName ihRest knows
    have plain : f.marshal = none := by simpa using plain
    rw [fieldsBlittable_cons memo (by rw [plain]; rfl)]
    obtain ⟨tells, knows'⟩ := lookAt_tells (fun name => ihName name knows) knows f.type
    by_cases yes : (m.lookAt memo f.type).answer = .ok true
    · obtain ⟨answer, after⟩ := Search.andThen_of_eq yes fun after _ => m.fieldsBlittable after rest
      obtain ⟨tellsRest, knowsRest⟩ := ihRest _ (m.lookAt memo f.type).active_after knows'
      rw [(m.lookAt memo f.type).active_after] at tellsRest
      rw [yes] at tells
      rw [answer, after]
      exact ⟨tellsRest.cons ⟨plain, tells⟩, knowsRest⟩
    · rw [Search.andThen_of_ne yes]
      exact ⟨tells.all yes, knows'⟩

/-! ## What is remembered along the way -/

end Module

namespace Memo

/-- What is known but for the answers. -/
def forget (memo : Memo) : Memo := memo.filter fun e => e.2 = .active

variable {memo : Memo} {name : TypeName}

theorem forget_enter : (memo.enter name).forget = memo.forget.enter name := by simp [forget, enter]

theorem forget_eq_nil (idle : memo.active = []) : memo.forget = [] := List.map_eq_nil_iff.mp idle

theorem active_forget : memo.forget.active = memo.active := by
  rw [active, forget, List.filter_filter]
  simp [active]

theorem lookup_forget_of_active (eq : memo.lookup name = some .active) :
    memo.forget.lookup name = some .active := by
  induction memo with
  | nil => cases eq
  | cons e memo ih =>
    obtain ⟨other, standing⟩ := e
    rw [List.lookup_cons] at eq
    cases same : name == other with
    | true =>
      rw [same] at eq
      cases eq
      rw [forget, List.filter_cons_of_pos (by simp), List.lookup_cons, same]
    | false =>
      rw [same] at eq
      cases standing with
      | active =>
        rw [forget, List.filter_cons_of_pos (by simp), List.lookup_cons, same]
        exact ih eq
      | answered fits =>
        rw [forget, List.filter_cons_of_neg (by simp)]
        exact ih eq

theorem lookup_forget_of_none (unknown : memo.lookup name = none) :
    memo.forget.lookup name = none :=
  List.lookup_eq_none_iff.mpr fun e mem =>
    List.lookup_eq_none_iff.mp unknown e (List.mem_filter.mp mem).1

theorem leave_enter (fresh : name ∉ memo.active) : (memo.enter name).leave name = memo := by
  rw [leave, enter, List.filter_cons_of_neg (by simp)]
  refine List.filter_eq_self.mpr fun e mem => decide_eq_true fun same => fresh ?_
  exact mem_active.mpr (same ▸ mem)

end Memo

namespace Module

variable {m : Module} {memo : Memo} {name : TypeName} {t : TypeDef} {f : FieldDef}
  {fields : List FieldDef}

theorem lookAt_keeps
    (named : ∀ name, (m.namedBlittable memo name).answer ≠ .ok false →
      (m.namedBlittable memo name).after = memo) (t : TypeRef)
    (notNo : (m.lookAt memo t).answer ≠ .ok false) : (m.lookAt memo t).after = memo := by
  cases t with
  | named name => exact named name notNo
  | _ => rfl

/-- If the search through its fields remembers nothing, so does the search into a definition. -/
theorem lookInto_keeps (fresh : name ∉ memo.active) (t : TypeDef)
    (fields : (m.fieldsBlittable (memo.enter name) t.instanceFields).answer ≠ .ok false →
      (m.fieldsBlittable (memo.enter name) t.instanceFields).after = memo.enter name)
    (notNo : (m.lookInto memo name fresh t).answer ≠ .ok false) :
    (m.lookInto memo name fresh t).after = memo := by
  unfold lookInto at notNo ⊢
  cases kind : t.kind with
  | structType =>
    simp only [kind] at notNo ⊢
    have kept := fields notNo
    exact (congrArg (Memo.leave · name) kept).trans (Memo.leave_enter fresh)
  | _ => rfl

/-- Only a no is remembered before the outermost struct has its answer. -/
theorem search_keeps (m : Module) :
    (∀ memo name, memo.active ≠ [] → (m.namedBlittable memo name).answer ≠ .ok false →
      (m.namedBlittable memo name).after = memo) ∧
    ∀ memo fields, memo.active ≠ [] → (m.fieldsBlittable memo fields).answer ≠ .ok false →
      (m.fieldsBlittable memo fields).after = memo := by
  refine namedBlittable.mutual_induct m _ _
    ?answered ?active ?missing ?found ?nil ?marshalled ?field
  case answered =>
    intro memo name known eq _ _
    rw [namedBlittable_answered eq]
    rfl
  case active =>
    intro memo name eq _ _
    rw [namedBlittable_active eq]
    rfl
  case missing =>
    intro memo name unknown missing _ _
    rw [namedBlittable_missing unknown missing]
    rfl
  case found =>
    intro memo name unknown t found ih busy
    rw [namedBlittable_found unknown found, Search.answer_conclude]
    intro notNo
    have looked := lookInto_keeps (Memo.not_mem_active_of_lookup unknown) t (ih (by simp)) notNo
    cases eq : (m.lookInto memo name (Memo.not_mem_active_of_lookup unknown) t).answer with
    | error e => rw [Search.conclude_of_error eq, looked]
    | ok fits =>
      rw [eq] at notNo
      cases fits with
      | false => exact absurd rfl notNo
      | true =>
        rw [Search.after_conclude_of_ok eq, looked, Memo.conclude, if_neg]
        simpa using busy
  case nil =>
    intro memo _ _
    rw [fieldsBlittable]
    rfl
  case marshalled =>
    intro memo f rest annotated _ _
    rw [fieldsBlittable_marshalled memo annotated]
    rfl
  case field =>
    intro memo f rest plain ihName ihRest busy
    rw [fieldsBlittable_cons memo (by simpa using plain)]
    have looked := lookAt_keeps (fun name => ihName name busy) f.type
    by_cases yes : (m.lookAt memo f.type).answer = .ok true
    · obtain ⟨answer, after⟩ := Search.andThen_of_eq yes fun after _ => m.fieldsBlittable after rest
      rw [answer, after, looked (by simp [yes])]
      exact ihRest memo rfl busy
    · rw [Search.andThen_of_ne yes]
      exact looked

/-- A name that fits gets a yes from a classifier that remembers nothing. -/
theorem Uniform.answer_eq (uniform : m.Uniform [] name) :
    (m.namedBlittable memo.forget name).answer = .ok true := by
  have knows : m.Knows memo.forget := fun other fits mem => by
    have active := (List.mem_filter.mp mem).2
    simp at active
  have tells := ((search_tells m).1 memo.forget name knows).1
  match eq : (m.namedBlittable memo.forget name).answer with
  | .ok true => rfl
  | .ok false =>
    rw [eq] at tells
    exact absurd uniform.fitsInline tells.not_fitsInline
  | .error e =>
    rw [eq] at tells
    obtain ⟨missing, -, unknown, reaches⟩ := tells
    have found := reaches.found uniform missing rfl
    rw [unknown] at found
    cases found

/-- Some name is remembered as one that does not fit. -/
def Doubts (memo : Memo) : Prop := ∃ name, (name, .answered false) ∈ memo

/-- Without what is remembered the search answers the same, unless a no is remembered and answered. -/
theorem search_agrees (m : Module) :
    (∀ memo name, m.Knows memo →
      (m.namedBlittable memo name).answer = (m.namedBlittable memo.forget name).answer ∨
        (m.namedBlittable memo name).answer = .ok false ∧ Doubts memo) ∧
    ∀ memo fields, m.Knows memo → memo.active ≠ [] →
      (m.fieldsBlittable memo fields).answer = (m.fieldsBlittable memo.forget fields).answer ∨
        (m.fieldsBlittable memo fields).answer = .ok false ∧ Doubts memo := by
  refine namedBlittable.mutual_induct m _ _
    ?answered ?active ?missing ?found ?nil ?marshalled ?field
  case answered =>
    intro memo name known eq knows
    rw [namedBlittable_answered eq]
    have mem := Memo.mem_of_lookup eq
    cases known with
    | true => exact .inl (Uniform.answer_eq (knows name true mem)).symm
    | false => exact .inr ⟨rfl, name, mem⟩
  case active =>
    intro memo name eq _
    rw [namedBlittable_active eq, namedBlittable_active (Memo.lookup_forget_of_active eq)]
    exact .inl rfl
  case missing =>
    intro memo name unknown missing _
    rw [namedBlittable_missing unknown missing,
      namedBlittable_missing (Memo.lookup_forget_of_none unknown) missing]
    exact .inl rfl
  case found =>
    intro memo name unknown t found ih knows
    rw [namedBlittable_found unknown found, Search.answer_conclude,
      namedBlittable_found (Memo.lookup_forget_of_none unknown) found, Search.answer_conclude]
    cases kind : t.kind with
    | structType =>
      simp only [lookInto, kind]
      rcases ih knows.enter (by simp) with same | ⟨no, other, mem⟩
      · rw [Memo.forget_enter] at same
        exact .inl same
      · refine .inr ⟨no, other, ?_⟩
        simpa [Memo.enter] using mem
    | _ =>
      simp only [lookInto, kind]
      exact .inl rfl
  case nil =>
    intro memo _ _
    rw [fieldsBlittable, fieldsBlittable]
    exact .inl rfl
  case marshalled =>
    intro memo f rest annotated _ _
    rw [fieldsBlittable_marshalled memo annotated, fieldsBlittable_marshalled memo.forget annotated]
    exact .inl rfl
  case field =>
    intro memo f rest plain ihName ihRest knows busy
    have plain : f.marshal.isSome = false := by simpa using plain
    rw [fieldsBlittable_cons memo plain, fieldsBlittable_cons memo.forget plain]
    have looked : (m.lookAt memo f.type).answer = (m.lookAt memo.forget f.type).answer ∨
        (m.lookAt memo f.type).answer = .ok false ∧ Doubts memo := by
      cases shape : f.type with
      | named name => exact ihName name knows
      | _ => exact .inl rfl
    rcases looked with same | ⟨no, doubts⟩
    · by_cases yes : (m.lookAt memo f.type).answer = .ok true
      · have yes' := same.symm.trans yes
        have busy' : memo.forget.active ≠ [] := by rwa [Memo.active_forget]
        have keeps {memo : Memo} (busy : memo.active ≠ [])
            (yes : (m.lookAt memo f.type).answer = .ok true) :
            (m.lookAt memo f.type).after = memo :=
          lookAt_keeps (fun name => (search_keeps m).1 memo name busy) _ (by simp [yes])
        rw [(Search.andThen_of_eq yes _).1, (Search.andThen_of_eq yes' _).1, keeps busy yes,
          keeps busy' yes']
        exact ihRest memo rfl knows busy
      · rw [Search.andThen_of_ne yes, Search.andThen_of_ne (by rwa [← same])]
        exact .inl same
    · rw [Search.andThen_of_ne (by simp [no])]
      exact .inr ⟨no, doubts⟩

/-! ## Questions one after the other -/

/-- The search for a type that is asked about. -/
def ask (m : Module) (memo : Memo) : TypeRef → Search memo
  | .array element rank => if rank = 1 then m.lookAt memo element else .pure false
  | t => m.lookAt memo t

/-- A question is one about a type stored in place, or it is answered with no at once. -/
theorem ask_cases (m : Module) (t : TypeRef) :
    (∃ u, ∀ memo, m.ask memo t = m.lookAt memo u) ∨ ∀ memo, m.ask memo t = .pure false := by
  cases t with
  | array element rank =>
    by_cases vector : rank = 1
    · exact .inl ⟨element, fun memo => by rw [ask, if_pos vector]⟩
    · exact .inr fun memo => by rw [ask, if_neg vector]
  | primitive p => exact .inl ⟨.primitive p, fun _ => rfl⟩
  | named name => exact .inl ⟨.named name, fun _ => rfl⟩
  | pointer target => exact .inl ⟨.pointer target, fun _ => rfl⟩
  | byRef target => exact .inl ⟨.byRef target, fun _ => rfl⟩

theorem run_isBlittable (m : Module) (t : TypeRef) (memo : Memo) :
    (m.isBlittable t).run memo = ((m.ask memo t).answer, (m.ask memo t).after) := by
  cases t with
  | array element rank =>
    rw [isBlittable, ask]
    split
    · cases element <;> rfl
    · rfl
  | _ => rfl

theorem TypePasses.fitsInline {t : TypeRef} (passes : TypePasses (m.Uniform []) t) :
    m.FitsInline Primitive.isNumericOrPointer t := by
  cases t with
  | named name => exact Uniform.fitsInline passes
  | primitive p => exact passes
  | pointer target => trivial
  | _ => cases passes

theorem TypeFails.not_fitsInline {t : TypeRef} (fails : m.TypeFails t) :
    ¬m.FitsInline Primitive.isNumericOrPointer t := by
  cases t with
  | named name => exact Unfit.not_fitsInline fails
  | primitive p =>
    have numeric : p.isNumericOrPointer = false := fails
    simp [FitsInline, numeric]
  | pointer target => cases fails
  | _ => exact id

/-- What an answer to a question says: whether the property holds, or what is missing. -/
def Decides (m : Module) (holds : Prop) (t : TypeRef) : Except BindError Bool → Prop
  | .ok fits => fits = true ↔ holds
  | .error e => m.Misses t e

theorem TellsType.decides {answer : Except BindError Bool} {t : TypeRef}
    (tells : m.TellsType [] t answer) :
    m.Decides (m.FitsInline Primitive.isNumericOrPointer t) t answer := by
  match answer with
  | .ok true => exact iff_of_true rfl (TypePasses.fitsInline tells)
  | .ok false => exact iff_of_false nofun (TypeFails.not_fitsInline tells)
  | .error e => exact tells

theorem ask_decides (knows : m.Knows memo) (idle : memo.active = []) (t : TypeRef) :
    m.Decides (m.Fits Primitive.isNumericOrPointer t) t (m.ask memo t).answer ∧
      m.Knows (m.ask memo t).after := by
  have inline (t : TypeRef) :
      m.Decides (m.FitsInline Primitive.isNumericOrPointer t) t (m.lookAt memo t).answer ∧
        m.Knows (m.lookAt memo t).after := by
    obtain ⟨tells, knows'⟩ := lookAt_tells (fun name => (search_tells m).1 memo name knows) knows t
    rw [idle] at tells
    exact ⟨tells.decides, knows'⟩
  cases t with
  | array element rank =>
    rw [ask]
    split
    · next vector =>
      obtain ⟨decides, knows'⟩ := inline element
      refine ⟨?_, knows'⟩
      cases eq : (m.lookAt memo element).answer with
      | ok fits =>
        rw [eq] at decides
        exact Iff.trans decides (and_iff_right vector).symm
      | error e =>
        rw [eq] at decides
        obtain ⟨missing, eq, unknown, reaches⟩ := decides
        exact ⟨missing, eq, unknown, .element rank reaches⟩
    · next matrix => exact ⟨iff_of_false nofun fun fits => matrix fits.1, knows⟩
  | primitive p => exact inline (.primitive p)
  | named name => exact inline (.named name)
  | pointer target => exact inline (.pointer target)
  | byRef target => exact inline (.byRef target)

/-- What is known after questions, whatever the answers were. -/
def memoAfter (m : Module) (queries : List TypeRef) : Memo :=
  queries.foldl (fun memo t => ((m.isBlittable t).run memo).2) []

theorem memoAfter_eq_foldl_ask (m : Module) (queries : List TypeRef) :
    m.memoAfter queries = queries.foldl (fun memo t => (m.ask memo t).after) [] := by
  simp only [memoAfter, run_isBlittable]

/-- No struct stays active, and all answers that are remembered are right. -/
theorem memoAfter_knows (m : Module) (queries : List TypeRef) :
    m.Knows (m.memoAfter queries) ∧ (m.memoAfter queries).active = [] := by
  rw [memoAfter_eq_foldl_ask]
  induction queries using List.reverseRecOn with
  | nil => exact ⟨fun _ _ mem => absurd mem List.not_mem_nil, rfl⟩
  | append_singleton queries t ih =>
    rw [List.foldl_append, List.foldl_cons, List.foldl_nil]
    exact ⟨(ask_decides ih.1 ih.2 t).2, (m.ask _ t).active_after.trans ih.2⟩

/-- After any questions, the answer to the next is whether the type fits, if all definitions that it
leads to are there; and everything remembered is such an answer. -/
theorem isBlittable_iff_fits (m : Module) (queries : List TypeRef) (t : TypeRef) :
    (∀ e ∈ m.memoAfter queries, ∃ fits, e.2 = .answered fits ∧
      (fits = true ↔ m.Fits Primitive.isNumericOrPointer (.named e.1))) ∧
    ((∀ name, m.Reaches t (.named name) → (m.findType? name).isSome) →
      ∃ fits, ((m.isBlittable t).run (m.memoAfter queries)).1 = .ok fits ∧
        (fits = true ↔ m.Fits Primitive.isNumericOrPointer t)) := by
  obtain ⟨knows, idle⟩ := m.memoAfter_knows queries
  constructor
  · rintro ⟨name, standing⟩ mem
    cases standing with
    | active =>
      have active := Memo.mem_active.mpr mem
      rw [idle] at active
      cases active
    | answered fits =>
      have right := knows name fits mem
      refine ⟨fits, rfl, ?_⟩
      cases fits with
      | true => exact iff_of_true rfl (Uniform.fitsInline right)
      | false => exact iff_of_false nofun (Unfit.not_fitsInline right)
  · intro defined
    have decides := (ask_decides knows idle t).1
    rw [run_isBlittable]
    cases eq : (m.ask (m.memoAfter queries) t).answer with
    | ok fits =>
      rw [eq] at decides
      exact ⟨fits, rfl, decides⟩
    | error e =>
      rw [eq] at decides
      obtain ⟨missing, -, unknown, reaches⟩ := decides
      have found := defined missing reaches
      rw [unknown] at found
      cases found

/-- The types to which one element or one instance field leads. -/
def steps (m : Module) : TypeRef → List TypeRef
  | .array element _ => [element]
  | .named name =>
    match m.findType? name with
    | some t => if t.kind = .structType then t.instanceFields.map FieldDef.type else []
    | none => []
  | _ => []

theorem Reaches.mem_of_closed {u u' : TypeRef} (reaches : m.Reaches u u') (closed : List TypeRef)
    (steps : ∀ t ∈ closed, m.steps t ⊆ closed) (mem : u ∈ closed) : u' ∈ closed := by
  induction reaches with
  | refl => exact mem
  | element rank rest ih => exact ih (steps _ mem List.mem_cons_self)
  | @field name t f u found isStruct own rest ih =>
    refine ih (steps _ mem ?_)
    rw [Module.steps, found]
    simp only [isStruct, if_true]
    exact List.mem_map_of_mem own

/-- Two structs that hold each other, and one with a field whose type is missing. -/
def ring : Module :=
  (((start "ring" Uuid.zero).withType (((TypeDef.ofKind "Node" .structType).withField "next"
    (.named ⟨"", "Link"⟩) none).withField "weight" .f64 none)).withType
      (((TypeDef.ofKind "Link" .structType).withField "node" (.named ⟨"", "Node"⟩) none).withField
        "mode" (.named ⟨"", "Mode"⟩) none)).withType (TypeDef.enumOf "Mode" .u8)
          |>.withType ((TypeDef.ofKind "Broken" .structType).withField "lost"
            (.named ⟨"", "Lost"⟩) none)

theorem isBlittable_iff_fits_ring :
    (∀ name, ring.Reaches (.vector (.named ⟨"", "Node"⟩)) (.named name) →
      (ring.findType? name).isSome) ∧
    ((ring.isBlittable (.named ⟨"", "Broken"⟩)).run []).1 = .error (.unresolvedType ⟨"", "Lost"⟩) ∧
    ((ring.isBlittable (.vector (.named ⟨"", "Node"⟩))).run
      (ring.memoAfter [.named ⟨"", "Broken"⟩, .named ⟨"", "Link"⟩])).1 = .ok true ∧
    ring.Fits Primitive.isNumericOrPointer (.vector (.named ⟨"", "Node"⟩)) := by
  have known : ∀ name, ring.Reaches (.vector (.named ⟨"", "Node"⟩)) (.named name) →
      (ring.findType? name).isSome := by
    intro name reaches
    have mem := reaches.mem_of_closed [.vector (.named ⟨"", "Node"⟩),
      .named ⟨"", "Node"⟩, .named ⟨"", "Link"⟩, .named ⟨"", "Mode"⟩, .f64]
      (by decide +kernel) List.mem_cons_self
    simp [TypeRef.vector, TypeRef.f64] at mem
    rcases mem with rfl | rfl | rfl <;> cbv
  obtain ⟨fits, answer, iff⟩ := (isBlittable_iff_fits ring [.named ⟨"", "Broken"⟩,
    .named ⟨"", "Link"⟩] (.vector (.named ⟨"", "Node"⟩))).2 known
  have broken : (ring.isBlittable (.named ⟨"", "Broken"⟩)).run [] =
      (.error (.unresolvedType ⟨"", "Lost"⟩), []) := by cbv
  have link : (ring.isBlittable (.named ⟨"", "Link"⟩)).run [] =
      (.ok true, [(⟨"", "Link"⟩, .answered true)]) := by cbv
  have yes : ((ring.isBlittable (.vector (.named ⟨"", "Node"⟩))).run
      (ring.memoAfter [.named ⟨"", "Broken"⟩, .named ⟨"", "Link"⟩])).1 = .ok true := by
    rw [memoAfter, List.foldl_cons, List.foldl_cons, List.foldl_nil, broken, link]
    cbv
  rw [yes] at answer
  cases answer
  exact ⟨known, by rw [broken], yes, iff.mp rfl⟩

/-- An enum that stands for a pointer-sized number. -/
def handles : Module := (start "handles" Uuid.zero).withType (TypeDef.enumOf "Handle" .intPtr)

/-- An enum need not stand for a number that is not pointer-sized. -/
theorem not_isBlittable_iff_fits_isNumber :
    ¬∀ (m : Module) (queries : List TypeRef) (t : TypeRef),
      (∀ name, m.Reaches t (.named name) → (m.findType? name).isSome) →
      ∃ fits, ((m.isBlittable t).run (m.memoAfter queries)).1 = .ok fits ∧
        (fits = true ↔ m.Fits Primitive.isNumber t) := by
  intro all
  have known : ∀ name, handles.Reaches (.named ⟨"", "Handle"⟩) (.named name) →
      (handles.findType? name).isSome := by
    intro name reaches
    have mem := reaches.mem_of_closed [.named ⟨"", "Handle"⟩]
      (by decide +kernel) List.mem_cons_self
    simp at mem
    subst mem
    cbv
  obtain ⟨fits, answer, iff⟩ := all handles [] (.named ⟨"", "Handle"⟩) known
  have yes : ((handles.isBlittable (.named ⟨"", "Handle"⟩)).run (handles.memoAfter [])).1 =
      .ok true := by cbv
  rw [yes] at answer
  cases answer
  obtain ⟨t, found, number⟩ := iff.mp rfl
  have own : handles.findType? ⟨"", "Handle"⟩ = some (TypeDef.enumOf "Handle" .intPtr) := by cbv
  rw [own] at found
  cases found
  cases number

/-! ## Answers and history -/

theorem ask_agrees (knows : m.Knows memo) (idle : memo.active = []) (t : TypeRef) :
    (m.ask memo t).answer = (m.ask [] t).answer ∨
      (m.ask memo t).answer = .ok false ∧ Doubts memo := by
  rcases m.ask_cases t with ⟨u, eq⟩ | eq
  · rw [eq, eq]
    cases u with
    | named name =>
      have agrees := (search_agrees m).1 memo name knows
      rwa [Memo.forget_eq_nil idle] at agrees
    | _ => exact .inl rfl
  · rw [eq, eq]
    exact .inl rfl

/-- Questions asked before change an answer only to a no, and only where the definition of a type
that the search would have met first is missing; then the type indeed does not fit. -/
theorem isBlittable_after_queries (m : Module) (queries : List TypeRef) (t : TypeRef) :
    ((m.isBlittable t).run (m.memoAfter queries)).1 = ((m.isBlittable t).run []).1 ∨
      ((m.isBlittable t).run (m.memoAfter queries)).1 = .ok false ∧
        ¬m.Fits Primitive.isNumericOrPointer t ∧
        ∃ missing, ((m.isBlittable t).run []).1 = .error (.unresolvedType missing) ∧
          m.findType? missing = none ∧ m.Reaches t (.named missing) := by
  obtain ⟨knows, idle⟩ := m.memoAfter_knows queries
  rw [run_isBlittable, run_isBlittable]
  rcases ask_agrees knows idle t with same | ⟨no, -⟩
  · exact .inl same
  have late := (ask_decides knows idle t).1
  have fresh := (ask_decides (m.memoAfter_knows []).1 rfl t).1
  rw [no] at late
  have unfit : ¬m.Fits Primitive.isNumericOrPointer t := fun fits => nomatch late.mpr fits
  cases eq : (m.ask [] t).answer with
  | ok fits =>
    rw [memoAfter, List.foldl_nil, eq] at fresh
    cases fits with
    | false => exact .inl no
    | true => exact absurd (fresh.mp rfl) unfit
  | error e =>
    rw [memoAfter, List.foldl_nil, eq] at fresh
    obtain ⟨missing, rfl, unknown, reaches⟩ := fresh
    exact .inr ⟨no, unfit, missing, rfl, unknown, reaches⟩

/-- Two structs that hold each other. One also holds a boolean, the other something missing. -/
def tangled : Module :=
  ((start "tangled" Uuid.zero).withType (((TypeDef.ofKind "Outer" .structType).withField "inner"
    (.named ⟨"", "Inner"⟩) none).withField "flag" .boolean none)).withType
      (((TypeDef.ofKind "Inner" .structType).withField "outer" (.named ⟨"", "Outer"⟩) none).withField
        "lost" (.named ⟨"", "Lost"⟩) none)

/-- A question can change an answer. -/
theorem isBlittable_after_queries_ne :
    ((tangled.isBlittable (.named ⟨"", "Outer"⟩)).run []).1 =
      .error (.unresolvedType ⟨"", "Lost"⟩) ∧
    ((tangled.isBlittable (.named ⟨"", "Outer"⟩)).run
      (tangled.memoAfter [.named ⟨"", "Inner"⟩])).1 = .ok false := by
  have inner : (tangled.isBlittable (.named ⟨"", "Inner"⟩)).run [] =
      (.ok false, [(⟨"", "Inner"⟩, .answered false), (⟨"", "Outer"⟩, .answered false)]) := by cbv
  rw [memoAfter, List.foldl_cons, List.foldl_nil, inner]
  exact ⟨by cbv, by cbv⟩

end Module

end LateBind
