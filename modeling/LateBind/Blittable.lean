import LateBind.BindError

/-! Which types look the same on both sides of a native call. A struct does if all its instance
fields do; while a struct is looked into, meeting it again counts as a yes, so that the search ends
and the answer is the largest one that fits the rules. Answers are remembered by name. -/

namespace LateBind

/-- What is known of a named type. -/
inductive Standing
  /-- A struct that is being looked into. -/
  | active
  /-- A remembered answer. -/
  | answered (fits : Bool)
  deriving DecidableEq, Repr

/-- What is known of types, the latest first. -/
abbrev Memo := List (TypeName × Standing)

/-- A computation that asks about types; what it has remembered outlives its failure. -/
abbrev Inquiry := ExceptT BindError (StateM Memo)

namespace Memo

/-- The structs that are being looked into, the innermost first. -/
def active (memo : Memo) : List TypeName :=
  (memo.filter fun e => e.2 = .active).map Prod.fst

def enter (memo : Memo) (name : TypeName) : Memo := (name, .active) :: memo

def leave (memo : Memo) (name : TypeName) : Memo := memo.filter (· ≠ (name, .active))

/-- A yes that rests on the assumption about a struct that is being looked into is not remembered. -/
def conclude (memo : Memo) (name : TypeName) (fits : Bool) : Memo :=
  if memo.active.isEmpty || !fits then (name, .answered fits) :: memo else memo

@[simp]
theorem active_enter (memo : Memo) (name : TypeName) :
    (memo.enter name).active = name :: memo.active := by
  simp [active, enter]

@[simp]
theorem active_conclude (memo : Memo) (name : TypeName) (fits : Bool) :
    (memo.conclude name fits).active = memo.active := by
  unfold conclude
  split
  · simp [active]
  · rfl

theorem mem_active {memo : Memo} {name : TypeName} :
    name ∈ memo.active ↔ (name, .active) ∈ memo := by
  simp [active]

theorem active_leave (memo : Memo) (name : TypeName) :
    (memo.leave name).active = memo.active.filter (· ≠ name) := by
  rw [active, active, leave, List.filter_filter, List.filter_map, List.filter_filter]
  congr 1
  refine List.filter_congr fun e _ => ?_
  rcases e with ⟨other, _ | _⟩ <;> simp

theorem mem_of_lookup {memo : Memo} {name : TypeName} {standing : Standing}
    (known : memo.lookup name = some standing) : (name, standing) ∈ memo := by
  obtain ⟨before, behind, eq, -⟩ := List.lookup_eq_some_iff.mp known
  rw [eq]
  exact List.mem_append_right _ List.mem_cons_self

theorem not_mem_active_of_lookup {memo : Memo} {name : TypeName} (unknown : memo.lookup name = none) :
    name ∉ memo.active := fun active => by
  have known := List.lookup_eq_none_iff.mp unknown _ (mem_active.mp active)
  simp at known

end Memo

/-- An answer, and what is known after the search for it: the same structs are being looked into as
before. -/
structure Search (memo : Memo) where
  answer : Except BindError Bool
  after : Memo
  active_after : after.active = memo.active

namespace Search

variable {memo : Memo} {name : TypeName}

def pure (fits : Bool) : Search memo := ⟨.ok fits, memo, rfl⟩

def fail (e : BindError) : Search memo := ⟨.error e, memo, rfl⟩

/-- Goes on when the answer is yes. -/
def andThen (s : Search memo) (rest : (after : Memo) → after.active = memo.active → Search after) :
    Search memo :=
  match s.answer with
  | .ok true =>
    let s' := rest s.after s.active_after
    ⟨s'.answer, s'.after, s'.active_after.trans s.active_after⟩
  | _ => s

/-- Ends the search through the fields of a struct. -/
def leave (s : Search (memo.enter name)) (fresh : name ∉ memo.active) : Search memo :=
  ⟨s.answer, s.after.leave name, by
    rw [Memo.active_leave, s.active_after, Memo.active_enter, List.filter_cons_of_neg (by simp)]
    exact List.filter_eq_self.mpr fun other mem => decide_eq_true fun same => fresh (same ▸ mem)⟩

/-- Remembers the answer about a type, unless it is provisional. -/
def conclude (s : Search memo) (name : TypeName) : Search memo :=
  match s.answer with
  | .ok fits => ⟨.ok fits, s.after.conclude name fits, by
      rw [Memo.active_conclude, s.active_after]⟩
  | .error _ => s

theorem andThen_of_ne {s : Search memo} (stops : s.answer ≠ .ok true)
    (rest : (after : Memo) → after.active = memo.active → Search after) : s.andThen rest = s := by
  unfold andThen
  split
  · next yes => exact absurd yes stops
  · rfl

theorem andThen_of_eq {s : Search memo} (yes : s.answer = .ok true)
    (rest : (after : Memo) → after.active = memo.active → Search after) :
    (s.andThen rest).answer = (rest s.after s.active_after).answer ∧
      (s.andThen rest).after = (rest s.after s.active_after).after := by
  unfold andThen
  split
  · exact ⟨rfl, rfl⟩
  · next other => exact absurd yes other

@[simp]
theorem answer_conclude (s : Search memo) (name : TypeName) :
    (s.conclude name).answer = s.answer := by
  unfold conclude
  split
  · next eq => rw [eq]
  · rfl

theorem after_conclude_of_ok {s : Search memo} {fits : Bool} (eq : s.answer = .ok fits)
    (name : TypeName) : (s.conclude name).after = s.after.conclude name fits := by
  unfold conclude
  split
  · next eq' =>
    rw [eq] at eq'
    cases eq'
    rfl
  · next eq' =>
    rw [eq] at eq'
    cases eq'

theorem conclude_of_error {s : Search memo} {e : BindError} (eq : s.answer = .error e)
    (name : TypeName) : s.conclude name = s := by
  unfold conclude
  split
  · next eq' =>
    rw [eq] at eq'
    cases eq'
  · rfl

end Search

def TypeRef.isInlineScalar : TypeRef → Bool
  | primitive p => p.isNumericOrPointer
  | pointer _ => true
  | _ => false

namespace Module

def resolve (m : Module) (name : TypeName) : Except BindError TypeDef :=
  match m.findType? name with
  | some t => .ok t
  | none => .error (.unresolvedType name)

/-- How many definitions bear none of the given names. -/
def definitionsOutside (m : Module) (names : List TypeName) : Nat :=
  (m.types ++ m.references).countP fun t => !names.contains t.name

theorem countP_lt_countP {α : Type} {p q : α → Bool} {a : α} :
    ∀ {l : List α}, (∀ x, q x = true → p x = true) → a ∈ l → p a = true → q a = false →
      l.countP q < l.countP p
  | [], _, ha, _, _ => by simp at ha
  | b :: l, h, ha, hp, hq => by
    have hle : l.countP q ≤ l.countP p := List.countP_mono_left fun x _ => h x
    rcases List.mem_cons.mp ha with rfl | ha
    · simp [hp, hq]
      omega
    · have hlt := countP_lt_countP h ha hp hq
      simp only [List.countP_cons]
      by_cases hb : q b = true
      · simp [hb, h b hb, hlt]
      · simp [hb]
        split <;> omega

theorem definitionsOutside_cons_lt {m : Module} {names : List TypeName} {name : TypeName}
    {t : TypeDef} (found : m.findType? name = some t) (fresh : name ∉ names) :
    m.definitionsOutside (name :: names) < m.definitionsOutside names := by
  have hname : t.name = name := by simpa using List.find?_some found
  refine countP_lt_countP (a := t) ?_ (List.mem_of_find?_eq_some found) ?_ ?_
  · intro x hx
    simp_all
  · simpa [hname] using fresh
  · simp [hname]

mutual

/-- Whether values of a named type look the same on both sides. -/
def namedBlittable (m : Module) (memo : Memo) (name : TypeName) : Search memo :=
  match _unknown : memo.lookup name with
  | some (.answered known) => .pure known
  | some .active => .pure true
  | none =>
    match _found : m.findType? name with
    | none => .fail (.unresolvedType name)
    | some t =>
      let looked : Search memo := match t.kind with
        | .enum underlying => .pure underlying.isNumericOrPointer
        | .structType =>
          (fieldsBlittable m (memo.enter name) (t.fields.filter fun f => !f.isStatic)).leave
            (Memo.not_mem_active_of_lookup _unknown)
        | .classType | .delegate | .interface => .pure false
      looked.conclude name
termination_by (m.definitionsOutside memo.active, 0, 0)
decreasing_by
  rw [Memo.active_enter]
  exact Prod.Lex.left _ _
    (definitionsOutside_cons_lt _found (Memo.not_mem_active_of_lookup _unknown))

/-- Whether all fields do. A field with a marshalling annotation does not, nor one that holds an
array. -/
def fieldsBlittable (m : Module) (memo : Memo) : List FieldDef → Search memo
  | [] => .pure true
  | f :: rest =>
    if f.marshal.isSome then .pure false
    else
      let looked : Search memo := match f.type with
        | .named name => namedBlittable m memo name
        | t => .pure t.isInlineScalar
      looked.andThen fun after _same => fieldsBlittable m after rest
termination_by fields => (m.definitionsOutside memo.active, 1, fields.length)
decreasing_by
  · exact Prod.Lex.right _ (Prod.Lex.left _ _ Nat.zero_lt_one)
  · rw [_same]
    exact Prod.Lex.right _ (Prod.Lex.right _ (Nat.lt_succ_self _))

end

/-- Whether a type stored in place looks the same on both sides; an array is not stored in place. -/
def inlineBlittable (m : Module) : TypeRef → Inquiry Bool
  | .named name => fun memo =>
    let s := m.namedBlittable memo name
    (s.answer, s.after)
  | t => pure t.isInlineScalar

/-- Whether a type looks the same on both sides; a vector does if its elements do. -/
def isBlittable (m : Module) : TypeRef → Inquiry Bool
  | .array element rank => if rank = 1 then m.inlineBlittable element else pure false
  | t => m.inlineBlittable t

def isDelegate (m : Module) : TypeRef → Except BindError Bool
  | .named name => (m.resolve name).map (·.kind == .delegate)
  | _ => .ok false

/-- Whether a type is a vector whose elements satisfy a predicate. -/
def isVectorOf (t : TypeRef) (p : TypeRef → Inquiry Bool) : Inquiry Bool :=
  match t.array? with
  | some (element, rank) => if rank = 1 then p element else pure false
  | none => pure false

end Module

end LateBind
