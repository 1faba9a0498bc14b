import LateBind.Proofs.GeneratedCode
import LateBind.Proofs.VerifiedBodies

/-! # Protected regions of emitted bodies

Two regions of a body lie apart, or one of them lies in one part of the other and comes before it in
the table. Control does not fall out of the end of a finally part. -/

namespace LateBind

/-! ## Places -/

namespace Region

/-- The finally part follows the try part and is not empty. -/
structure Formed (r : Region) : Prop where
  start_le : r.tryStart ≤ r.tryEnd
  adjacent : r.finallyStart = r.tryEnd
  nonempty : r.finallyStart < r.finallyEnd

/-- The whole region lies in the try part of another one. -/
def InTry (r outer : Region) : Prop := outer.tryStart ≤ r.tryStart ∧ r.finallyEnd ≤ outer.tryEnd

/-- The whole region lies in the finally part of another one. -/
def InFinally (r outer : Region) : Prop :=
  outer.finallyStart ≤ r.tryStart ∧ r.finallyEnd ≤ outer.finallyEnd

/-- How a region lies to one that comes after it in the table. -/
def Fits (r later : Region) : Prop :=
  r.finallyEnd ≤ later.tryStart ∨ r.InTry later ∨ r.InFinally later

variable {r outer : Region} {pc : Nat}

theorem Formed.finallyContains_start (formed : r.Formed) : r.finallyContains r.finallyStart :=
  finallyContains_iff.mpr ⟨Nat.le_refl _, formed.nonempty⟩

theorem Formed.not_both (formed : r.Formed) (inTry : r.tryContains pc)
    (inFinally : r.finallyContains pc) : False := by
  rw [tryContains_iff] at inTry
  rw [finallyContains_iff] at inFinally
  have := formed.adjacent
  omega

theorem InTry.tryContains (inside : r.InTry outer) (formed : r.Formed)
    (h : r.tryContains pc ∨ r.finallyContains pc) : outer.tryContains pc := by
  rw [tryContains_iff, finallyContains_iff] at h
  rw [tryContains_iff]
  have := formed.start_le
  have := formed.adjacent
  have := formed.nonempty
  have := inside.1
  have := inside.2
  omega

theorem InFinally.finallyContains (inside : r.InFinally outer) (formed : r.Formed)
    (h : r.tryContains pc ∨ r.finallyContains pc) : outer.finallyContains pc := by
  rw [tryContains_iff, finallyContains_iff] at h
  rw [finallyContains_iff]
  have := formed.start_le
  have := formed.adjacent
  have := formed.nonempty
  have := inside.1
  have := inside.2
  omega

theorem InFinally.trans {r' : Region} (inner : r.InFinally r') (formed : r'.Formed)
    (inside : r'.InFinally outer) : r.InFinally outer := by
  have := formed.start_le
  have := formed.adjacent
  have := inner.1
  have := inner.2
  have := inside.1
  have := inside.2
  exact ⟨by omega, by omega⟩

/-- Two regions with a common place lie one in a part of the other. -/
theorem Fits.of_common (fits : r.Fits outer) (formed : r.Formed) (formed' : outer.Formed)
    (h : r.tryContains pc ∨ r.finallyContains pc)
    (h' : outer.tryContains pc ∨ outer.finallyContains pc) : r.InTry outer ∨ r.InFinally outer := by
  rcases fits with apart | inside
  · exfalso
    rw [tryContains_iff, finallyContains_iff] at h h'
    have := formed.start_le
    have := formed.adjacent
    have := formed'.start_le
    have := formed'.adjacent
    have := formed.nonempty
    omega
  · exact inside

theorem Fits.inTry (fits : r.Fits outer) (formed : r.Formed) (formed' : outer.Formed)
    (h : r.tryContains pc ∨ r.finallyContains pc) (h' : outer.tryContains pc) : r.InTry outer := by
  refine (fits.of_common formed formed' h (.inl h')).resolve_right fun inside => ?_
  exact formed'.not_both h' (inside.finallyContains formed h)

theorem Fits.inFinally (fits : r.Fits outer) (formed : r.Formed) (formed' : outer.Formed)
    (h : r.tryContains pc ∨ r.finallyContains pc) (h' : outer.finallyContains pc) :
    r.InFinally outer := by
  refine (fits.of_common formed formed' h (.inr h')).resolve_left fun inside => ?_
  exact formed'.not_both (inside.tryContains formed h) h'

end Region

/-! ## Falling from instruction to instruction -/

/-- The places that control falls to from some places of the code. -/
inductive Reached (entry : Nat → Prop) (code : Nat → Option Instr) : Nat → Prop
  | entry {p : Nat} : entry p → Reached entry code p
  | next {p : Nat} {i : Instr} : Reached entry code p → code p = some i → i.falls →
      Reached entry code (p + 1)

section Reached

variable {entry entry' : Nat → Prop} {code code' : Nat → Option Instr}

/-- Nothing falls into the place. -/
def Sealed (entry : Nat → Prop) (code : Nat → Option Instr) (p : Nat) : Prop :=
  ∀ q i, p = q + 1 → Reached entry code q → code q = some i → i.falls = false

/-- What happens from a place on has no say in where control falls before it. -/
theorem Reached.of_agree {n : Nat} (entries : ∀ p < n, entry' p → entry p)
    (agree : ∀ p, p + 1 < n → code' p = code p) {p : Nat} (reached : Reached entry' code' p)
    (low : p < n) : Reached entry code p := by
  induction reached with
  | entry h => exact .entry (entries _ low h)
  | @next p i _ found falls ih => exact .next (ih (by omega)) ((agree p low).symm.trans found) falls

theorem Sealed.of_agree {n p : Nat} (shut : Sealed entry code p) (low : p ≤ n)
    (entries : ∀ p < n, entry' p → entry p) (agree : ∀ p < n, code' p = code p) :
    Sealed entry' code' p := by
  intro q i eq reached found
  refine shut q i eq (reached.of_agree entries (fun p hp => agree p (by omega)) (by omega)) ?_
  rw [← agree q (by omega)]
  exact found

theorem sealed_of_not_reached {p : Nat} (h : ¬Reached entry code p) : Sealed entry code p := by
  intro q i eq reached found
  by_contra falls
  rw [Bool.not_eq_false] at falls
  exact h (eq ▸ .next reached found falls)

end Reached

namespace Body

/-- Control comes here from elsewhere: a label or the start of a finally part. -/
def Entry (b : Body) (p : Nat) : Prop := p ∈ b.labels ∨ ∃ r ∈ b.regions, r.finallyStart = p

/-- Control comes here by a branch, at the start of a finally part, or from before. -/
def Live (b : Body) : Nat → Prop := Reached b.Entry (b.instrs[·]?)

/-- How the regions of a body lie. -/
structure Nested (b : Body) : Prop where
  formed : ∀ r ∈ b.regions, r.Formed
  fits : b.regions.Pairwise Region.Fits
  sealed : ∀ r ∈ b.regions, Sealed b.Entry (b.instrs[·]?) r.finallyEnd

end Body

/-! ## Emitter states -/

namespace OpenRegion

/-- The parts so far lie in front of a position. -/
structure Formed (o : OpenRegion) (position : Nat) : Prop where
  start_le : o.tryStart ≤ position
  finally_le : ∀ start, o.finallyStart = some start → o.tryStart ≤ start ∧ start ≤ position

theorem Formed.mono {o : OpenRegion} {p p' : Nat} (formed : o.Formed p) (le : p ≤ p') :
    o.Formed p' where
  start_le := Nat.le_trans formed.start_le le
  finally_le start h :=
    ⟨(formed.finally_le start h).1, Nat.le_trans (formed.finally_le start h).2 le⟩

/-- A closed region lies in front of the open one, or in one part of it. -/
def Holds (o : OpenRegion) (r : Region) : Prop :=
  r.finallyEnd ≤ o.tryStart ∨
    o.tryStart ≤ r.tryStart ∧ ∀ start, o.finallyStart = some start →
      r.finallyEnd ≤ start ∨ start ≤ r.tryStart

/-- The open region lies in the part of the outer one that is open. -/
def Inside (o outer : OpenRegion) : Prop :=
  outer.tryStart ≤ o.tryStart ∧ ∀ start, outer.finallyStart = some start → start ≤ o.tryStart

end OpenRegion

namespace Emitter

/-- The places of the labels. -/
def places (e : Emitter) : List (Option Nat) := e.labels.toList.map LabelState.position

/-- Control comes here from elsewhere, as far as the code is known. -/
def Entry (e : Emitter) (p : Nat) : Prop :=
  some p ∈ e.places ∨ (∃ r ∈ e.regions, r.finallyStart = p) ∨
    ∃ o ∈ e.openRegions, o.finallyStart = some p

def code (e : Emitter) (p : Nat) : Option Instr := e.instrs[p]?

/-- How the regions lie while code is emitted. -/
structure Nested (e : Emitter) : Prop where
  formed : ∀ r ∈ e.regions, r.Formed ∧ r.finallyEnd ≤ e.position
  fits : e.regions.toList.Pairwise Region.Fits
  opened : ∀ o ∈ e.openRegions, o.Formed e.position
  holds : ∀ o ∈ e.openRegions, ∀ r ∈ e.regions, o.Holds r
  inside : e.openRegions.Pairwise OpenRegion.Inside
  entries : ∀ p, e.Entry p → p ≤ e.position
  /-- Where the emitter takes code to be out of reach, control does not come. -/
  dead : e.reachable = false → ¬Reached e.Entry e.code e.position
  started : ∀ o ∈ e.openRegions, ∀ start, o.finallyStart = some start → start < e.position ∨ e.reachable
  sealed : ∀ r ∈ e.regions, Sealed e.Entry e.code r.finallyEnd

variable {e e' : Emitter}

theorem nested_empty : empty.Nested where
  formed := by simp [empty]
  fits := by simp [empty]
  opened := by simp [empty]
  holds := by simp [empty]
  inside := by simp [empty]
  entries p entry := by simp [Entry, places, empty] at entry
  dead unreachable := by cases unreachable
  started := by simp [empty]
  sealed := by simp [empty]

/-! ### Instructions -/

theorem recordBranch_eq (e : Emitter) (l : Label) :
    ∃ labels, e.recordBranch l = { e with labels } ∧
      labels.toList.map LabelState.position = e.places := by
  unfold recordBranch
  split
  · next position found =>
    have eq : e.labels.toList[l.id.toNat]? = some ⟨position, none⟩ := by simpa using found
    obtain ⟨inside, at_index⟩ := List.getElem?_eq_some_iff.mp eq
    refine ⟨_, rfl, ?_⟩
    rw [Array.toList_setIfInBounds, List.map_set, places]
    refine List.ext_getElem? fun n => ?_
    rw [List.getElem?_set, List.getElem?_map]
    split
    · next same =>
      subst same
      rw [List.length_map, if_pos inside, eq]
      rfl
    · rfl
  · exact ⟨_, rfl, rfl⟩

theorem foldl_recordBranch_eq (ls : List Label) (e : Emitter) :
    ∃ labels, ls.foldl recordBranch e = { e with labels } ∧
      labels.toList.map LabelState.position = e.places := by
  induction ls generalizing e with
  | nil => exact ⟨_, rfl, rfl⟩
  | cons l ls ih =>
    obtain ⟨labels, first, same⟩ := recordBranch_eq e l
    obtain ⟨labels', rest, same'⟩ := ih { e with labels }
    exact ⟨labels', by rw [List.foldl_cons, first, rest], same'.trans same⟩

theorem applyEffect_eq (e : Emitter) (i : Instr) :
    ∃ depth maxDepth, e.applyEffect i = { e with
      depth, maxDepth
      errors := if e.depth < i.stackEffect.1 then e.errors.push (.stackUnderflow e.position)
        else e.errors } := by
  unfold applyEffect
  dsimp only
  split <;> exact ⟨_, _, rfl⟩

theorem applyFlow_eq (e : Emitter) (i : Instr) :
    ∃ depth, e.applyFlow i = { e with depth, reachable := e.reachable && i.falls } :=
  ⟨(e.applyFlow i).depth, by cases i <;> simp [applyFlow, Instr.falls]⟩

/-- An instruction goes behind the others and has no say in where labels and regions are. -/
structure Puts (e : Emitter) (i : Instr) (e' : Emitter) : Prop where
  instrs : e'.instrs = e.instrs.push i
  places : e'.places = e.places
  regions : e'.regions = e.regions
  openRegions : e'.openRegions = e.openRegions
  reachable : e'.reachable = (e.reachable && i.falls)
  errors : e'.errors =
    if e.depth < i.stackEffect.1 then e.errors.push (.stackUnderflow e.position) else e.errors

theorem puts_push (e : Emitter) (i : Instr) : e.Puts i (e.push i) := by
  obtain ⟨depth, maxDepth, effect⟩ := applyEffect_eq e i
  obtain ⟨labels, records, same⟩ := foldl_recordBranch_eq i.targets (e.applyEffect i)
  obtain ⟨depth', flow⟩ := applyFlow_eq (i.targets.foldl recordBranch (e.applyEffect i)) i
  have eq : e.push i = { e with
      instrs := e.instrs.push i, labels, depth := depth', maxDepth
      reachable := e.reachable && i.falls
      errors := if e.depth < i.stackEffect.1 then e.errors.push (.stackUnderflow e.position)
        else e.errors } := by
    unfold push
    dsimp only
    rw [flow, records, effect]
  rw [effect] at same
  rw [eq]
  exact ⟨rfl, same, rfl, rfl, rfl, rfl⟩

theorem Puts.position {i : Instr} (puts : e.Puts i e') : e'.position = e.position + 1 := by
  rw [Emitter.position, puts.instrs, Array.size_push, Emitter.position]

theorem Puts.entry {i : Instr} (puts : e.Puts i e') : e'.Entry = e.Entry := by
  funext p
  rw [Entry, puts.places, puts.regions, puts.openRegions, Entry]

theorem Puts.code_of_lt {i : Instr} (puts : e.Puts i e') {p : Nat} (low : p < e.position) :
    e'.code p = e.code p := by
  rw [Emitter.position] at low
  rw [code, code, puts.instrs, Array.getElem?_push, if_neg (by omega)]

theorem Puts.code_position {i : Instr} (puts : e.Puts i e') : e'.code e.position = some i := by
  rw [code, puts.instrs, Emitter.position, Array.getElem?_push_size]

theorem Nested.put {i : Instr} (nested : e.Nested) (puts : e.Puts i e') : e'.Nested where
  formed r hr := by
    rw [puts.regions] at hr
    rw [puts.position]
    exact ⟨(nested.formed r hr).1, Nat.le_succ_of_le (nested.formed r hr).2⟩
  fits := puts.regions ▸ nested.fits
  opened o ho := by
    rw [puts.openRegions] at ho
    rw [puts.position]
    exact (nested.opened o ho).mono (Nat.le_succ _)
  holds := by
    rw [puts.openRegions, puts.regions]
    exact nested.holds
  inside := puts.openRegions ▸ nested.inside
  entries p hp := by
    rw [puts.entry] at hp
    rw [puts.position]
    exact Nat.le_succ_of_le (nested.entries p hp)
  dead unreachable reached := by
    rw [puts.entry, puts.position] at reached
    rw [puts.reachable, Bool.and_eq_false_iff] at unreachable
    cases reached with
    | entry h => exact absurd (nested.entries _ h) (by omega)
    | next before found falls =>
      have same := Option.some.inj (puts.code_position.symm.trans found)
      subst same
      refine nested.dead (unreachable.resolve_right (by simp [falls])) ?_
      refine before.of_agree (n := e.position + 1) (fun _ _ h => h) (fun p hp => ?_) (by omega)
      exact puts.code_of_lt (by omega)
  started o ho start hs := by
    rw [puts.openRegions] at ho
    rw [puts.position]
    exact .inl (Nat.lt_succ_of_le ((nested.opened o ho).finally_le start hs).2)
  sealed r hr := by
    rw [puts.regions] at hr
    refine (nested.sealed r hr).of_agree (nested.formed r hr).2 (fun p _ h => puts.entry ▸ h) ?_
    exact fun p low => puts.code_of_lt low

theorem Nested.push (nested : e.Nested) (i : Instr) : (e.push i).Nested := nested.put (puts_push e i)

/-! ### Labels -/

/-- A label makes the next place an entry at most. -/
theorem Nested.enter (nested : e.Nested) (instrs : e'.instrs = e.instrs)
    (regions : e'.regions = e.regions) (openRegions : e'.openRegions = e.openRegions)
    (entries : ∀ p, e'.Entry p → e.Entry p ∨ p = e.position ∧ e'.reachable)
    (reachable : e.reachable → e'.reachable) : e'.Nested := by
  have position : e'.position = e.position := congrArg Array.size instrs
  have code : e'.code = e.code := by
    funext p
    rw [Emitter.code, instrs, Emitter.code]
  have before : ∀ p < e.position, e'.Entry p → e.Entry p := fun p low h =>
    (entries p h).resolve_right fun ⟨eq, _⟩ => by omega
  constructor
  case formed =>
    rw [regions, position]
    exact nested.formed
  case fits => exact regions ▸ nested.fits
  case opened =>
    rw [openRegions, position]
    exact nested.opened
  case holds =>
    rw [openRegions, regions]
    exact nested.holds
  case inside => exact openRegions ▸ nested.inside
  case entries =>
    intro p h
    rw [position]
    rcases entries p h with h | ⟨rfl, _⟩
    · exact nested.entries p h
    · exact Nat.le_refl _
  case dead =>
    intro unreachable reached
    have unreachable' : e.reachable = false := by
      by_contra h
      rw [reachable (by simpa using h)] at unreachable
      cases unreachable
    refine nested.dead unreachable' ?_
    rw [position, code] at reached
    refine reached.of_agree (n := e.position + 1) (fun p _ h => ?_) (fun _ _ => rfl) (by omega)
    exact (entries p h).resolve_right fun ⟨_, h'⟩ => by rw [h'] at unreachable; cases unreachable
  case started =>
    rw [openRegions, position]
    exact fun o ho start hs => (nested.started o ho start hs).imp_right reachable
  case sealed =>
    rw [regions, code]
    exact fun r hr => (nested.sealed r hr).of_agree (nested.formed r hr).2 before fun _ _ => rfl

theorem Nested.newLabel (nested : e.Nested) : e.newLabel.2.Nested := by
  refine nested.enter rfl rfl rfl (fun p h => .inl ?_) id
  simpa [Entry, places, Emitter.newLabel] using h

theorem Nested.newLocal (nested : e.Nested) (t : TypeRef) (pinned : Bool) :
    (e.newLocal t pinned).2.Nested :=
  nested.enter rfl rfl rfl (fun _ h => .inl h) id

theorem placeLabel_eq (e : Emitter) (l : Label) (clean : (e.placeLabel l).errors = #[]) :
    e.placeLabel l = e ∨ ∃ (state : LabelState) (depth : UInt16), e.placeLabel l = { e with
      labels := e.labels.setIfInBounds l.id.toNat { state with position := some e.position }
      depth
      reachable := true } := by
  unfold placeLabel at clean ⊢
  split
  · exact .inl rfl
  · next state found =>
    rw [found] at clean
    dsimp only at clean
    split
    · next marked =>
      rw [if_pos marked] at clean
      simp [fault] at clean
    · refine .inr ⟨state, ?_⟩
      dsimp only
      split
      · next reachable =>
        refine ⟨e.depth, ?_⟩
        rw [show e.reachable = true from reachable]
      · exact ⟨_, rfl⟩

theorem Nested.placeLabel (nested : e.Nested) {l : Label}
    (clean : (e.placeLabel l).errors = #[]) : (e.placeLabel l).Nested := by
  rcases placeLabel_eq e l clean with eq | ⟨state, depth, eq⟩
  · rwa [eq]
  · rw [eq]
    refine nested.enter rfl rfl rfl (fun p h => ?_) fun _ => rfl
    rcases h with placed | elsewhere
    · rw [places, Array.toList_setIfInBounds, List.map_set] at placed
      rcases List.mem_or_eq_of_mem_set placed with old | new
      · exact .inl (.inl old)
      · exact .inr ⟨Option.some.inj new, rfl⟩
    · exact .inl (.inr elsewhere)

/-! ### Regions -/

theorem openTry_of_clean (clean : e.openTry.2.errors = #[]) : e.openTry.2 =
    { e.newLabel.2 with openRegions := ⟨e.position, none, e.newLabel.1⟩ :: e.openRegions } := by
  have flat : e.depth = 0 := by
    by_contra deep
    simp [Emitter.openTry, deep, fault, Emitter.newLabel] at clean
  simp [Emitter.openTry, flat, Emitter.newLabel]

theorem Nested.openTry (nested : e.Nested) (clean : e.openTry.2.errors = #[]) :
    e.openTry.2.Nested := by
  have eq := openTry_of_clean clean
  have labelled := nested.newLabel
  have entry : e.openTry.2.Entry = e.newLabel.2.Entry := by
    funext p
    rw [eq]
    simp [Entry, places, Emitter.newLabel]
  constructor
  case formed => exact eq ▸ labelled.formed
  case fits => exact eq ▸ labelled.fits
  case opened =>
    rw [eq]
    refine List.forall_mem_cons.mpr ⟨⟨Nat.le_refl _, by simp⟩, labelled.opened⟩
  case holds =>
    rw [eq]
    refine List.forall_mem_cons.mpr ⟨fun r hr => .inl (labelled.formed r hr).2, labelled.holds⟩
  case inside =>
    rw [eq]
    refine List.pairwise_cons.mpr ⟨fun o ho => ?_, labelled.inside⟩
    exact ⟨(labelled.opened o ho).start_le, fun start h => ((labelled.opened o ho).finally_le start h).2⟩
  case entries =>
    rw [entry, eq]
    exact labelled.entries
  case dead =>
    rw [entry, eq]
    exact labelled.dead
  case started =>
    rw [eq]
    exact List.forall_mem_cons.mpr ⟨by simp, labelled.started⟩
  case sealed =>
    rw [entry, eq]
    exact labelled.sealed

/-- The finally part of the innermost region begins here. -/
theorem Nested.split {o : OpenRegion} {outer : List OpenRegion} (nested : e.Nested)
    (opened : e.openRegions = o :: outer) :
    Nested { e with
      openRegions := { o with finallyStart := some e.position } :: outer
      depth := 0
      reachable := true } := by
  have formed := opened ▸ nested.opened
  have holds := opened ▸ nested.holds
  have inside := opened ▸ nested.inside
  rw [List.forall_mem_cons] at formed holds
  rw [List.pairwise_cons] at inside
  have entries (p : Nat) (h : Entry { e with
      openRegions := { o with finallyStart := some e.position } :: outer
      depth := 0
      reachable := true } p) : e.Entry p ∨ p = e.position := by
    rcases h with label | closed | ⟨o', ho', start⟩
    · exact .inl (.inl label)
    · exact .inl (.inr (.inl closed))
    · rcases List.mem_cons.mp ho' with rfl | old
      · exact .inr (Option.some.inj start).symm
      · exact .inl (.inr (.inr ⟨o', opened ▸ List.mem_cons_of_mem _ old, start⟩))
  constructor
  case formed => exact nested.formed
  case fits => exact nested.fits
  case opened =>
    refine List.forall_mem_cons.mpr ⟨⟨formed.1.start_le, fun start h => ?_⟩, formed.2⟩
    obtain rfl := Option.some.inj h
    exact ⟨formed.1.start_le, Nat.le_refl _⟩
  case holds =>
    refine List.forall_mem_cons.mpr ⟨fun r hr => (holds.1 r hr).imp_right fun h => ⟨h.1, ?_⟩, holds.2⟩
    rintro start h
    obtain rfl := Option.some.inj h
    exact .inl (nested.formed r hr).2
  case inside => exact List.pairwise_cons.mpr inside
  case entries =>
    intro p h
    rcases entries p h with h | rfl
    · exact nested.entries p h
    · exact Nat.le_refl _
  case dead => exact fun unreachable => nomatch unreachable
  case started => exact fun _ _ _ _ => .inr rfl
  case sealed =>
    intro r hr
    refine (nested.sealed r hr).of_agree (nested.formed r hr).2 (fun p low h => ?_) fun _ _ => rfl
    exact (entries p h).resolve_right (by omega)

theorem Nested.openFinally (nested : e.Nested) (clean : e.openFinally.errors = #[]) :
    e.openFinally.Nested := by
  unfold Emitter.openFinally at clean ⊢
  split
  · next closed =>
    rw [closed] at clean
    simp [fault] at clean
  · next o outer opened =>
    rw [opened] at clean
    dsimp only at clean ⊢
    split
    · next again =>
      rw [if_pos again] at clean
      simp [fault] at clean
    · have left : (if e.reachable then e.push (.leave o.exit) else e).Nested := by
        split
        · exact nested.push _
        · exact nested
      refine left.split ?_
      split
      · rw [(puts_push e _).openRegions, opened]
      · exact opened

/-- The innermost region ends where control does not come. -/
theorem Nested.close {o : OpenRegion} {outer : List OpenRegion} {start : Nat} (nested : e.Nested)
    (opened : e.openRegions = o :: outer) (split : o.finallyStart = some start)
    (unreachable : e.reachable = false) :
    Nested { e with
      openRegions := outer
      regions := e.regions.push ⟨o.tryStart, start, start, e.position⟩
      depth := 0 } := by
  have formed := opened ▸ nested.opened
  have holds := opened ▸ nested.holds
  have inside := opened ▸ nested.inside
  have started := opened ▸ nested.started
  rw [List.forall_mem_cons] at formed holds started
  rw [List.pairwise_cons] at inside
  have inOrder := formed.1.finally_le start split
  have nonempty : start < e.position :=
    (started.1 start split).resolve_right (by simp [unreachable])
  have entry : Entry { e with
      openRegions := outer
      regions := e.regions.push ⟨o.tryStart, start, start, e.position⟩
      depth := 0 } = e.Entry := by
    funext p
    simp only [Entry, opened, Array.mem_push, List.mem_cons, or_and_right, exists_or,
      exists_eq_left, split, Option.some.injEq, places, or_assoc]
  constructor
  case formed =>
    intro r hr
    rcases Array.mem_push.mp hr with old | rfl
    · exact nested.formed r old
    · exact ⟨⟨inOrder.1, rfl, nonempty⟩, Nat.le_refl _⟩
  case fits =>
    rw [Array.toList_push, List.pairwise_append]
    refine ⟨nested.fits, List.pairwise_singleton _ _, fun r hr r' hr' => ?_⟩
    rw [List.mem_singleton] at hr'
    subst hr'
    have hr := Array.mem_toList_iff.mp hr
    rcases holds.1 r hr with apart | ⟨le, part⟩
    · exact .inl apart
    · rcases part start split with inTry | inFinally
      · exact .inr (.inl ⟨le, inTry⟩)
      · exact .inr (.inr ⟨inFinally, (nested.formed r hr).2⟩)
  case opened => exact formed.2
  case holds =>
    intro o' ho' r hr
    rcases Array.mem_push.mp hr with old | rfl
    · exact holds.2 o' ho' r old
    · exact .inr ⟨(inside.1 o' ho').1, fun start' h => .inr ((inside.1 o' ho').2 start' h)⟩
  case inside => exact inside.2
  case entries =>
    rw [entry]
    exact nested.entries
  case dead =>
    rw [entry]
    exact nested.dead
  case started => exact started.2
  case sealed =>
    rw [entry]
    intro r hr
    rcases Array.mem_push.mp hr with old | rfl
    · exact nested.sealed r old
    · exact sealed_of_not_reached (nested.dead unreachable)

/-- The end of the innermost finally part is out of reach once its `endfinally` is there. -/
theorem Nested.endPart {o : OpenRegion} {outer : List OpenRegion} (nested : e.Nested)
    (opened : e.openRegions = o :: outer) :
    ∃ e' : Emitter, e'.Nested ∧ e'.openRegions = o :: outer ∧ e'.reachable = false ∧
      (if e.reachable then { e with openRegions := outer }.push .endfinally
        else { e with openRegions := outer }) = { e' with openRegions := outer } := by
  by_cases reachable : e.reachable
  · obtain ⟨ended, puts, eq⟩ :
        ∃ ended, Puts { e with openRegions := outer } .endfinally ended ∧
          { e with openRegions := outer }.push .endfinally = ended := ⟨_, puts_push _ _, rfl⟩
    have puts' : e.Puts .endfinally { ended with openRegions := e.openRegions } :=
      ⟨puts.instrs, puts.places, puts.regions, rfl, puts.reachable, puts.errors⟩
    refine ⟨_, nested.put puts', opened, ?_, ?_⟩
    · rw [puts'.reachable]
      exact Bool.and_false _
    · rw [if_pos reachable, eq]
      exact congrArg (fun rs => { ended with openRegions := rs }) puts.openRegions
  · refine ⟨e, nested, opened, by simpa using reachable, ?_⟩
    rw [if_neg reachable]

theorem Nested.closeTry (nested : e.Nested) (clean : e.closeTry.errors = #[]) :
    e.closeTry.Nested := by
  unfold Emitter.closeTry at clean ⊢
  split
  · next closed =>
    rw [closed] at clean
    simp [fault] at clean
  · next o outer opened =>
    rw [opened] at clean
    dsimp only at clean ⊢
    split
    · next unsplit =>
      rw [unsplit] at clean
      simp [fault] at clean
    · next start split =>
      rw [split] at clean
      dsimp only at clean
      refine Nested.placeLabel ?_ clean
      obtain ⟨e', nested', opened', unreachable, eq⟩ := nested.endPart opened
      rw [eq]
      exact nested'.close opened' split unreachable

/-! ## Sequences of calls -/

/-- A call of the emitter. -/
inductive Call
  | defineLabel
  | markLabel (l : Label)
  | declareLocal (type : TypeRef) (pinned : Bool)
  | instr (i : Instr)
  | beginTry
  | beginFinally
  | endTry

/-- What a call makes of the emitter, whatever it gives back. -/
def Call.apply : Call → Emitter → Emitter
  | defineLabel, e => e.newLabel.2
  | markLabel l, e => e.placeLabel l
  | declareLocal type pinned, e => (e.newLocal type pinned).2
  | instr i, e => e.push i
  | beginTry, e => e.openTry.2
  | beginFinally, e => e.openFinally
  | endTry, e => e.closeTry

/-- The emitter after a sequence of calls. -/
def ofCalls (calls : List Call) : Emitter := calls.foldl (fun e call => call.apply e) empty

/-! ### Faults are kept -/

/-- Faults are never taken back: more of them go behind. -/
def Keeps (e e' : Emitter) : Prop := e.errors.toList <+: e'.errors.toList

theorem keeps_fault (e : Emitter) (err : EmitError) : e.Keeps (e.fault err) := by
  rw [Keeps, fault, Array.toList_push]
  exact List.prefix_append _ _

theorem Puts.keeps {i : Instr} (puts : e.Puts i e') : e.Keeps e' := by
  rw [Keeps, puts.errors]
  split
  · exact keeps_fault e _
  · exact List.prefix_rfl

theorem keeps_ended (e : Emitter) (i : Instr) : e.Keeps (if e.reachable then e.push i else e) := by
  split
  · exact (puts_push e i).keeps
  · exact List.prefix_rfl

theorem keeps_placeLabel (e : Emitter) (l : Label) : e.Keeps (e.placeLabel l) := by
  unfold placeLabel
  split
  · exact List.prefix_rfl
  · split
    · exact keeps_fault e _
    · dsimp only
      split <;> exact List.prefix_rfl

theorem Keeps.placeLabel (keeps : e.Keeps e') (l : Label) : e.Keeps (e'.placeLabel l) :=
  keeps.trans (keeps_placeLabel e' l)

theorem keeps_openTry (e : Emitter) : e.Keeps e.openTry.2 := by
  unfold openTry
  dsimp only
  split
  · exact keeps_fault e _
  · exact List.prefix_rfl

theorem keeps_openFinally (e : Emitter) : e.Keeps e.openFinally := by
  unfold openFinally
  split
  · exact keeps_fault e _
  · next r _ _ =>
    have ended := keeps_ended e (.leave r.exit)
    dsimp only
    split
    · exact ended.trans (keeps_fault _ _)
    · exact ended

theorem keeps_closeTry (e : Emitter) : e.Keeps e.closeTry := by
  unfold closeTry
  split
  · exact keeps_fault e _
  · next r outer _ =>
    have ended := keeps_ended { e with openRegions := outer } .endfinally
    dsimp only at ended ⊢
    split
    · exact keeps_fault e _
    · refine Keeps.placeLabel ?_ _
      exact ended

theorem Call.keeps (call : Call) (e : Emitter) : e.Keeps (call.apply e) := by
  cases call with
  | defineLabel => exact List.prefix_rfl
  | declareLocal => exact List.prefix_rfl
  | markLabel l => exact keeps_placeLabel e l
  | instr i => exact (puts_push e i).keeps
  | beginTry => exact keeps_openTry e
  | beginFinally => exact keeps_openFinally e
  | endTry => exact keeps_closeTry e

theorem Keeps.clean (keeps : e.Keeps e') (clean : e'.errors = #[]) : e.errors = #[] := by
  rw [Keeps, clean] at keeps
  exact Array.toList_eq_nil_iff.mp (List.prefix_nil.mp keeps)

/-- The first fault stays the first. -/
theorem Keeps.first {err : EmitError} (keeps : e.Keeps e') (first : e.errors[0]? = some err) :
    e'.errors[0]? = some err := by
  rw [← Array.getElem?_toList] at first ⊢
  obtain ⟨more, same⟩ := keeps
  rw [← same, List.getElem?_append_left (List.getElem?_eq_some_iff.mp first).1, first]

theorem Nested.apply (call : Call) (nested : e.Nested) (clean : (call.apply e).errors = #[]) :
    (call.apply e).Nested := by
  cases call with
  | defineLabel => exact nested.newLabel
  | markLabel l => exact nested.placeLabel clean
  | declareLocal type pinned => exact nested.newLocal type pinned
  | instr i => exact nested.push i
  | beginTry => exact nested.openTry clean
  | beginFinally => exact nested.openFinally clean
  | endTry => exact nested.closeTry clean

theorem nested_foldl (calls : List Call) (start : e.errors = #[] → e.Nested)
    (clean : (calls.foldl (fun e call => call.apply e) e).errors = #[]) :
    (calls.foldl (fun e call => call.apply e) e).Nested := by
  induction calls generalizing e with
  | nil => exact start clean
  | cons call calls ih =>
    exact ih (fun clean' => (start ((call.keeps e).clean clean')).apply call clean') clean

/-- The body has what a faultless emitter has. -/
structure Finishes (e : Emitter) (b : Body) : Prop where
  clean : e.errors = #[]
  instrs : b.instrs = e.instrs.toList
  regions : b.regions = e.regions.toList
  labels : e.places = b.labels.map some
  maxStack : b.maxStack = max e.maxDepth 1

theorem finishes_of_finish {b : Body} (made : e.finish = .ok b) : e.Finishes b := by
  unfold finish at made
  split at made
  · cases made
  · next faultless =>
    obtain ⟨labels, resolved, rfl⟩ := map_eq_ok made
    refine ⟨?_, rfl, rfl, resolveLabels_eq_ok_iff.mp resolved, rfl⟩
    unfold firstError? at faultless
    split at faultless
    · cases faultless
    · next none => exact Array.eq_empty_of_size_eq_zero (by simpa using none)

theorem Finishes.getElem?_places {b : Body} (finishes : e.Finishes b) {n p : Nat}
    (found : b.labels[n]? = some p) : e.places[n]? = some (some p) := by
  rw [finishes.labels, List.getElem?_map, found]
  rfl

theorem Finishes.code {b : Body} (finishes : e.Finishes b) (p : Nat) : b.instrs[p]? = e.code p := by
  rw [finishes.instrs, Array.getElem?_toList, Emitter.code]

theorem Finishes.entry {b : Body} (finishes : e.Finishes b) {p : Nat} (entry : b.Entry p) :
    e.Entry p := by
  rcases entry with label | ⟨r, hr, start⟩
  · refine .inl ?_
    rw [finishes.labels]
    exact List.mem_map_of_mem label
  · rw [finishes.regions] at hr
    exact .inr (.inl ⟨r, Array.mem_toList_iff.mp hr, start⟩)

/-- Every body that a sequence of calls gives has well-nested regions. -/
theorem nested_of_finish {calls : List Call} {b : Body} (made : (ofCalls calls).finish = .ok b) :
    b.Nested := by
  have finishes := finishes_of_finish made
  have nested : (ofCalls calls).Nested := nested_foldl calls (fun _ => nested_empty) finishes.clean
  constructor
  case formed =>
    rw [finishes.regions]
    exact fun r hr => (nested.formed r (Array.mem_toList_iff.mp hr)).1
  case fits => exact finishes.regions ▸ nested.fits
  case sealed =>
    intro r hr
    rw [finishes.regions] at hr
    exact (nested.sealed r (Array.mem_toList_iff.mp hr)).of_agree (Nat.le_refl _)
      (fun p _ => finishes.entry) fun p _ => finishes.code p

end Emitter

end LateBind
