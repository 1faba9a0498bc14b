import LateBind.Proofs.VerifiedBodies
import Mathlib.Data.List.Forall2

/-! # Code that the emitter lays down piece by piece

A piece of code is entered at its first place and left behind its last one, and its branches stay
within. Its heights fit together, and its regions keep control as a verifier asks. Pieces of this kind
can be put one behind the other. -/

namespace LateBind

theorem Instr.ret_ne_of_isPlain {i : Instr} (plain : i.isPlain) : .ret ≠ i := by
  rintro rfl
  cases plain

namespace Emitter

/-- Control comes here with a height of the stack that has been counted. -/
structure Rests (e : Emitter) (height : Nat) : Prop extends e.At height where
  low : height ≤ e.maxDepth.toNat

/-- The greatest height has been counted up to a height and no further, and not down. -/
structure Counts (e : Emitter) (top : Nat) (k : UInt16) : Prop where
  before : e.maxDepth.toNat ≤ k.toNat
  height : top ≤ k.toNat
  peak : k.toNat ≤ max e.maxDepth.toNat top

/-- A label that is given out later has a height of a list. -/
def Level (e : Emitter) (levels : List Nat) (l : Label) (height : Nat) : Prop :=
  ∃ n, l = e.label n ∧ levels[n]? = some height

/-- A label that is given out later has a place of a list of marks. -/
def Places (e : Emitter) (ms : List Mark) (l : Label) (place : Nat) : Prop :=
  ∃ n, l = e.label n ∧ ms[n]?.bind Mark.place = some place

/-- Control passes from an instruction to places between two others only, and keeps to the parts of
regions. -/
structure Stays (e : Emitter) (ms : List Mark) (rs : List Region) (lo hi pc : Nat) (i : Instr) :
    Prop where
  falls : i.falls → ∀ r ∈ rs, r.Keeps pc (pc + 1)
  branches : i.isLeave = false → ∀ l ∈ i.targets,
    ∃ place, e.Places ms l place ∧ lo ≤ place ∧ place ≤ hi ∧ ∀ r ∈ rs, r.Keeps pc place

/-- A piece of code with its marks, locals and regions, the heights before its instructions and those
of its labels. It takes the stack from one height to another, and the greatest height that is counted
is one of them or was counted before. -/
structure Laid (e : Emitter) (params : Nat) (is : List Instr) (ms : List Mark) (vs : List Local)
    (rs : List Region) (h h' : Nat) (k : UInt16) (heights levels : List Nat) : Prop where
  start : heights.head?.or (some h') = some h
  fits : Fits ⟨params, e.locals.size + vs.length, k.toNat⟩ (e.Level levels) is heights (some h')
  places : List.Forall₂ (fun m height => ∃ p, m.place = some (e.position + p) ∧
    (heights ++ [h'])[p]? = some height) ms levels
  before : e.maxDepth.toNat ≤ k.toNat
  last : h' ≤ k.toNat
  peak : k.toNat ≤ e.maxDepth.toNat ∨ k.toNat ∈ heights ++ [h']
  returns : .ret ∉ is
  regions : ∀ r ∈ rs, r.Within e.position (e.position + is.length) ∧
    ∃ p, r.finallyStart = e.position + p ∧ heights[p]? = some 0
  stays : ∀ p i, is[p]? = some i →
    e.Stays ms rs e.position (e.position + is.length) (e.position + p) i

/-- The height behind a piece is the one that what follows starts with. -/
theorem getElem?_of_head {heights rest : List Nat} {h height p : Nat} (head : rest.head? = some h)
    (found : (heights ++ [h])[p]? = some height) : (heights ++ rest)[p]? = some height := by
  obtain ⟨rest, rfl⟩ := List.head?_eq_some_iff.mp head
  rw [List.append_cons, List.getElem?_append_left (List.getElem?_eq_some_iff.mp found).1]
  exact found

variable {e e₁ e₂ : Emitter} {params h h₁ h₂ l₁ l₂ : Nat} {is is' : List Instr} {ms ms' : List Mark}
  {vs vs' : List Local} {rs rs' : List Region} {k k' : UInt16}
  {heights heights' levels levels' : List Nat} {l : Label}

/-- A height that has been counted up to is the greatest one, or a greater one was counted before. -/
theorem Counts.attained (counts : e.Counts h k) (reached : h ∈ heights) :
    k.toNat ≤ e.maxDepth.toNat ∨ k.toNat ∈ heights := by
  rcases Nat.le_total h e.maxDepth.toNat with low | high
  · exact .inl (Nat.le_trans counts.peak (Nat.max_le.mpr ⟨Nat.le_refl _, low⟩))
  · have same : k.toNat = h :=
      Nat.le_antisymm (Nat.le_trans counts.peak (Nat.max_le.mpr ⟨high, Nat.le_refl _⟩)) counts.height
    exact .inr (same ▸ reached)

@[simp]
theorem level_label {n height : Nat} (found : levels[n]? = some height) :
    e.Level levels (e.label n) height := ⟨n, rfl, found⟩

theorem Level.append {height : Nat} (level : e.Level levels l height) (levels' : List Nat) :
    e.Level (levels ++ levels') l height := by
  obtain ⟨n, rfl, found⟩ := level
  exact ⟨n, rfl, List.getElem?_append_left (List.getElem?_eq_some_iff.mp found).1 ▸ found⟩

theorem Level.of_grow {height : Nat} (level : (e.grow is ms vs h k true).Level levels' l height)
    (length : ms.length = levels.length) : e.Level (levels ++ levels') l height := by
  obtain ⟨n, rfl, found⟩ := level
  refine ⟨ms.length + n, label_grow n, ?_⟩
  rw [length, List.getElem?_append_right (Nat.le_add_right _ _), Nat.add_sub_cancel_left]
  exact found

theorem Places.append {place : Nat} (places : e.Places ms l place) (ms' : List Mark) :
    e.Places (ms ++ ms') l place := by
  obtain ⟨n, rfl, found⟩ := places
  obtain ⟨m, found, place⟩ := Option.bind_eq_some_iff.mp found
  refine ⟨n, rfl, ?_⟩
  rw [List.getElem?_append_left (List.getElem?_eq_some_iff.mp found).1, found]
  exact place

theorem Places.of_grow {place : Nat} {front : List Mark}
    (places : (e.grow is ms vs h k true).Places ms' l place) (length : ms.length = front.length) :
    e.Places (front ++ ms') l place := by
  obtain ⟨n, rfl, found⟩ := places
  refine ⟨ms.length + n, label_grow n, ?_⟩
  rw [length, List.getElem?_append_right (Nat.le_add_right _ _), Nat.add_sub_cancel_left]
  exact found

theorem Level.places {height : Nat} (level : e.Level levels l height)
    (places : List.Forall₂ (fun m height => ∃ p, m.place = some (e.position + p) ∧
      (heights ++ [h₁])[p]? = some height) ms levels) :
    ∃ p, e.Places ms l (e.position + p) ∧ (heights ++ [h₁])[p]? = some height := by
  obtain ⟨n, rfl, level⟩ := level
  obtain ⟨inside, rfl⟩ := List.getElem?_eq_some_iff.mp level
  have inside' : n < ms.length := places.length_eq ▸ inside
  obtain ⟨p, place, found⟩ := places.get inside' inside
  refine ⟨p, ⟨n, rfl, ?_⟩, found⟩
  rw [List.getElem?_eq_getElem inside']
  exact place

/-- An instruction of a part of the code keeps to the regions of the whole if those of other parts do
not tell the places of its part from each other. -/
theorem Stays.mono {lo lo' hi hi' pc : Nat} {i : Instr} (stays : e₁.Stays ms' rs' lo' hi' pc i)
    (low : lo ≤ lo') (high : hi' ≤ hi) (inside : lo' ≤ pc ∧ pc < hi')
    (places : ∀ l place, e₁.Places ms' l place → e.Places ms l place)
    (others : ∀ r ∈ rs, r ∈ rs' ∨ ∀ place, lo' ≤ place → place ≤ hi' → r.Keeps pc place) :
    e.Stays ms rs lo hi pc i := by
  have keeps {place : Nat} (low : lo' ≤ place) (high : place ≤ hi')
      (own : ∀ r ∈ rs', r.Keeps pc place) : ∀ r ∈ rs, r.Keeps pc place := by
    intro r hr
    rcases others r hr with hr | other
    · exact own r hr
    · exact other place low high
  constructor
  case falls => exact fun falls => keeps (by omega) (by omega) (stays.falls falls)
  case branches =>
    intro inner l hl
    obtain ⟨place, placed, low', high', own⟩ := stays.branches inner l hl
    exact ⟨place, places l place placed, by omega, by omega, keeps low' high' own⟩

/-- Where labels are, once they are numbered from the start. -/
theorem Places.getElem?_map {place : Nat} (places : empty.Places ms l place)
    (few : ms.length < 2 ^ 32) : (ms.map (·.place.getD 0))[l.id.toNat]? = some place := by
  obtain ⟨n, rfl, found⟩ := places
  obtain ⟨m, found, place⟩ := Option.bind_eq_some_iff.mp found
  have inside := (List.getElem?_eq_some_iff.mp found).1
  have number : (empty.label n).id.toNat = n := by
    rw [toNat_label (by simp [empty]; omega)]
    exact Nat.zero_add n
  rw [number, List.getElem?_map, found, Option.map_some, place]
  rfl

namespace Laid

/-- Code without regions. -/
theorem of_fits (start : heights.head?.or (some h₁) = some h)
    (fits : Fits ⟨params, e.locals.size + vs.length, k.toNat⟩ (e.Level levels) is heights (some h₁))
    (places : List.Forall₂ (fun m height => ∃ p, m.place = some (e.position + p) ∧
      (heights ++ [h₁])[p]? = some height) ms levels)
    (before : e.maxDepth.toNat ≤ k.toNat) (last : h₁ ≤ k.toNat)
    (peak : k.toNat ≤ e.maxDepth.toNat ∨ k.toNat ∈ heights ++ [h₁]) (returns : .ret ∉ is) :
    e.Laid params is ms vs [] h h₁ k heights levels := by
  refine ⟨start, fits, places, before, last, peak, returns, by simp,
    fun p i found => ⟨by simp, ?_⟩⟩
  intro _ l hl
  obtain ⟨height, -, -, -, -, branches, -⟩ := fits.passes found
  obtain ⟨q, placed, found⟩ := (branches l hl).places places
  have low := (List.getElem?_eq_some_iff.mp found).1
  rw [List.length_append, List.length_singleton, fits.length_eq] at low
  exact ⟨e.position + q, placed, by omega, by omega, by simp⟩

/-- Pieces are put one behind the other. -/
theorem append (first : e.Laid params is ms vs rs h h₁ k heights levels)
    (second : (e.grow is ms vs h₁ k true).Laid params is' ms' vs' rs' h₁ h₂ k' heights' levels') :
    e.Laid params (is ++ is') (ms ++ ms') (vs ++ vs') (rs ++ rs') h h₂ k' (heights ++ heights')
      (levels ++ levels') := by
  have labels : ms.length = levels.length := first.places.length_eq
  have length : heights.length = is.length := first.fits.length_eq
  have middle : (e.grow is ms vs h₁ k true).position = e.position + is.length := position_grow
  constructor
  case start =>
    rw [List.head?_append, Option.or_assoc, second.start]
    exact first.start
  case fits =>
    refine (first.fits.mono ?_ fun l height level => level.append levels').append
      (second.fits.mono ?_ fun l height level => level.of_grow labels) ?_
    · exact ⟨Nat.le_refl _, by simp, second.before⟩
    · exact ⟨Nat.le_refl _, by simp [size_locals_grow, Nat.add_assoc], Nat.le_refl _⟩
    · intro height there
      rw [second.start, there]
  case places =>
    refine List.rel_append (first.places.imp ?_) (second.places.imp ?_)
    · rintro m height ⟨p, place, found⟩
      refine ⟨p, place, ?_⟩
      rw [List.append_assoc]
      exact getElem?_of_head (by rw [List.head?_append]; exact second.start) found
    · rintro m height ⟨p, place, found⟩
      refine ⟨is.length + p, ?_, ?_⟩
      · rw [place, middle, Nat.add_assoc]
      · rw [List.append_assoc, ← length, List.getElem?_append_right (Nat.le_add_right _ _),
          Nat.add_sub_cancel_left]
        exact found
  case before => exact Nat.le_trans first.before second.before
  case last => exact second.last
  case peak =>
    have start : (heights' ++ [h₂]).head? = some h₁ := by
      rw [List.head?_append]
      exact second.start
    have middle : h₁ ∈ heights' ++ [h₂] := List.mem_of_head? start
    rw [List.append_assoc]
    refine second.peak.elim (fun low => ?_) fun there => .inr (List.mem_append_right _ there)
    have same : k'.toNat = k.toNat := Nat.le_antisymm low second.before
    refine same ▸ first.peak.imp_right fun there => ?_
    refine (List.mem_append.mp there).elim (List.mem_append_left _) fun last => ?_
    rw [List.mem_singleton.mp last]
    exact List.mem_append_right _ middle
  case returns =>
    rw [List.mem_append]
    exact fun there => there.elim first.returns second.returns
  case regions =>
    intro r hr
    rw [List.length_append]
    rcases List.mem_append.mp hr with hr | hr
    · obtain ⟨within, p, start, found⟩ := first.regions r hr
      refine ⟨within.mono (Nat.le_refl _) (by omega), p, start, ?_⟩
      exact List.getElem?_append_left (List.getElem?_eq_some_iff.mp found).1 ▸ found
    · obtain ⟨within, p, start, found⟩ := second.regions r hr
      rw [middle] at within start
      refine ⟨within.mono (by omega) (by omega), is.length + p, by omega, ?_⟩
      rw [← length, List.getElem?_append_right (Nat.le_add_right _ _), Nat.add_sub_cancel_left]
      exact found
  case stays =>
    intro p i found
    rw [List.length_append]
    by_cases inFirst : p < is.length
    · rw [List.getElem?_append_left inFirst] at found
      refine (first.stays p i found).mono (Nat.le_refl _) (by omega) ⟨by omega, by omega⟩
        (fun l place placed => placed.append ms') fun r hr => ?_
      refine (List.mem_append.mp hr).imp_right fun hr place low high => ?_
      have within := middle ▸ (second.regions r hr).1
      exact within.keeps_before (by omega) (by omega)
    · rw [List.getElem?_append_right (Nat.le_of_not_lt inFirst)] at found
      have at_pc : e.position + is.length + (p - is.length) = e.position + p := by omega
      have stays := second.stays _ i found
      have inSecond := (List.getElem?_eq_some_iff.mp found).1
      rw [middle, at_pc] at stays
      refine stays.mono (by omega) (by omega) ⟨by omega, by omega⟩
        (fun l place placed => placed.of_grow rfl) fun r hr => ?_
      refine (List.mem_append.mp hr).symm.imp_right fun hr place low high => ?_
      exact (first.regions r hr).1.keeps_behind (by omega) (by omega)

/-! ### A try part and a finally part -/

section Protect

variable {m m' : Mark} {r : Region}

theorem position_tryPart : (e.grow [] [m] [] 0 e.maxDepth true).position = e.position := position_grow

theorem position_finallyPart :
    (e.grow (is ++ [.leave (e.label 0)]) (m' :: ms) vs 0 k true).position =
      e.position + is.length + 1 := by
  rw [position_grow, List.length_append, List.length_singleton, Nat.add_assoc]

/-- What stands behind the try part and its `leave`. -/
theorem getElem?_behind {n q height : Nat} (length : heights.length = n)
    (found : (heights' ++ [0])[q]? = some height) (rest : List Nat) :
    (heights ++ 0 :: (heights' ++ [0] ++ rest))[n + 1 + q]? = some height := by
  rw [List.append_cons, List.getElem?_append_right (by simp; omega), List.length_append,
    List.length_singleton, length, Nat.add_sub_cancel_left]
  exact List.getElem?_append_left (List.getElem?_eq_some_iff.mp found).1 ▸ found

variable (region : r = ⟨e.position, e.position + is.length + 1, e.position + is.length + 1,
    e.position + is.length + is'.length + 2⟩)
  (first : (e.grow [] [m] [] 0 e.maxDepth true).Laid params is ms vs rs 0 0 k heights levels)
  (second : (e.grow (is ++ [.leave (e.label 0)]) (m' :: ms) vs 0 k true).Laid params is' ms' vs' rs'
    0 0 k' heights' levels')

include first second

theorem protect_fits : Fits ⟨params, e.locals.size + (vs ++ vs').length, k'.toNat⟩
    (e.Level (0 :: (levels ++ levels'))) (is ++ .leave (e.label 0) :: (is' ++ [.endfinally]))
    (heights ++ 0 :: (heights' ++ [0])) (some 0) := by
  have labels : ms.length = levels.length := first.places.length_eq
  refine (first.fits.mono ?_ fun l height level => ?_).append
    ⟨Instr.passes_leave.mpr ⟨Nat.zero_le _, level_label rfl⟩,
      (second.fits.mono ?_ fun l height level => ?_).append
        ⟨Instr.passes_endfinally.mpr (Nat.zero_le _), trivial⟩ fun _ there => there⟩
    fun _ there => there
  · exact ⟨Nat.le_refl _, by simp [size_locals_grow], second.before⟩
  · exact (level.of_grow rfl : e.Level ([0] ++ levels) l height).append levels'
  · exact ⟨Nat.le_refl _, by simp [size_locals_grow, Nat.add_assoc], Nat.le_refl _⟩
  · exact (level.of_grow (by simp [labels]) : e.Level (0 :: levels ++ levels') l height)

theorem protect_places : List.Forall₂ (fun m height => ∃ p, m.place = some (e.position + p) ∧
      (heights ++ 0 :: (heights' ++ [0]) ++ [0])[p]? = some height)
    (⟨some (e.position + is.length + is'.length + 2), some 0⟩ :: (ms ++ ms'))
    (0 :: (levels ++ levels')) := by
  have length : heights.length = is.length := first.fits.length_eq
  have length' : heights'.length = is'.length := second.fits.length_eq
  refine .cons ⟨is.length + is'.length + 2, by simp [Nat.add_assoc], ?_⟩
    (List.rel_append (first.places.imp ?_) (second.places.imp ?_))
  · rw [List.getElem?_append_right (by simp; omega)]
    simp [length, length', Nat.add_assoc]
  · rintro m' height ⟨p, place, found⟩
    rw [position_tryPart] at place
    refine ⟨p, place, ?_⟩
    rw [List.append_assoc]
    exact getElem?_of_head rfl found
  · rintro m' height ⟨p, place, found⟩
    rw [position_finallyPart] at place
    refine ⟨is.length + 1 + p, by rw [place, Nat.add_assoc, Nat.add_assoc, Nat.add_assoc], ?_⟩
    rw [List.append_assoc]
    exact getElem?_behind length found [0]

theorem protect_peak : k'.toNat ≤ e.maxDepth.toNat ∨
    k'.toNat ∈ heights ++ 0 :: (heights' ++ [0]) ++ [0] := by
  refine second.peak.elim (fun low => ?_) fun there => .inr ?_
  · have same : k'.toNat = k.toNat := Nat.le_antisymm low second.before
    refine same ▸ first.peak.imp_right fun there => ?_
    simp only [List.mem_append, List.mem_cons] at there ⊢
    tauto
  · simp only [List.mem_append, List.mem_cons] at there ⊢
    tauto

include region

theorem protect_regions : ∀ q ∈ rs ++ rs' ++ [r],
    q.Within e.position (e.position + (is.length + is'.length + 2)) ∧ ∃ p,
      q.finallyStart = e.position + p ∧ (heights ++ 0 :: (heights' ++ [0]))[p]? = some 0 := by
  have length : heights.length = is.length := first.fits.length_eq
  intro q hq
  rw [List.mem_append, List.mem_append, List.mem_singleton] at hq
  rcases hq with (hq | hq) | rfl
  · obtain ⟨within, p, start, found⟩ := first.regions q hq
    rw [position_tryPart] at within start
    refine ⟨within.mono (Nat.le_refl _) (by omega), p, start, ?_⟩
    exact List.getElem?_append_left (List.getElem?_eq_some_iff.mp found).1 ▸ found
  · obtain ⟨within, p, start, found⟩ := second.regions q hq
    rw [position_finallyPart] at within start
    refine ⟨within.mono (by omega) (by omega), is.length + 1 + p, by omega, ?_⟩
    rw [← List.append_nil (heights' ++ [0])]
    exact getElem?_behind length
      (List.getElem?_append_left (List.getElem?_eq_some_iff.mp found).1 ▸ found) []
  · subst region
    refine ⟨?within, is.length + 1, rfl, ?height⟩
    case within => constructor <;> simp only <;> omega
    rw [← List.append_nil (heights' ++ [0])]
    refine getElem?_behind (q := 0) length ?_ []
    rw [← List.head?_eq_getElem?, List.head?_append]
    exact second.start

/-- The region of the two parts does not tell the places in one of them from each other, and neither do
the regions of the other part. -/
theorem stays_tryPart {p : Nat} {i : Instr} (found : is[p]? = some i) :
    e.Stays (⟨some r.finallyEnd, some 0⟩ :: (ms ++ ms')) (rs ++ rs' ++ [r]) e.position
      (e.position + (is.length + is'.length + 2)) (e.position + p) i := by
  have inTry := (List.getElem?_eq_some_iff.mp found).1
  have stays := first.stays p i found
  rw [position_tryPart] at stays
  have places (l : Label) (place : Nat)
      (placed : (e.grow [] [m] [] 0 e.maxDepth true).Places ms l place) :
      e.Places ([⟨some r.finallyEnd, some 0⟩] ++ ms ++ ms') l place :=
    (placed.of_grow rfl : e.Places ([⟨some r.finallyEnd, some 0⟩] ++ ms) l place).append ms'
  refine stays.mono (Nat.le_refl _) (by omega) ⟨by omega, by omega⟩ places fun q hq => ?_
  rw [List.mem_append, List.mem_append, List.mem_singleton] at hq
  rcases hq with (hq | hq) | rfl
  · exact .inl hq
  · have within := position_finallyPart ▸ (second.regions q hq).1
    exact .inr fun place low high => within.keeps_before (by omega) (by omega)
  · refine .inr fun place low high => ?_
    rw [Region.keeps_iff, region]
    simp only
    omega

theorem stays_finallyPart {p : Nat} {i : Instr} (found : is'[p]? = some i) :
    e.Stays (⟨some r.finallyEnd, some 0⟩ :: (ms ++ ms')) (rs ++ rs' ++ [r]) e.position
      (e.position + (is.length + is'.length + 2)) (e.position + (is.length + 1 + p)) i := by
  have inFinally := (List.getElem?_eq_some_iff.mp found).1
  have at_pc : e.position + is.length + 1 + p = e.position + (is.length + 1 + p) := by omega
  have stays := second.stays p i found
  rw [position_finallyPart, at_pc] at stays
  have places (l : Label) (place : Nat)
      (placed : (e.grow (is ++ [.leave (e.label 0)]) (m' :: ms) vs 0 k true).Places ms' l place) :
      e.Places (⟨some r.finallyEnd, some 0⟩ :: ms ++ ms') l place := placed.of_grow (by simp)
  refine stays.mono (by omega) (by omega) ⟨by omega, by omega⟩ places fun q hq => ?_
  rw [List.mem_append, List.mem_append, List.mem_singleton] at hq
  rcases hq with (hq | hq) | rfl
  · have within := position_tryPart ▸ (first.regions q hq).1
    exact .inr fun place low high => within.keeps_behind (by omega) (by omega)
  · exact .inl hq
  · refine .inr fun place low high => ?_
    rw [Region.keeps_iff, region]
    simp only
    omega

theorem protect_stays (p : Nat) (i : Instr)
    (found : (is ++ .leave (e.label 0) :: (is' ++ [.endfinally]))[p]? = some i) :
    e.Stays (⟨some r.finallyEnd, some 0⟩ :: (ms ++ ms')) (rs ++ rs' ++ [r]) e.position
      (e.position + (is.length + is'.length + 2)) (e.position + p) i := by
  rcases Nat.lt_or_ge p is.length with inTry | notInTry
  · rw [List.getElem?_append_left inTry] at found
    exact stays_tryPart region first second found
  rw [List.getElem?_append_right notInTry] at found
  rcases Nat.eq_or_lt_of_le notInTry with rfl | behindTry
  · rw [Nat.sub_self, List.getElem?_cons_zero] at found
    cases found
    exact ⟨fun falls => (nomatch falls), fun inner => (nomatch inner)⟩
  obtain ⟨q, rfl⟩ := Nat.exists_eq_add_of_lt behindTry
  rw [Nat.add_assoc, Nat.add_sub_cancel_left, List.getElem?_cons_succ] at found
  rcases Nat.lt_or_ge q is'.length with inFinally | atEnd
  · rw [List.getElem?_append_left inFinally] at found
    rw [Nat.add_right_comm is.length q 1]
    exact stays_finallyPart region first second found
  · rw [List.getElem?_append_right atEnd, List.getElem?_singleton] at found
    obtain ⟨-, ⟨⟩⟩ := Option.ite_none_right_eq_some.mp found
    exact ⟨fun falls => (nomatch falls), fun _ l hl => (nomatch hl)⟩

/-- Code is laid around two pieces, a try part and a finally part, so that they make up a region. -/
theorem protect : e.Laid params (is ++ .leave (e.label 0) :: (is' ++ [.endfinally]))
    (⟨some r.finallyEnd, some 0⟩ :: (ms ++ ms')) (vs ++ vs') (rs ++ rs' ++ [r]) 0 0 k'
    (heights ++ 0 :: (heights' ++ [0])) (0 :: (levels ++ levels')) := by
  have total : (is ++ Instr.leave (e.label 0) :: (is' ++ [.endfinally])).length =
      is.length + is'.length + 2 := by
    simp
    omega
  constructor
  case start =>
    rw [List.head?_append, List.head?_cons, Option.or_assoc, Option.some_or]
    exact first.start
  case fits => exact protect_fits first second
  case places =>
    have finish : r.finallyEnd = e.position + is.length + is'.length + 2 := by rw [region]
    rw [finish]
    exact protect_places first second
  case before => exact Nat.le_trans first.before second.before
  case last => exact Nat.zero_le _
  case peak => exact protect_peak first second
  case returns => simp [first.returns, second.returns]
  case regions =>
    rw [total]
    exact protect_regions region first second
  case stays =>
    rw [total]
    exact protect_stays region first second

end Protect

theorem placed (laid : e.Laid params is ms vs rs h h₁ k heights levels) :
    ∀ m ∈ ms, m.place.isSome := by
  have places : List.Forall₂ (fun m (_ : Nat) => m.place.isSome ∧ True) ms levels :=
    laid.places.imp fun m height ⟨p, place, _⟩ => ⟨by rw [place]; rfl, trivial⟩
  exact ((List.forall₂_and_left ms levels).mp places).1

/-- A body that ends with `ret` behind code that has been laid from its start. -/
theorem certified (laid : empty.Laid params is ms vs rs 0 h k heights levels)
    (few : ms.length < 2 ^ 32) (initLocals : Bool) {maxStack : UInt16} (low : k ≤ maxStack) :
    Body.Certified ⟨vs, is ++ [.ret], ms.map (·.place.getD 0), rs, initLocals, maxStack⟩ params h
      (heights ++ [h]) := by
  have length : heights.length = is.length := laid.fits.length_eq
  have start : empty.position = 0 := rfl
  refine ⟨?start, ?fits, ?ordered, ?finallyStart⟩
  case start =>
    rw [← List.head?_eq_getElem?, List.head?_append]
    exact laid.start
  case fits =>
    have high : k.toNat ≤ maxStack.toNat := low
    refine (laid.fits.mono ?_ fun l height level => ?_).append
      ⟨Instr.passes_ret.mpr (Nat.le_trans laid.last high), trivial⟩ fun _ there => there
    · exact ⟨Nat.le_refl _, by simp [empty], high⟩
    obtain ⟨p, places, found⟩ := level.places laid.places
    rw [start, Nat.zero_add] at places
    exact Option.bind_eq_some_iff.mpr ⟨p, places.getElem?_map few, found⟩
  case ordered =>
    rintro ⟨⟨i, height⟩, pc⟩ hx
    obtain ⟨found, at_pc⟩ := List.getElem?_zip_eq_some.mp (List.mem_zipIdx_iff_getElem?.mp hx)
    rcases Nat.lt_or_ge pc is.length with inside | behind
    · rw [List.getElem?_append_left inside] at found
      have stays := laid.stays pc i found
      have here : empty.position + pc = pc := Nat.zero_add pc
      rw [here] at stays
      refine ⟨stays.falls, fun inner l hl place target => ?_, ?_⟩
      · obtain ⟨place', places, -, -, keeps⟩ := stays.branches inner l hl
        cases (places.getElem?_map few).symm.trans target
        exact keeps
      · rintro rfl
        exact absurd (List.mem_of_getElem? found) laid.returns
    · rw [List.getElem?_append_right behind, List.getElem?_singleton] at found
      obtain ⟨at_end, ⟨⟩⟩ := Option.ite_none_right_eq_some.mp found
      refine ⟨fun falls => Bool.noConfusion falls, fun _ l hl => absurd hl List.not_mem_nil,
        fun _ => ⟨?_, ?_⟩⟩
      · rw [List.getElem?_append_right (by omega), length, at_end] at at_pc
        exact (Option.some.inj at_pc).symm
      · intro r hr
        have within := (laid.regions r hr).1
        exact within.outside (by omega)
  case finallyStart =>
    intro r hr
    obtain ⟨-, p, there, found⟩ := laid.regions r hr
    rw [there, start, Nat.zero_add]
    exact List.getElem?_append_left (List.getElem?_eq_some_iff.mp found).1 ▸ found

end Laid

/-- The emitter with more regions. -/
def guard (e : Emitter) (rs : List Region) : Emitter := { e with regions := e.regions ++ rs.toArray }

@[simp]
theorem guard_nil : e.guard [] = e := by
  cases e
  simp [guard]

theorem guard_grow_guard_grow {h' : Nat} :
    (((e.guard rs).grow is ms vs h k true).guard rs').grow is' ms' vs' h' k' true =
      (e.guard (rs ++ rs')).grow (is ++ is') (ms ++ ms') (vs ++ vs') h' k' true := by
  simp [guard, grow]

/-- Regions, faults and the present height have no say in how code is laid. -/
theorem Laid.of_eq {e' : Emitter} (laid : e.Laid params is ms vs rs h h₁ k heights levels)
    (instrs : e'.instrs = e.instrs) (labels : e'.labels = e.labels) (locals : e'.locals = e.locals)
    (maxDepth : e'.maxDepth = e.maxDepth) :
    e'.Laid params is ms vs rs h h₁ k heights levels := by
  cases e
  cases e'
  cases instrs
  cases labels
  cases locals
  cases maxDepth
  exact ⟨laid.start, laid.fits, laid.places, laid.before, laid.last, laid.peak, laid.returns,
    laid.regions, fun p i found => ⟨(laid.stays p i found).falls, (laid.stays p i found).branches⟩⟩

/-- The second emitter has gone on from the first by a piece of code with at most so many labels. -/
def Lays (e : Emitter) (params h h' labels : Nat) (e' : Emitter) : Prop :=
  ∃ is ms vs rs k heights levels, e' = (e.guard rs).grow is ms vs h' k true ∧ ms.length ≤ labels ∧
    e.Laid params is ms vs rs h h' k heights levels

namespace Lays

theorem of_laid (laid : e.Laid params is ms vs [] h h₁ k heights levels) (count : ms.length ≤ l₁) :
    e.Lays params h h₁ l₁ (e.grow is ms vs h₁ k true) :=
  ⟨is, ms, vs, [], k, heights, levels, by rw [guard_nil], count, laid⟩

/-- The heights of code without regions, and those of its labels. -/
theorem of_fits {top : Nat} (heights levels : List Nat) (counts : e.Counts top k) (le : h₁ ≤ top)
    (reached : top ∈ heights ++ [h₁])
    (start : heights.head?.or (some h₁) = some h)
    (fits : Fits ⟨params, e.locals.size + vs.length, k.toNat⟩ (e.Level levels) is heights (some h₁))
    (places : List.Forall₂ (fun m height => ∃ p, m.place = some (e.position + p) ∧
      (heights ++ [h₁])[p]? = some height) ms levels)
    (returns : .ret ∉ is) (count : ms.length ≤ l₁) :
    e.Lays params h h₁ l₁ (e.grow is ms vs h₁ k true) :=
  of_laid (.of_fits start fits places counts.before (Nat.le_trans le counts.height)
    (counts.attained reached) returns) count

theorem refl (he : e.Rests h) : e.Lays params h h 0 e := by
  have laid : e.Laid params [] [] [] [] h h e.maxDepth [] [] :=
    .of_fits rfl .nil .nil (Nat.le_refl _) he.low (.inl (Nat.le_refl _)) (by simp)
  have lays := of_laid laid (Nat.le_refl 0)
  rwa [he.eq_grow] at lays

theorem trans (first : e.Lays params h h₁ l₁ e₁) (second : e₁.Lays params h₁ h₂ l₂ e₂) :
    e.Lays params h h₂ (l₁ + l₂) e₂ := by
  obtain ⟨is₁, ms₁, vs₁, rs₁, k₁, heights₁, levels₁, rfl, count₁, laid₁⟩ := first
  obtain ⟨is₂, ms₂, vs₂, rs₂, k₂, heights₂, levels₂, rfl, count₂, laid₂⟩ := second
  refine ⟨_, _, _, _, k₂, _, _, guard_grow_guard_grow, ?_,
    laid₁.append (laid₂.of_eq rfl rfl rfl rfl)⟩
  rw [List.length_append]
  omega

theorem mono (lays : e.Lays params h h₁ l₁ e₁) (le : l₁ ≤ l₂) : e.Lays params h h₁ l₂ e₁ := by
  obtain ⟨is, ms, vs, rs, k, heights, levels, eq, count, laid⟩ := lays
  exact ⟨is, ms, vs, rs, k, heights, levels, eq, Nat.le_trans count le, laid⟩

theorem rests (lays : e.Lays params h h₁ l₁ e₁) : e₁.Rests h₁ := by
  obtain ⟨is, ms, vs, rs, k, heights, levels, rfl, -, laid⟩ := lays
  exact ⟨at_grow, laid.last⟩

theorem labels_le (lays : e.Lays params h h₁ l₁ e₁) : e₁.labels.size ≤ e.labels.size + l₁ := by
  obtain ⟨is, ms, vs, rs, k, heights, levels, rfl, count, -⟩ := lays
  rw [size_labels_grow]
  exact Nat.add_le_add_left count e.labels.size

theorem locals_le (lays : e.Lays params h h₁ l₁ e₁) : e.locals.size ≤ e₁.locals.size := by
  obtain ⟨is, ms, vs, rs, k, heights, levels, rfl, -, -⟩ := lays
  rw [size_locals_grow]
  exact Nat.le_add_right e.locals.size vs.length

theorem position_le (lays : e.Lays params h h₁ l₁ e₁) : e.position ≤ e₁.position := by
  obtain ⟨is, ms, vs, rs, k, heights, levels, rfl, -, -⟩ := lays
  rw [position_grow]
  exact Nat.le_add_right e.position is.length

/-- A try part has been laid, and its finally part is open. -/
theorem openFinally_eq (he : e.At 0) (hl : e.labels.size < 2 ^ 32) :
    ((e.openTry.2.guard rs).grow is ms vs 0 k true).openFinally =
      { e.guard rs with openRegions :=
          ⟨e.position, some (e.position + is.length + 1), e.label 0⟩ :: e.openRegions }.grow
        (is ++ [Instr.leave (e.label 0)]) (⟨none, some 0⟩ :: ms) vs 0 k true := by
  let opened : Emitter :=
    { e.guard rs with openRegions := ⟨e.position, none, e.label 0⟩ :: e.openRegions }
  have inside : (e.openTry.2.guard rs).grow is ms vs 0 k true =
      opened.grow is (Mark.new :: ms) vs 0 k true := by
    rw [openTry_eq he]
    simp [guard, grow, opened]
  rw [inside]
  exact openFinally_grow (e := opened) rfl hl

theorem openTry (he : e.Rests 0) : e.openTry.2.Rests 0 ∧
    e.openTry.2.labels.size = e.labels.size + 1 ∧ e.openTry.2.locals.size = e.locals.size := by
  rw [openTry_eq he.toAt]
  exact ⟨⟨at_grow, he.low⟩, size_labels_grow, size_locals_grow⟩

/-- The finally part starts with the locals that the try part leaves behind. -/
theorem openFinally (he : e.At 0) (hl : e.labels.size < 2 ^ 32)
    (lays : e.openTry.2.Lays params 0 0 l₁ e₁) : e₁.openFinally.Rests 0 ∧
      e₁.openFinally.labels.size ≤ e.labels.size + l₁ + 1 ∧
      e₁.openFinally.locals.size = e₁.locals.size := by
  obtain ⟨is, ms, vs, rs, k, heights, levels, rfl, count, laid⟩ := lays
  rw [openFinally_eq he hl]
  refine ⟨⟨at_grow, Nat.zero_le _⟩, ?_, ?_⟩
  · rw [size_labels_grow, List.length_cons]
    change e.labels.size + _ ≤ _
    omega
  · rw [size_locals_grow, size_locals_grow, openTry_eq he]
    simp [guard, grow]

/-- A finally part has been laid too, and the region is closed. -/
theorem closeTry_eq (he : e.At 0) (hl : e.labels.size < 2 ^ 32) :
    (((((e.openTry.2.guard rs).grow is ms vs 0 k true).openFinally.guard rs').grow is' ms' vs' 0 k'
      true).closeTry) = (e.guard (rs ++ rs' ++ [⟨e.position, e.position + is.length + 1,
          e.position + is.length + 1, e.position + is.length + is'.length + 2⟩])).grow
        (is ++ .leave (e.label 0) :: (is' ++ [.endfinally]))
        (⟨some (e.position + is.length + is'.length + 2), some 0⟩ :: (ms ++ ms')) (vs ++ vs') 0 k'
        true := by
  let opened : Emitter := { e.guard (rs ++ rs') with openRegions :=
    ⟨e.position, some (e.position + is.length + 1), e.label 0⟩ :: e.openRegions }
  have inside : ((((e.openTry.2.guard rs).grow is ms vs 0 k true).openFinally.guard rs').grow is' ms'
      vs' 0 k' true) = opened.grow (is ++ [.leave (e.label 0)] ++ is')
        (⟨none, some 0⟩ :: (ms ++ ms')) (vs ++ vs') 0 k' true := by
    rw [openFinally_eq he hl]
    simp [guard, grow, opened]
  have finish : opened.position + (is ++ [Instr.leave (e.label 0)] ++ is').length + 1 =
      e.position + is.length + is'.length + 2 := by
    change e.position + _ + 1 = _
    simp only [List.length_append, List.length_singleton]
    omega
  rw [inside, closeTry_grow (e := opened) rfl rfl hl, finish]
  simp [guard, grow, opened]

/-- Two pieces make up a region. -/
theorem protect (he : e.At 0) (hl : e.labels.size < 2 ^ 32)
    (first : e.openTry.2.Lays params 0 0 l₁ e₁) (second : e₁.openFinally.Lays params 0 0 l₂ e₂) :
    e.Lays params 0 0 (l₁ + l₂ + 1) e₂.closeTry ∧ e₂.closeTry.locals.size = e₂.locals.size := by
  obtain ⟨is₁, ms₁, vs₁, rs₁, k₁, heights₁, levels₁, rfl, count₁, laid₁⟩ := first
  obtain ⟨is₂, ms₂, vs₂, rs₂, k₂, heights₂, levels₂, rfl, count₂, laid₂⟩ := second
  rw [closeTry_eq he hl]
  rw [openFinally_eq he hl] at laid₂ ⊢
  have tryPart : (e.grow [] [Mark.new] [] 0 e.maxDepth true).Laid params is₁ ms₁ vs₁ rs₁ 0 0 k₁
      heights₁ levels₁ := by
    rw [openTry_eq he] at laid₁
    exact laid₁.of_eq rfl rfl rfl rfl
  have laid := Laid.protect rfl tryPart (laid₂.of_eq rfl rfl rfl rfl)
  refine ⟨⟨_, _, _, _, k₂, _, _, rfl, ?_, laid⟩, ?_⟩
  · simp only [List.length_cons, List.length_append]
    omega
  · simp [grow, guard]

theorem le_max (k k' : UInt16) : k ≤ max k k' := by
  change k ≤ if k ≤ k' then k' else k
  split
  case isTrue low => exact low
  case isFalse => exact UInt16.le_refl k

/-- Code that has been laid from the start is finished by `ret`. The greatest height of the body is
that of a place, or one. -/
theorem certified (lays : empty.Lays params 0 h l₁ e) (low : h < 2 ^ 16) (few : l₁ < 2 ^ 32) :
    ∃ body heights, (e.push .ret).finish = .ok body ∧ body.Certified params h heights ∧
      (1 :: heights).max? = some body.maxStack.toNat := by
  obtain ⟨is, ms, vs, rs, k, heights, levels, rfl, count, laid⟩ := lays
  have start : (empty.guard rs).Complete := ⟨rfl, rfl, by simp [empty, guard]⟩
  let top := max k (UInt16.ofNat h)
  have finished : (((empty.guard rs).grow is ms vs h k true).push .ret).finish =
      .ok ⟨vs, is ++ [.ret], ms.map (·.place.getD 0), rs, true, max top 1⟩ := by
    rw [push_ret_grow low, (start.grow laid.placed).finish_eq]
    simp [grow, guard, empty, Mark.state, top]
  refine ⟨_, _, finished, laid.certified (by omega) true ?_, ?_⟩
  · exact UInt16.le_trans (le_max k _) (le_max top 1)
  · have same : top.toNat = k.toNat := by
      rw [UInt16.toNat_max, UInt16.toNat_ofNat', Nat.mod_eq_of_lt low, Nat.max_eq_left laid.last]
    have one : (1 : UInt16).toNat = 1 := rfl
    rw [UInt16.toNat_max, same, one, List.max?_eq_some_iff]
    constructor
    · rcases laid.peak with zero | there
      · have zero : k.toNat = 0 := Nat.le_zero.mp zero
        simp [zero]
      · rcases Nat.le_total k.toNat 1 with low | high
        · simp [Nat.max_eq_right low]
        · rw [Nat.max_eq_left high]
          exact List.mem_cons_of_mem _ there
    · refine List.forall_mem_cons.mpr ⟨Nat.le_max_right _ _, fun height there => ?_⟩
      refine Nat.le_trans ?_ (Nat.le_max_left _ _)
      rcases List.mem_append.mp there with there | there
      · exact laid.fits.le_height height there
      · rw [List.mem_singleton.mp there]
        exact laid.last

end Lays

theorem rests_empty : empty.Rests 0 := ⟨⟨rfl, rfl⟩, Nat.zero_le _⟩

end Emitter

/-- A loop over parts that each raise the stack by the same number of items. -/
theorem Emit.forM_lays {α : Type} {xs : List α} {f : α → Emit Unit} {e : Emitter} {params h : Nat}
    (up labels : Nat) (he : e.Rests h) (hh : h + up * xs.length + 2 < 2 ^ 16)
    (hl : e.labels.size + labels * xs.length + 2 < 2 ^ 32)
    (step : ∀ x ∈ xs, ∀ e' h, e.locals.size ≤ e'.locals.size → e'.Rests h → h + 2 < 2 ^ 16 →
      e'.labels.size + 2 < 2 ^ 32 →
      ∃ e'', f x e' = ((), e'') ∧ e'.Lays params h (h + up) labels e'') :
    ∃ e', xs.forM f e = ((), e') ∧
      e.Lays params h (h + up * xs.length) (labels * xs.length) e' := by
  induction xs generalizing e h with
  | nil => exact ⟨e, rfl, .refl he⟩
  | cons x xs ih =>
    rw [List.length_cons, Nat.mul_succ] at hh hl
    obtain ⟨e₁, eq₁, lays₁⟩ := step x (by simp) e h (Nat.le_refl _) he (by omega) (by omega)
    have labels₁ := lays₁.labels_le
    obtain ⟨e₂, eq₂, lays₂⟩ := ih lays₁.rests (by omega) (by omega) fun y hy e' h more =>
      step y (List.mem_cons_of_mem x hy) e' h (Nat.le_trans lays₁.locals_le more)
    refine ⟨e₂, ?_, ?_⟩
    · change (f x >>= fun _ => xs.forM f) e = ((), e₂)
      rw [bind_apply, eq₁]
      exact eq₂
    · have lays := lays₁.trans lays₂
      rw [List.length_cons, Nat.mul_succ, Nat.mul_succ, Nat.add_comm (up * xs.length),
        ← Nat.add_assoc, Nat.add_comm (labels * xs.length)]
      exact lays

end LateBind
