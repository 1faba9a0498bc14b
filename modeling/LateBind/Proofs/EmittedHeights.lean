import LateBind.Proofs.Regions

/-! # Heights that the emitter follows

The emitter follows one height along the code that it emits. That is the height on every way through
the body when each label is reached with one height only, and goes on with it where it is placed. The
emitter does not see to that itself: it takes up the height of the first branch to a label, and only
where nothing falls in. -/

namespace LateBind

/-- The stack effect that the emitter counts with. -/
def Instr.countedEffect : StackEffect := fun i => (i.stackEffect.1.toNat, i.stackEffect.2.toNat)

namespace Emitter

open Instr (countedEffect)

/-! ## Labels with one height -/

/-- What a call of the emitter must keep to for the labels to have the given heights: branches that
control comes to leave that height, the code at a label starts with it, and no height overflows. -/
def Call.Agrees (level : Label → Nat) (e : Emitter) : Call → Prop
  | .instr i => e.reachable → countedEffect.after i e.depth.toNat < 2 ^ 16 ∧
      ∀ l ∈ i.targets, countedEffect.arrival i e.depth.toNat = level l
  | .markLabel l => (e.placeLabel l).depth.toNat = level l
  | .beginFinally => e.reachable → ∀ o ∈ e.openRegions.head?, level o.exit = 0
  | .endTry => ∀ o ∈ e.openRegions.head?, e.closeTry.depth.toNat = level o.exit
  | .defineLabel | .declareLocal _ _ | .beginTry => True

/-- All calls of a sequence keep to the heights of the labels. -/
def Agree (level : Label → Nat) (e : Emitter) : List Call → Prop
  | [] => True
  | call :: calls => call.Agrees level e ∧ (call.apply e).Agree level calls

/-! ## What is known while code is emitted -/

/-- The height before the next instruction, if control comes there. -/
def now (e : Emitter) : Option Nat := if e.reachable then some e.depth.toNat else none

/-- No height that was recorded of a branch is above a limit. -/
def Recorded (e : Emitter) (limit : UInt16) : Prop :=
  ∀ state ∈ e.labels, ∀ depth ∈ state.depth, depth ≤ limit

/-- The heights before the instructions so far, none where control does not come, and those of the
labels, are what the stack has there. -/
structure Follows (level : Label → Nat) (e : Emitter) (heights : List (Option Nat)) : Prop where
  size : heights.length = e.position
  start : (heights ++ [e.now])[0]? = some (some 0)
  enough : ∀ pc i height, e.code pc = some i → heights[pc]? = some (some height) →
    (countedEffect i).1 ≤ height
  next : ∀ pc i height, e.code pc = some i → heights[pc]? = some (some height) → i.falls →
    (heights ++ [e.now])[pc + 1]? = some (some (countedEffect.after i height))
  branch : ∀ pc i height, e.code pc = some i → heights[pc]? = some (some height) →
    ∀ l ∈ i.targets, countedEffect.arrival i height = level l
  placed : ∀ (l : Label) (place : Nat), e.places[l.id.toNat]? = some (some place) →
    (heights ++ [e.now])[place]? = some (some (level l))
  closed : ∀ r ∈ e.regions, (heights ++ [e.now])[r.finallyStart]? = some (some 0)
  opened : ∀ o ∈ e.openRegions, ∀ start, o.finallyStart = some start →
    (heights ++ [e.now])[start]? = some (some 0)
  bounded : ∀ height, some height ∈ heights ++ [e.now] → height ≤ e.maxDepth.toNat
  recorded : e.Recorded e.maxDepth

variable {level : Label → Nat} {e e' : Emitter} {heights : List (Option Nat)}

theorem follows_empty : empty.Follows level [] where
  size := rfl
  start := rfl
  enough := by simp
  next := by simp
  branch := by simp
  placed := by simp [places, empty]
  closed := by simp [empty]
  opened := by simp [empty]
  bounded := by simp [now, empty]
  recorded := by simp [Recorded, empty]

/-! ### Instructions -/

/-- The height of the stack behind an instruction, as the emitter counts. -/
def depthAfter (e : Emitter) (i : Instr) : UInt16 := e.depth - i.stackEffect.1 + i.stackEffect.2

theorem applyEffect_of_clean {i : Instr} (clean : (e.applyEffect i).errors = #[]) :
    i.stackEffect.1 ≤ e.depth ∧ e.applyEffect i =
      { e with depth := e.depthAfter i, maxDepth := max e.maxDepth (e.depthAfter i) } := by
  unfold applyEffect at clean ⊢
  dsimp only at clean ⊢
  split
  · next low =>
    rw [if_pos low] at clean
    simp [fault] at clean
  · next enough => exact ⟨UInt16.not_lt.mp enough, rfl⟩

theorem Recorded.recordBranch {limit : UInt16} (recorded : e.Recorded limit)
    (low : e.depth ≤ limit) (l : Label) : (e.recordBranch l).Recorded limit := by
  unfold Emitter.recordBranch
  split
  · intro state hs depth hd
    rcases Array.mem_or_eq_of_mem_setIfInBounds hs with old | rfl
    · exact recorded state old depth hd
    · exact Option.some.inj hd ▸ low
  · exact recorded

theorem Recorded.recordBranches {limit : UInt16} (recorded : e.Recorded limit)
    (low : e.depth ≤ limit) (ls : List Label) : (ls.foldl Emitter.recordBranch e).Recorded limit := by
  induction ls generalizing e with
  | nil => exact recorded
  | cons l ls ih =>
    obtain ⟨labels, eq, -⟩ := recordBranch_eq e l
    exact ih (recorded.recordBranch low l) (by rw [eq]; exact low)

/-- An instruction that makes no fault finds what it pops. -/
theorem push_of_clean {i : Instr} (clean : (e.push i).errors = #[]) (recorded : e.Recorded e.maxDepth) :
    i.stackEffect.1 ≤ e.depth ∧ (e.push i).maxDepth = max e.maxDepth (e.depthAfter i) ∧
      (i.falls → (e.push i).depth = e.depthAfter i) ∧
      (e.push i).Recorded (max e.maxDepth (e.depthAfter i)) := by
  obtain ⟨labels, records, -⟩ := foldl_recordBranch_eq i.targets (e.applyEffect i)
  obtain ⟨depth, flow⟩ := applyFlow_eq (i.targets.foldl recordBranch (e.applyEffect i)) i
  have errors : (e.push i).errors = (e.applyEffect i).errors := by
    unfold push
    dsimp only
    rw [flow, records]
  obtain ⟨enough, effect⟩ := applyEffect_of_clean (errors ▸ clean)
  have recorded' : (i.targets.foldl recordBranch (e.applyEffect i)).Recorded
      (max e.maxDepth (e.depthAfter i)) := by
    rw [effect]
    refine Recorded.recordBranches (fun state hs depth hd => ?_) ?_ _
    · have := UInt16.le_iff_toNat_le.mp (recorded state hs depth hd)
      rw [UInt16.le_iff_toNat_le, UInt16.toNat_max]
      omega
    · rw [UInt16.le_iff_toNat_le, UInt16.toNat_max]
      exact Nat.le_max_right _ _
  refine ⟨enough, ?_, ?_, ?_⟩
  · unfold push
    dsimp only
    rw [flow, records, effect]
  · intro falls
    have stays (e : Emitter) : e.applyFlow i = e := by cases i <;> first | rfl | cases falls
    unfold push
    dsimp only
    rw [stays, records, effect]
  · unfold push
    dsimp only
    rw [flow]
    exact recorded'

theorem now_eq_some_iff {height : Nat} :
    e.now = some height ↔ e.reachable ∧ e.depth.toNat = height := by
  unfold now
  cases e.reachable <;> simp

theorem now_of_unreachable (unreachable : e.reachable = false) : e.now = none := by
  rw [now, unreachable]
  rfl

theorem Follows.push (follows : e.Follows level heights) {i : Instr}
    (clean : (e.push i).errors = #[]) (agrees : Call.Agrees level e (.instr i)) :
    (e.push i).Follows level (heights ++ [e.now]) := by
  have puts := puts_push e i
  obtain ⟨enough, maxDepth, depth, recorded⟩ := push_of_clean clean follows.recorded
  have size : (heights ++ [e.now]).length = (e.push i).position := by
    rw [puts.position, ← follows.size, List.length_append, List.length_singleton]
  -- What is known of earlier places stays known.
  have before {place : Nat} {x : Option Nat} (known : (heights ++ [e.now])[place]? = some x) :
      (heights ++ [e.now] ++ [(e.push i).now])[place]? = some x := by
    rw [List.getElem?_append_left (List.getElem?_eq_some_iff.mp known).1, known]
  have here {pc : Nat} {j : Instr} {height : Nat} (code : (e.push i).code pc = some j)
      (known : (heights ++ [e.now])[pc]? = some (some height)) :
      (e.code pc = some j ∧ heights[pc]? = some (some height)) ∨
        (pc = e.position ∧ j = i ∧ e.reachable ∧ height = e.depth.toNat) := by
    by_cases low : pc < e.position
    · refine .inl ⟨(puts.code_of_lt low).symm.trans code, ?_⟩
      rwa [List.getElem?_append_left (by rw [follows.size]; exact low)] at known
    · have bound := (List.getElem?_eq_some_iff.mp known).1
      rw [size, puts.position] at bound
      obtain rfl : pc = e.position := by omega
      rw [puts.code_position] at code
      rw [← follows.size, List.getElem?_concat_length] at known
      obtain ⟨reachable, rfl⟩ := now_eq_some_iff.mp (Option.some.inj known)
      exact .inr ⟨rfl, (Option.some.inj code).symm, reachable, rfl⟩
  have counted (reachable : e.reachable) :
      (e.depthAfter i).toNat = countedEffect.after i e.depth.toNat := by
    have fits := (agrees reachable).1
    simp only [StackEffect.after, countedEffect] at fits ⊢
    rw [depthAfter, UInt16.toNat_add, UInt16.toNat_sub_of_le _ _ enough, Nat.mod_eq_of_lt fits]
  constructor
  case size => exact size
  case start => exact before follows.start
  case enough =>
    intro pc j height code known
    rcases here code known with ⟨code, known⟩ | ⟨rfl, rfl, -, rfl⟩
    · exact follows.enough pc j height code known
    · exact UInt16.le_iff_toNat_le.mp enough
  case next =>
    intro pc j height code known falls
    rcases here code known with ⟨code, known⟩ | ⟨rfl, rfl, reachable, rfl⟩
    · exact before (follows.next pc j height code known falls)
    · rw [← puts.position, ← size, List.getElem?_concat_length, Option.some.injEq, now_eq_some_iff,
        puts.reachable, depth falls, counted reachable]
      exact ⟨by rw [reachable, falls]; rfl, rfl⟩
  case branch =>
    intro pc j height code known l hl
    rcases here code known with ⟨code, known⟩ | ⟨rfl, rfl, reachable, rfl⟩
    · exact follows.branch pc j height code known l hl
    · exact (agrees reachable).2 l hl
  case placed =>
    rw [puts.places]
    exact fun l place h => before (follows.placed l place h)
  case closed =>
    rw [puts.regions]
    exact fun r hr => before (follows.closed r hr)
  case opened =>
    rw [puts.openRegions]
    exact fun o ho start h => before (follows.opened o ho start h)
  case bounded =>
    intro height mem
    rw [maxDepth, UInt16.toNat_max]
    rcases List.mem_append.mp mem with old | new
    · exact Nat.le_trans (follows.bounded height old) (Nat.le_max_left _ _)
    · obtain ⟨reachable, rfl⟩ := now_eq_some_iff.mp (List.mem_singleton.mp new).symm
      rw [puts.reachable, Bool.and_eq_true] at reachable
      rw [depth reachable.2]
      exact Nat.le_max_right _ _
  case recorded => exact maxDepth ▸ recorded

/-! ### Labels and regions -/

/-- Labels and regions add what control brings to the next place, if nothing falls into it. -/
theorem Follows.enter (follows : e.Follows level heights) (instrs : e'.instrs = e.instrs)
    (now : e.now = none ∨ e'.now = e.now)
    (placed : ∀ (l : Label) (place : Nat), e'.places[l.id.toNat]? = some (some place) →
      e.places[l.id.toNat]? = some (some place) ∨ place = e.position ∧ e'.now = some (level l))
    (closed : ∀ r ∈ e'.regions, r ∈ e.regions ∨
      ∃ o ∈ e.openRegions, o.finallyStart = some r.finallyStart)
    (opened : ∀ o ∈ e'.openRegions, ∀ start, o.finallyStart = some start →
      (∃ o ∈ e.openRegions, o.finallyStart = some start) ∨ start = e.position ∧ e'.now = some 0)
    (bounded : ∀ height, e'.now = some height → height ≤ e'.maxDepth.toNat)
    (maxDepth : e'.maxDepth = e.maxDepth) (recorded : e'.Recorded e.maxDepth) :
    e'.Follows level heights := by
  have code : e'.code = e.code := by
    funext p
    rw [Emitter.code, instrs, Emitter.code]
  have before {place height : Nat} (known : (heights ++ [e.now])[place]? = some (some height)) :
      (heights ++ [e'.now])[place]? = some (some height) := by
    rcases now with none | same
    · rw [none, List.getElem?_append, List.getElem?_singleton] at known
      split at known
      · next low => rwa [List.getElem?_append_left low]
      · split at known <;> cases known
    · rwa [same]
  have here {height : Nat} (known : e'.now = some height) :
      (heights ++ [e'.now])[e.position]? = some (some height) := by
    rw [← follows.size, List.getElem?_concat_length, known]
  constructor
  case size => exact follows.size.trans (congrArg Array.size instrs).symm
  case start => exact before follows.start
  case enough => exact code ▸ follows.enough
  case next =>
    rw [code]
    exact fun pc i height found known falls => before (follows.next pc i height found known falls)
  case branch => exact code ▸ follows.branch
  case placed =>
    intro l place h
    rcases placed l place h with old | ⟨rfl, new⟩
    · exact before (follows.placed l place old)
    · exact here new
  case closed =>
    intro r hr
    rcases closed r hr with old | ⟨o, ho, start⟩
    · exact before (follows.closed r old)
    · exact before (follows.opened o ho _ start)
  case opened =>
    intro o ho start h
    rcases opened o ho start h with ⟨o', ho', old⟩ | ⟨rfl, new⟩
    · exact before (follows.opened o' ho' start old)
    · exact here new
  case bounded =>
    intro height mem
    rcases List.mem_append.mp mem with old | new
    · exact maxDepth ▸ follows.bounded height (List.mem_append_left _ old)
    · exact bounded height (List.mem_singleton.mp new).symm
  case recorded => exact maxDepth ▸ recorded

theorem Follows.now_le (follows : e.Follows level heights) (height : Nat) (now : e.now = some height) :
    height ≤ e.maxDepth.toNat :=
  follows.bounded height (List.mem_append_right _ (by rw [now]; exact List.mem_singleton_self _))

theorem Follows.newLabel (follows : e.Follows level heights) : e.newLabel.2.Follows level heights := by
  refine follows.enter rfl (.inr rfl) (fun l place h => .inl ?_) (fun r hr => .inl hr)
    (fun o ho start h => .inl ⟨o, ho, h⟩) follows.now_le rfl ?_
  · rw [places, Emitter.newLabel, Array.toList_push, List.map_append, List.map_singleton,
      List.getElem?_append, List.getElem?_singleton] at h
    split at h
    · exact h
    · split at h <;> cases h
  · intro state hs depth hd
    rcases Array.mem_push.mp hs with old | rfl
    · exact follows.recorded state old depth hd
    · cases hd

theorem Follows.newLocal (follows : e.Follows level heights) (t : TypeRef) (pinned : Bool) :
    (e.newLocal t pinned).2.Follows level heights :=
  follows.enter rfl (.inr rfl) (fun _ _ h => .inl h) (fun _ hr => .inl hr)
    (fun o ho _ h => .inl ⟨o, ho, h⟩) follows.now_le rfl follows.recorded

/-- A label goes to the next place; code that nothing falls into starts with what was recorded. -/
theorem placeLabel_of_clean {l : Label} (clean : (e.placeLabel l).errors = #[]) :
    e.placeLabel l = e ∨ ∃ state ∈ e.labels, e.placeLabel l = { e with
      labels := e.labels.setIfInBounds l.id.toNat { state with position := some e.position }
      depth := if e.reachable then e.depth else state.depth.getD 0
      reachable := true } := by
  unfold placeLabel at clean ⊢
  split
  · exact .inl rfl
  · next state found =>
    rw [found] at clean
    dsimp only at clean
    split
    · next marked =>
      rw [if_pos marked] at clean
      simp [fault] at clean
    · refine .inr ⟨state, Array.mem_of_getElem? found, ?_⟩
      cases e.reachable <;> simp

theorem Follows.placeLabel (follows : e.Follows level heights) {l : Label}
    (clean : (e.placeLabel l).errors = #[]) (agrees : (e.placeLabel l).depth.toNat = level l) :
    (e.placeLabel l).Follows level heights := by
  rcases placeLabel_of_clean clean with eq | ⟨state, hs, eq⟩
  · rwa [eq]
  · have now : (e.placeLabel l).now = some (level l) := now_eq_some_iff.mpr ⟨by rw [eq], agrees⟩
    have places : (e.placeLabel l).places = e.places.set l.id.toNat (some e.position) := by
      rw [eq, Emitter.places, Array.toList_setIfInBounds, List.map_set]
      rfl
    refine follows.enter (by rw [eq]) ?_ (fun l' place h => ?_) (fun r hr => .inl ?_)
      (fun o ho start h => .inl ⟨o, ?_, h⟩) ?_ (by rw [eq]) ?_
    · cases reachable : e.reachable with
      | true => exact .inr (by simp [eq, Emitter.now, reachable])
      | false => exact .inl (now_of_unreachable reachable)
    · rw [places, List.getElem?_set] at h
      split at h
      · next same =>
        obtain rfl : l = l' := by
          cases l
          cases l'
          exact congrArg Label.mk (UInt32.toNat_inj.mp same)
        split at h <;> cases h
        exact .inr ⟨rfl, now⟩
      · exact .inl h
    · rwa [eq] at hr
    · rwa [eq] at ho
    · intro height h
      have maxDepth : (e.placeLabel l).maxDepth = e.maxDepth := by rw [eq]
      obtain ⟨-, rfl⟩ := now_eq_some_iff.mp h
      rw [maxDepth, eq]
      dsimp only
      cases reachable : e.reachable with
      | true => exact follows.now_le _ (now_eq_some_iff.mpr ⟨reachable, rfl⟩)
      | false =>
        cases recorded : state.depth with
        | none => exact Nat.zero_le _
        | some depth => exact UInt16.le_iff_toNat_le.mp (follows.recorded state hs depth recorded)
    · rw [eq]
      intro state' hs' depth hd
      rcases Array.mem_or_eq_of_mem_setIfInBounds hs' with old | rfl
      · exact follows.recorded state' old depth hd
      · exact follows.recorded state hs depth hd

theorem Follows.openTry (follows : e.Follows level heights) (clean : e.openTry.2.errors = #[]) :
    e.openTry.2.Follows level heights := by
  rw [openTry_of_clean clean]
  refine follows.newLabel.enter rfl (.inr rfl) (fun _ _ h => .inl h) (fun r hr => .inl hr)
    (fun o ho start h => ?_) follows.newLabel.now_le rfl follows.newLabel.recorded
  rcases List.mem_cons.mp ho with rfl | old
  · cases h
  · exact .inl ⟨o, old, h⟩

/-- Closing a part first, by an instruction that control does not pass. -/
theorem Follows.endPart (follows : e.Follows level heights) {i : Instr} (ends : i.falls = false)
    (clean : (if e.reachable then e.push i else e).errors = #[])
    (agrees : Call.Agrees level e (.instr i)) :
    ∃ heights, (if e.reachable then e.push i else e).Follows level heights ∧
      (if e.reachable then e.push i else e).reachable = false ∧
      (if e.reachable then e.push i else e).openRegions = e.openRegions := by
  cases reachable : e.reachable with
  | true =>
    rw [reachable] at clean
    have puts := puts_push e i
    exact ⟨_, follows.push clean agrees, by simp [puts.reachable, ends], puts.openRegions⟩
  | false => exact ⟨heights, follows, by simpa using reachable, rfl⟩

theorem Follows.openFinally (follows : e.Follows level heights) (clean : e.openFinally.errors = #[])
    (agrees : Call.Agrees level e .beginFinally) :
    ∃ heights, e.openFinally.Follows level heights := by
  unfold Emitter.openFinally at clean ⊢
  split
  · next closed =>
    rw [closed] at clean
    simp [fault] at clean
  · next o outer opened =>
    rw [opened] at clean
    dsimp only at clean ⊢
    split
    · next again =>
      rw [if_pos again] at clean
      simp [fault] at clean
    · next once =>
      rw [if_neg once] at clean
      have leaves : Call.Agrees level e (.instr (.leave o.exit)) := by
        intro reachable
        refine ⟨by simpa [StackEffect.after, countedEffect, Instr.stackEffect] using e.depth.toNat_lt, ?_⟩
        rintro l hl
        rw [List.mem_singleton.mp hl]
        exact (agrees reachable o (by rw [opened]; rfl)).symm
      obtain ⟨heights', follows', unreachable, regions⟩ := follows.endPart rfl clean leaves
      refine ⟨heights', follows'.enter rfl (.inl (now_of_unreachable unreachable))
        (fun _ _ h => .inl h) (fun _ hr => .inl hr) (fun o' ho' start h => ?_) (fun height h => ?_) rfl
        follows'.recorded⟩
      · rcases List.mem_cons.mp ho' with rfl | old
        · exact .inr ⟨(Option.some.inj h).symm, rfl⟩
        · exact .inl ⟨o', by rw [regions, opened]; exact List.mem_cons_of_mem _ old, h⟩
      · cases h
        exact Nat.zero_le _

/-- The innermost region is taken off before its part is ended, which makes no difference. -/
theorem push_endfinally_openRegions (e : Emitter) (outer : List OpenRegion) :
    { e with openRegions := outer }.push .endfinally =
      { e.push .endfinally with openRegions := outer } := by
  simp [Emitter.push, applyEffect, applyFlow, Instr.targets, Instr.stackEffect]

theorem Follows.closeTry (follows : e.Follows level heights) (clean : e.closeTry.errors = #[])
    (agrees : Call.Agrees level e .endTry) : ∃ heights, e.closeTry.Follows level heights := by
  have arrives (o : OpenRegion) (outer : List OpenRegion) (opened : e.openRegions = o :: outer) :
      e.closeTry.depth.toNat = level o.exit := agrees o (by rw [opened]; rfl)
  unfold Emitter.closeTry at clean arrives ⊢
  split
  · next closed =>
    rw [closed] at clean
    simp [fault] at clean
  · next o outer opened =>
    have arrives := arrives o outer opened
    rw [opened] at clean arrives
    dsimp only at clean arrives ⊢
    split
    · next unsplit =>
      rw [unsplit] at clean
      simp [fault] at clean
    · next start split =>
      rw [split] at clean arrives
      have ended : (if e.reachable then { e with openRegions := outer }.push .endfinally
          else { e with openRegions := outer }) =
          { (if e.reachable then e.push .endfinally else e) with openRegions := outer } := by
        split
        · exact push_endfinally_openRegions e outer
        · rfl
      dsimp only at clean arrives ⊢
      rw [ended] at clean arrives ⊢
      have ends : Call.Agrees level e (.instr .endfinally) := fun _ =>
        ⟨by simpa [StackEffect.after, countedEffect, Instr.stackEffect] using e.depth.toNat_lt,
          by simp [Instr.targets]⟩
      have before := (keeps_placeLabel _ _).clean clean
      change (if e.reachable then e.push .endfinally else e).errors = #[] at before
      obtain ⟨heights', follows', unreachable, regions⟩ := follows.endPart rfl before ends
      refine ⟨heights', Follows.placeLabel ?_ clean arrives⟩
      refine follows'.enter rfl (.inl (now_of_unreachable unreachable)) (fun _ _ h => .inl h)
        (fun r hr => ?_) (fun o' ho' start h => ?_) (fun height h => ?_) rfl follows'.recorded
      · rcases Array.mem_push.mp hr with old | rfl
        · exact .inl old
        · exact .inr ⟨o, by rw [regions, opened]; exact List.mem_cons_self, split⟩
      · exact .inl ⟨o', by rw [regions, opened]; exact List.mem_cons_of_mem _ ho', h⟩
      · have live : (if e.reachable then e.push .endfinally else e).reachable = true :=
          (now_eq_some_iff.mp h).1
        rw [unreachable] at live
        cases live

/-! ## Sequences of calls -/

theorem Follows.apply (follows : e.Follows level heights) (call : Call)
    (clean : (call.apply e).errors = #[]) (agrees : call.Agrees level e) :
    ∃ heights, (call.apply e).Follows level heights := by
  cases call with
  | defineLabel => exact ⟨heights, follows.newLabel⟩
  | markLabel l => exact ⟨heights, follows.placeLabel clean agrees⟩
  | declareLocal t pinned => exact ⟨heights, follows.newLocal t pinned⟩
  | instr i => exact ⟨_, follows.push clean agrees⟩
  | beginTry => exact ⟨heights, follows.openTry clean⟩
  | beginFinally => exact follows.openFinally clean agrees
  | endTry => exact follows.closeTry clean agrees

theorem follows_foldl {calls : List Call} (agree : e.Agree level calls)
    (start : e.errors = #[] → ∃ heights, e.Follows level heights)
    (clean : (calls.foldl (fun e call => call.apply e) e).errors = #[]) :
    ∃ heights, (calls.foldl (fun e call => call.apply e) e).Follows level heights := by
  induction calls generalizing e with
  | nil => exact start clean
  | cons call calls ih =>
    refine ih agree.2 (fun clean' => ?_) clean
    obtain ⟨heights, follows⟩ := start ((call.keeps e).clean clean')
    exact follows.apply call clean' agree.1

/-- The heights that the emitter has followed are one for each place. -/
theorem Follows.carries {b : Body} (follows : e.Follows level heights) (finishes : e.Finishes b) :
    b.Carries countedEffect fun pc => ((heights ++ [e.now])[pc]?).join := by
  have known {pc height : Nat} {i : Instr} (found : b.instrs[pc]? = some i)
      (h : ((heights ++ [e.now])[pc]?).join = some height) :
      e.code pc = some i ∧ heights[pc]? = some (some height) := by
    have code := (finishes.code pc).symm.trans found
    refine ⟨code, ?_⟩
    have low : pc < heights.length := by
      rw [follows.size]
      exact (Array.getElem?_eq_some_iff.mp code).1
    rwa [List.getElem?_append_left low, Option.join_eq_some_iff] at h
  constructor
  case start => rw [follows.start, Option.join_some]
  case next =>
    intro pc i height found h falls
    obtain ⟨code, h⟩ := known found h
    rw [follows.next pc i height code h falls, Option.join_some]
  case branch =>
    intro pc i height l place found h hl target
    obtain ⟨code, h⟩ := known found h
    rw [follows.placed l place (finishes.getElem?_places target), Option.join_some,
      follows.branch pc i height code h l hl]
  case finallyStart =>
    intro r hr
    rw [finishes.regions, Array.mem_toList_iff] at hr
    rw [follows.closed r hr, Option.join_some]

/-- Where each label is reached with one height, no way through a finished body takes more from the
stack than there is, or puts more there than the body says. -/
theorem height_of_finish {calls : List Call} {level : Label → Nat} {b : Body}
    (agree : empty.Agree level calls) (made : (ofCalls calls).finish = .ok b) {pc height : Nat}
    (reaches : b.Reaches countedEffect pc height) :
    height ≤ b.maxStack.toNat ∧ ∀ i, b.instrs[pc]? = some i → (countedEffect i).1 ≤ height := by
  have finishes := finishes_of_finish made
  obtain ⟨heights, follows⟩ := follows_foldl agree (fun _ => ⟨[], follows_empty⟩) finishes.clean
  have found := Option.join_eq_some_iff.mp ((follows.carries finishes).height?_eq reaches)
  constructor
  · have low := follows.bounded height (List.mem_of_getElem? found)
    rw [finishes.maxStack, UInt16.toNat_max]
    exact Nat.le_trans low (Nat.le_max_left _ _)
  · intro i code
    have code' := (finishes.code pc).symm.trans code
    refine follows.enough pc i height code' ?_
    rwa [List.getElem?_append_left] at found
    rw [follows.size]
    exact (Array.getElem?_eq_some_iff.mp code').1

/-- A label with one height that is jumped to and fallen into, in front of a protected region. -/
theorem height_of_finish_merge :
    let l : Label := ⟨0⟩
    let calls : List Call := [.defineLabel, .instr (.ldcI4 0), .instr .dup, .instr (.brtrue l),
      .instr .pop, .instr (.ldcI4 1), .markLabel l, .instr .pop, .beginTry, .beginFinally, .endTry,
      .instr .ret]
    let b : Body := ⟨[], [.ldcI4 0, .dup, .brtrue l, .pop, .ldcI4 1, .pop, .leave ⟨1⟩, .endfinally, .ret],
      [5, 8], [⟨6, 7, 7, 8⟩], true, 2⟩
    (ofCalls calls).finish = .ok b ∧ ∀ pc height, b.Reaches countedEffect pc height →
      height ≤ b.maxStack.toNat ∧ ∀ i, b.instrs[pc]? = some i → (countedEffect i).1 ≤ height := by
  intro l calls b
  have agree : empty.Agree (fun label => if label = l then 1 else 0) calls := by
    simp only [calls, Agree, Call.Agrees]
    refine ⟨trivial, ?_, ?_, ?_, ?_, ?_, ?_, ?_, trivial, ?_, ?_, ?_, trivial⟩ <;> decide
  have made : (ofCalls calls).finish = .ok b := by cbv
  exact ⟨made, fun pc height reaches => height_of_finish agree made reaches⟩

/-- In general a branch can bring less to a label than what falls into it, and the emitter goes on
with what falls in. -/
theorem not_height_of_finish : ¬ ∀ (calls : List Call) (b : Body),
    (ofCalls calls).finish = .ok b → ∀ pc height, b.Reaches countedEffect pc height →
      height ≤ b.maxStack.toNat ∧ ∀ i, b.instrs[pc]? = some i → (countedEffect i).1 ≤ height := by
  intro sound
  let l : Label := ⟨0⟩
  let b : Body := ⟨[], [.ldcI4 0, .brtrue l, .ldcI4 1, .pop, .ret], [3], [], true, 1⟩
  have made : (ofCalls [.defineLabel, .instr (.ldcI4 0), .instr (.brtrue l), .instr (.ldcI4 1),
      .markLabel l, .instr .pop, .instr .ret]).finish = .ok b := by cbv
  have tested : b.Reaches countedEffect 1 1 := .next (i := .ldcI4 0) .start rfl rfl
  have jumped : b.Reaches countedEffect 3 0 :=
    .branch (i := .brtrue l) tested rfl List.mem_cons_self rfl
  have popped := (sound _ b made 3 0 jumped).2 .pop rfl
  exact absurd popped (by decide)

end Emitter

end LateBind
