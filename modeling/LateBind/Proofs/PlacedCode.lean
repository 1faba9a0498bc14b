import LateBind.Proofs.Instructions
import LateBind.Proofs.LaidCode

/-! # Code in a finished body

What an emitter had at one time is in the body that it is finished to: its instructions stand at
their places, the labels that were placed lead there, and its locals have their numbers. So each piece
of code can be run by itself. -/

namespace LateBind

namespace Emitter

/-- What the emitter has is in the body. -/
structure Within (e : Emitter) (body : Body) : Prop where
  code : ∀ (pc : Nat) i, e.instrs[pc]? = some i → body.instrs[pc]? = some i
  target : ∀ (l : Nat) place, e.labels[l]?.bind LabelState.position = some place →
    body.labels[l]? = some place
  locals : e.locals.size ≤ body.locals.length

theorem within_finish {e : Emitter} {body : Body} (finished : e.finish = .ok body) :
    e.Within body := by
  rw [finish] at finished
  split at finished
  · cases finished
  · cases resolved : resolveLabels 0 e.labels.toList with
    | error fault =>
      rw [resolved] at finished
      cases finished
    | ok places =>
      rw [resolved] at finished
      cases finished
      refine ⟨fun pc i found => by simpa using found, fun l place placed => ?_, by simp⟩
      have known : (e.labels.toList.map LabelState.position)[l]? = some (some place) := by
        rw [List.getElem?_map, Array.getElem?_toList]
        simpa [Option.bind_eq_some_iff] using placed
      rw [resolveLabels_eq_ok_iff.mp resolved, List.getElem?_map] at known
      simpa using known

variable {e e₁ : Emitter} {body : Body} {is : List Instr} {ms : List Mark} {vs : List Local}
  {h k' : Nat} {k : UInt16} {r : Bool}

theorem Within.of_grow (within : (e.grow is ms vs h k r).Within body) : e.Within body where
  code pc i found := within.code pc i <| by
    have inside := (Array.getElem?_eq_some_iff.mp found).1
    rw [grow, Array.getElem?_append_left inside, found]
  target l place found := within.target l place <| by
    obtain ⟨state, there, placed⟩ := Option.bind_eq_some_iff.mp found
    have inside := (Array.getElem?_eq_some_iff.mp there).1
    rw [grow, Array.getElem?_append_left inside, there]
    exact placed
  locals := by
    have more := within.locals
    rw [size_locals_grow] at more
    omega

theorem Within.of_guard {rs : List Region} (within : (e.guard rs).Within body) : e.Within body :=
  ⟨within.code, within.target, within.locals⟩

theorem Lays.within {params h h' labels : Nat} (lays : e.Lays params h h' labels e₁)
    (within : e₁.Within body) : e.Within body := by
  obtain ⟨is, ms, vs, rs, k, heights, levels, rfl, -, -⟩ := lays
  exact within.of_grow.of_guard

/-- The last instruction stands behind all others. -/
theorem Within.of_push_ret (he : e.At h) (hh : h < 2 ^ 16) (within : (e.push .ret).Within body) :
    e.Within body ∧ body.instrs[e.position]? = some .ret := by
  have eq : (e.grow [] [] [] h e.maxDepth true).push .ret = _ := push_ret_grow hh
  rw [he.eq_grow] at eq
  rw [eq] at within
  refine ⟨within.of_grow, within.code _ _ ?_⟩
  simp [grow, position]

/-- The instructions of a piece stand where it was laid. -/
theorem Within.instr (within : (e.grow is ms vs h k r).Within body) {p : Nat} {i : Instr}
    (found : is[p]? = some i) : body.instrs[e.position + p]? = some i := by
  refine within.code _ _ ?_
  rw [grow, position, Array.getElem?_append_right (Nat.le_add_right _ _), Nat.add_sub_cancel_left]
  simpa using found

/-- The labels of a piece lead to their places. -/
theorem Within.label (within : (e.grow is ms vs h k r).Within body) {n place : Nat}
    (found : ms[n]?.bind Mark.place = some place) (few : e.labels.size + n < 2 ^ 32) :
    body.target? (e.label n) = some place := by
  rw [Body.target?, toNat_label few]
  refine within.target _ _ ?_
  rw [getElem?_labels_grow]
  cases there : ms[n]? with
  | none => simp [there] at found
  | some mark => simpa [there, Mark.state] using found

/-! ## Regions -/

/-- Code is in the body also when one of its labels was only placed later. -/
theorem Within.of_placed {is' : List Instr} {ms' : List Mark} {vs' : List Local} {m m' : Mark}
    {h' : Nat} {r' : Bool} {k' : UInt16} (unplaced : m.place = none)
    (within : (e.grow (is ++ is') (m' :: (ms ++ ms')) (vs ++ vs') h k r).Within body) :
    (e.grow is (m :: ms) vs h' k' r').Within body where
  code pc i found := within.code pc i <| by
    have inside := (Array.getElem?_eq_some_iff.mp found).1
    simp only [grow] at inside found ⊢
    rw [← List.append_toArray, ← Array.append_assoc, Array.getElem?_append_left inside, found]
  target l place found := within.target l place <| by
    simp only [grow, List.map_cons, List.map_append] at found ⊢
    rcases Nat.lt_trichotomy l e.labels.size with old | rfl | new
    · rw [Array.getElem?_append_left old] at found ⊢
      exact found
    · rw [Array.getElem?_append_right (Nat.le_refl _), Nat.sub_self] at found
      simp [Mark.state, unplaced] at found
    · obtain ⟨p, rfl⟩ : ∃ p, l = e.labels.size + (p + 1) := ⟨l - e.labels.size - 1, by omega⟩
      rw [Array.getElem?_append_right (Nat.le_add_right _ _), Nat.add_sub_cancel_left] at found ⊢
      simp only [List.getElem?_toArray, List.getElem?_cons_succ] at found ⊢
      obtain ⟨state, there, placed⟩ := Option.bind_eq_some_iff.mp found
      rw [List.getElem?_append_left (List.getElem?_eq_some_iff.mp there).1, there]
      exact placed
  locals := by
    have more := within.locals
    simp only [size_locals_grow, List.length_append] at more ⊢
    omega

/-- A protected region in a body: the try part was laid from the first emitter to the second, and then
the finally part up to the third. -/
structure Protected (e e₁ e₂ : Emitter) (body : Body) : Prop where
  tryPart : e₁.Within body
  finallyPart : e₂.Within body
  start : e.openTry.2.position = e.position
  leave : body.instrs[e₁.position]? = some (.leave (e.label 0))
  handler : e₁.openFinally.position = e₁.position + 1
  endfinally : body.instrs[e₂.position]? = some .endfinally
  position : e₂.closeTry.position = e₂.position + 1
  target : body.target? (e.label 0) = some (e₂.position + 1)
  region : e₂.closeTry.regions = e₂.regions.push
    ⟨e.position, e₁.position + 1, e₁.position + 1, e₂.position + 1⟩

theorem Lays.protected {params l₁ l₂ : Nat} {e₂ : Emitter} (he : e.At 0)
    (hl : e.labels.size < 2 ^ 32) (first : e.openTry.2.Lays params 0 0 l₁ e₁)
    (second : e₁.openFinally.Lays params 0 0 l₂ e₂) (within : e₂.closeTry.Within body) :
    Protected e e₁ e₂ body := by
  obtain ⟨is₁, ms₁, vs₁, rs₁, k₁, heights₁, levels₁, rfl, count₁, laid₁⟩ := first
  obtain ⟨is₂, ms₂, vs₂, rs₂, k₂, heights₂, levels₂, rfl, count₂, laid₂⟩ := second
  let base (open_ : List OpenRegion) (rs : List Region) : Emitter :=
    { e.guard rs with openRegions := open_ ++ e.openRegions }
  have eq₁ : (e.openTry.2.guard rs₁).grow is₁ ms₁ vs₁ 0 k₁ true =
      (base [⟨e.position, none, e.label 0⟩] rs₁).grow is₁ (Mark.new :: ms₁) vs₁ 0 k₁ true := by
    rw [openTry_eq he]
    simp [guard, grow, base]
  have eq₂ : (((e.openTry.2.guard rs₁).grow is₁ ms₁ vs₁ 0 k₁ true).openFinally.guard rs₂).grow is₂
      ms₂ vs₂ 0 k₂ true = (base [⟨e.position, some (e.position + is₁.length + 1), e.label 0⟩]
        (rs₁ ++ rs₂)).grow (is₁ ++ [.leave (e.label 0)] ++ is₂) (⟨none, some 0⟩ :: (ms₁ ++ ms₂))
          (vs₁ ++ vs₂) 0 k₂ true := by
    rw [openFinally_eq he hl]
    simp [guard, grow, base]
  rw [closeTry_eq he hl] at within
  have all : (e.grow (is₁ ++ .leave (e.label 0) :: (is₂ ++ [.endfinally]))
      (⟨some (e.position + is₁.length + is₂.length + 2), some 0⟩ :: (ms₁ ++ ms₂)) (vs₁ ++ vs₂) 0 k₂
      true).Within body := ⟨within.code, within.target, within.locals⟩
  have first : (e.grow is₁ (Mark.new :: ms₁) vs₁ 0 k₁ true).Within body := all.of_placed rfl
  have second : (e.grow (is₁ ++ [.leave (e.label 0)] ++ is₂) (⟨none, some 0⟩ :: (ms₁ ++ ms₂))
      (vs₁ ++ vs₂) 0 k₂ true).Within body := by
    have longer : (e.grow (is₁ ++ [.leave (e.label 0)] ++ is₂ ++ [.endfinally])
        (⟨some (e.position + is₁.length + is₂.length + 2), some 0⟩ :: (ms₁ ++ ms₂ ++ []))
        (vs₁ ++ vs₂ ++ []) 0 k₂ true).Within body := by simpa using all
    exact longer.of_placed rfl
  have place₁ : ((base [⟨e.position, none, e.label 0⟩] rs₁).grow is₁ (Mark.new :: ms₁) vs₁ 0 k₁
      true).position = e.position + is₁.length := position_grow
  have place₂ : ((base [⟨e.position, some (e.position + is₁.length + 1), e.label 0⟩]
      (rs₁ ++ rs₂)).grow (is₁ ++ [.leave (e.label 0)] ++ is₂) (⟨none, some 0⟩ :: (ms₁ ++ ms₂))
        (vs₁ ++ vs₂) 0 k₂ true).position = e.position + is₁.length + is₂.length + 1 := by
    refine position_grow.trans ?_
    change e.position + _ = _
    simp only [List.length_append, List.length_singleton]
    omega
  rw [← eq₁] at place₁
  rw [← eq₂] at place₂
  constructor
  case tryPart =>
    rw [eq₁]
    exact ⟨first.code, first.target, first.locals⟩
  case finallyPart =>
    rw [eq₂]
    exact ⟨second.code, second.target, second.locals⟩
  case start =>
    rw [openTry_eq he, position_grow]
    rfl
  case leave =>
    rw [place₁]
    exact all.instr (by simp)
  case handler =>
    rw [openFinally_eq he hl, place₁, position_grow]
    simp [guard, position, Nat.add_assoc]
  case endfinally =>
    rw [place₂, Nat.add_assoc, Nat.add_assoc]
    refine all.instr ?_
    rw [List.getElem?_append_right (Nat.le_add_right _ _), Nat.add_sub_cancel_left]
    simp
  case position =>
    rw [closeTry_eq he hl, place₂, position_grow]
    simp [guard, position]
    omega
  case target =>
    rw [place₂]
    exact all.label rfl (by omega)
  case region =>
    rw [closeTry_eq he hl, place₁, place₂, eq₂]
    simp [guard, grow, base, Nat.add_assoc]

end Emitter

end LateBind
