import LateBind.Proofs.Outlines

/-! # Misuse of the emitter

The emitter keeps the faults that calls make until the body is finished, and reports the first. Calls
that make none are well bracketed. -/

namespace LateBind

namespace Emitter

variable {e : Emitter} {o o' : Outline} {opened : List OpenRegion} {calls : List Call} {call : Call}
  {i : Instr} {l : Label} {err err' : EmitError}

/-! ## Faults of one call -/

/-- The fault of a call where the calls before it led to an outline, open regions and a stack
height. -/
inductive Call.Misuses (o : Outline) (opened : List OpenRegion) (depth : UInt16) :
    Call → EmitError → Prop
  | underflow {i : Instr} (low : depth < i.stackEffect.1) :
      Misuses o opened depth (.instr i) (.stackUnderflow o.position)
  | markedTwice {l : Label} (marked : o.Marked l) :
      Misuses o opened depth (.markLabel l) (.labelMarkedTwice l)
  | tryWithItems (items : depth ≠ 0) :
      Misuses o opened depth .beginTry (.region (.tryWithItems depth))
  | finallyWithoutTry (closed : opened = []) :
      Misuses o opened depth .beginFinally (.region .finallyWithoutTry)
  | secondFinally {r : OpenRegion} {outer : List OpenRegion} (inside : opened = r :: outer)
      (split : r.finallyStart.isSome) :
      Misuses o opened depth .beginFinally (.region .secondFinally)
  | endWithoutTry (closed : opened = []) :
      Misuses o opened depth .endTry (.region .endWithoutTry)
  | endWithoutFinally {r : OpenRegion} {outer : List OpenRegion} (inside : opened = r :: outer)
      (unsplit : r.finallyStart = none) :
      Misuses o opened depth .endTry (.region .endWithoutFinally)
  | exitMarked {r : OpenRegion} {outer : List OpenRegion} (inside : opened = r :: outer)
      (split : r.finallyStart.isSome) (marked : o.Marked r.exit) :
      Misuses o opened depth .endTry (.labelMarkedTwice r.exit)

/-- A call makes one fault at most. -/
theorem Call.Misuses.unique {depth : UInt16} (misuses : call.Misuses o opened depth err)
    (misuses' : call.Misuses o opened depth err') : err = err' := by
  cases misuses with
  | underflow | markedTwice | tryWithItems =>
    cases misuses'
    rfl
  | finallyWithoutTry closed =>
    cases misuses' with
    | finallyWithoutTry => rfl
    | secondFinally inside => cases closed.symm.trans inside
  | secondFinally inside =>
    cases misuses' with
    | finallyWithoutTry closed => cases closed.symm.trans inside
    | secondFinally => rfl
  | endWithoutTry closed =>
    cases misuses' with
    | endWithoutTry => rfl
    | endWithoutFinally inside | exitMarked inside => cases closed.symm.trans inside
  | endWithoutFinally inside unsplit =>
    cases misuses' with
    | endWithoutTry closed => cases closed.symm.trans inside
    | endWithoutFinally => rfl
    | exitMarked inside' split =>
      cases inside.symm.trans inside'
      rw [unsplit] at split
      cases split
  | exitMarked inside split =>
    cases misuses' with
    | endWithoutTry closed => cases closed.symm.trans inside
    | endWithoutFinally inside' unsplit =>
      cases inside.symm.trans inside'
      rw [unsplit] at split
      cases split
    | exitMarked inside' =>
      cases inside.symm.trans inside'
      rfl

/-- A label is placed that was defined before. -/
def Call.Defined (labels : Nat) : Call → Prop
  | .markLabel l => l.id.toNat < labels
  | _ => True

theorem Tracks.errors_placeLabel (tracks : e.Tracks o opened) (defined : l.id.toNat < o.labels) :
    (o.Marked l ∧ (e.placeLabel l).errors = e.errors.push (.labelMarkedTwice l)) ∨
      (¬o.Marked l ∧ (e.placeLabel l).errors = e.errors) := by
  rcases tracks.places_label defined with ⟨unmarked, none⟩ | ⟨place, marked, mem⟩
  · obtain ⟨labels, depth, eq, -⟩ := placeLabel_unmarked none
    exact .inr ⟨unmarked, by rw [eq]⟩
  · exact .inl ⟨⟨place, mem⟩, by rw [placeLabel_marked marked, Emitter.fault]⟩

/-- A call adds its fault to the others, or there is none. -/
def Call.Reports (call : Call) (o : Outline) (opened : List OpenRegion) (e : Emitter) : Prop :=
  (∃ err, call.Misuses o opened e.depth err ∧ (call.apply e).errors = e.errors.push err) ∨
    (∀ err, ¬call.Misuses o opened e.depth err) ∧ (call.apply e).errors = e.errors

namespace Tracks

theorem reports_markLabel (tracks : e.Tracks o opened) (defined : l.id.toNat < o.labels) :
    (Call.markLabel l).Reports o opened e := by
  rcases tracks.errors_placeLabel defined with ⟨marked, errors⟩ | ⟨unmarked, errors⟩
  · exact .inl ⟨_, .markedTwice marked, errors⟩
  · refine .inr ⟨fun err misuses => ?_, errors⟩
    cases misuses with
    | markedTwice marked => exact unmarked marked

theorem reports_instr (tracks : e.Tracks o opened) (i : Instr) :
    (Call.instr i).Reports o opened e := by
  have errors := (puts_push e i).errors
  by_cases low : e.depth < i.stackEffect.1
  · rw [if_pos low, tracks.position] at errors
    exact .inl ⟨_, .underflow low, errors⟩
  · rw [if_neg low] at errors
    refine .inr ⟨fun err misuses => ?_, errors⟩
    cases misuses with
    | underflow low' => exact low low'

theorem reports_beginTry (o : Outline) (opened : List OpenRegion) (e : Emitter) :
    Call.beginTry.Reports o opened e := by
  by_cases items : e.depth = 0
  · refine .inr ⟨fun err misuses => ?_, ?_⟩
    · cases misuses with
      | tryWithItems items' => exact items' items
    · simp [Call.apply, Emitter.openTry, items, Emitter.newLabel]
  · refine .inl ⟨_, .tryWithItems items, ?_⟩
    simp [Call.apply, Emitter.openTry, items, Emitter.newLabel, Emitter.fault]

theorem reports_beginFinally (tracks : e.Tracks o opened) :
    Call.beginFinally.Reports o opened e := by
  have openRegions := tracks.openRegions
  rcases opened with _ | ⟨⟨tryStart, start, exit⟩, outer⟩
  · refine .inl ⟨_, .finallyWithoutTry rfl, ?_⟩
    simp [Call.apply, Emitter.openFinally, openRegions, Emitter.fault]
  · have ended := errors_push_of_zero (e := e) (i := .leave exit) rfl
    cases start with
    | some start =>
      refine .inl ⟨_, .secondFinally rfl rfl, ?_⟩
      simp only [Call.apply, Emitter.openFinally, openRegions, Option.isSome_some, if_true,
        Emitter.fault, ended]
    | none =>
      refine .inr ⟨fun err misuses => ?_, ?_⟩
      · cases misuses with
        | finallyWithoutTry closed => cases closed
        | secondFinally inside split =>
          cases inside
          cases split
      · simpa [Call.apply, Emitter.openFinally, openRegions] using ended

theorem reports_endTry (tracks : e.Tracks o opened) : Call.endTry.Reports o opened e := by
  have openRegions := tracks.openRegions
  rcases opened with _ | ⟨⟨tryStart, start, exit⟩, outer⟩
  · refine .inl ⟨_, .endWithoutTry rfl, ?_⟩
    simp [Call.apply, Emitter.closeTry, openRegions, Emitter.fault]
  · cases start with
    | none =>
      refine .inl ⟨_, .endWithoutFinally rfl rfl, ?_⟩
      simp [Call.apply, Emitter.closeTry, openRegions, Emitter.fault]
    | some start =>
      obtain ⟨e', closes, closed, errors⟩ := tracks.closed
      obtain ⟨defined, -⟩ := List.forall_mem_cons.mp tracks.exits
      rw [Call.Reports, Call.apply, closes, ← errors]
      rcases closed.errors_placeLabel (by simpa using defined) with ⟨marked, faults⟩ | ⟨unmarked, none⟩
      · exact .inl ⟨_, .exitMarked rfl rfl (by simpa using marked), faults⟩
      · refine .inr ⟨fun err misuses => ?_, none⟩
        cases misuses with
        | endWithoutTry closed => cases closed
        | endWithoutFinally inside unsplit =>
          cases inside
          cases unsplit
        | exitMarked inside _ marked =>
          cases inside
          exact unmarked (by simpa using marked)

theorem reports (tracks : e.Tracks o opened) (defined : call.Defined o.labels) :
    call.Reports o opened e := by
  cases call with
  | defineLabel | declareLocal => exact .inr ⟨nofun, rfl⟩
  | markLabel l => exact tracks.reports_markLabel defined
  | instr i => exact tracks.reports_instr i
  | beginTry => exact reports_beginTry o opened e
  | beginFinally => exact tracks.reports_beginFinally
  | endTry => exact tracks.reports_endTry

end Tracks

theorem first_run (calls : List Call) (first : e.errors[0]? = some err) :
    (e.run calls).errors[0]? = some err := by
  induction calls generalizing e with
  | nil => exact first
  | cons call calls ih => exact ih ((call.keeps e).first first)

/-! ## Going on without a fault -/

/-- The region that was opened at a place with a label behind it is still open, or it is closed. -/
def Begun (o : Outline) (opened : List OpenRegion) (start : Nat) (exit : Label) : Prop :=
  (∃ split, ⟨start, split, exit⟩ ∈ opened) ∨ ∃ r, (r, exit) ∈ o.regions ∧ r.tryStart = start

/-- After calls that are well bracketed so far, a call that makes no fault goes on with them. -/
theorem Opens.next (opens : Opens calls o opened) {depth : UInt16} (defined : call.Defined o.labels)
    (fine : ∀ err, ¬call.Misuses o opened depth err) :
    ∃ o' opened', Opens (calls ++ [call]) o' opened' ∧
      (∀ start exit, Begun o opened start exit → Begun o' opened' start exit) ∧
      (call = .beginTry → Begun o' opened' o.position o.next) := by
  cases call with
  | defineLabel => exact ⟨_, _, opens.append .defineLabel, fun _ _ => id, nofun⟩
  | declareLocal type pinned => exact ⟨_, _, opens.append .declareLocal, fun _ _ => id, nofun⟩
  | instr i => exact ⟨_, _, opens.append .instr, fun _ _ => id, nofun⟩
  | markLabel l =>
    have unmarked : ¬o.Marked l := fun marked => fine _ (.markedTwice marked)
    exact ⟨_, _, opens.append fun balanced => .markLabel balanced defined unmarked,
      fun _ _ => id, nofun⟩
  | beginTry =>
    refine ⟨_, _, .inTry opens .nil, fun start exit begun => ?_, fun _ => ?_⟩
    · exact begun.imp_left fun ⟨split, mem⟩ => ⟨split, List.mem_cons_of_mem _ mem⟩
    · exact .inl ⟨none, List.mem_cons_self⟩
  | beginFinally =>
    cases opens with
    | outside => exact absurd (.finallyWithoutTry rfl) (fine _)
    | inFinally => exact absurd (.secondFinally rfl rfl) (fine _)
    | inTry before tried =>
      refine ⟨_, _, .inFinally before tried .nil, fun start exit begun => ?_, nofun⟩
      refine begun.imp (fun ⟨split, mem⟩ => ?_) fun closed => by simpa using closed
      rcases List.mem_cons.mp mem with same | mem
      · cases same
        exact ⟨_, List.mem_cons_self⟩
      · exact ⟨split, List.mem_cons_of_mem _ mem⟩
  | endTry =>
    cases opens with
    | outside => exact absurd (.endWithoutTry rfl) (fine _)
    | inTry => exact absurd (.endWithoutFinally rfl rfl) (fine _)
    | @inFinally calls body handler o₁ o₂ _ outer before tried handled =>
      have unmarked : ¬o.Marked o₁.next := fun marked => fine _ (.exitMarked rfl rfl marked)
      have closes : Opens (calls ++ (.beginTry :: body ++ .beginFinally :: handler ++ [.endTry]))
          (o.closeRegion o₁.position (o₂.startFinally o₁.next).position o₁.next) outer :=
        before.append fun balanced => by
          simpa [List.append_assoc] using balanced.region tried handled unmarked
      refine ⟨_, outer, by simpa [List.append_assoc] using closes, fun start exit begun => ?_, nofun⟩
      rw [Begun, Outline.closeRegion_regions]
      rcases begun with ⟨split, mem⟩ | ⟨r, mem, start⟩
      · rcases List.mem_cons.mp mem with same | mem
        · cases same
          exact .inr ⟨_, List.mem_append_right _ (List.mem_singleton_self _), rfl⟩
        · exact .inl ⟨split, mem⟩
      · exact .inr ⟨r, List.mem_append_left _ mem, start⟩

/-! ## Sequences -/

/-- A sequence places labels only that it has defined before. -/
def Defined (calls : List Call) : Prop :=
  ∀ before call after, calls = before ++ call :: after →
    call.Defined (ofCalls before).labels.size

/-- A call makes a fault, after calls that are well bracketed so far. -/
def Faults (before : List Call) (call : Call) (err : EmitError) : Prop :=
  ∃ o opened, Opens before o opened ∧ call.Misuses o opened (ofCalls before).depth err

/-- No call of a sequence makes a fault. -/
def Faultless (calls : List Call) : Prop :=
  ∀ before call after err, calls = before ++ call :: after → ¬Faults before call err

/-- The first fault of a sequence: that of a call after which nothing counts, or else a try that is
left open, or else a label without a place. -/
inductive FirstFault (calls : List Call) : EmitError → Prop
  | call {before after : List Call} {call : Call} {err : EmitError}
      (split : calls = before ++ call :: after) (faultless : Faultless before)
      (faults : Faults before call err) : FirstFault calls err
  | neverClosed {o : Outline} {opened : List OpenRegion} {r : OpenRegion}
      (faultless : Faultless calls) (opens : Opens calls o opened)
      (outermost : opened.getLast? = some r) :
      FirstFault calls (.region (.neverClosed r.tryStart))
  | unmarked {o : Outline} {n : Nat} (faultless : Faultless calls)
      (balanced : Balanced .empty calls o) (defined : n < o.labels)
      (unmarked : ¬∃ place, (n, place) ∈ o.marks) (first : ∀ k < n, ∃ place, (k, place) ∈ o.marks) :
      FirstFault calls (.unmarkedLabel n)

variable {before after : List Call}

theorem ofCalls_concat (calls : List Call) (call : Call) :
    ofCalls (calls ++ [call]) = call.apply (ofCalls calls) := ofCalls_append calls [call]

/-- A call of a longer sequence is the last, or one of those before. -/
theorem split_concat {last : Call} (split : calls ++ [last] = before ++ call :: after) :
    calls = before ∧ last = call ∨ ∃ after', calls = before ++ call :: after' := by
  rcases List.eq_nil_or_concat after with rfl | ⟨after', last', rfl⟩
  · obtain ⟨same, last⟩ := List.append_inj' split rfl
    exact .inl ⟨same, List.singleton_inj.mp last⟩
  · rw [List.concat_eq_append, ← List.cons_append, ← List.append_assoc] at split
    exact .inr ⟨after', (List.append_inj' split rfl).1⟩

theorem Defined.init (defined : Defined (calls ++ [call])) : Defined calls := by
  rintro before call' after rfl
  exact defined before call' (after ++ [call]) (by simp)

theorem Defined.last (defined : Defined (calls ++ [call])) (tracks : (ofCalls calls).Tracks o opened) :
    call.Defined o.labels := by
  rw [← tracks.labels]
  exact defined calls call [] rfl

theorem Defined.of_append (defined : Defined (before ++ call :: after)) : Defined before := by
  rintro before' call' after' rfl
  exact defined before' call' (after' ++ call :: after) (by simp)

theorem Faultless.init (faultless : Faultless (calls ++ [call])) : Faultless calls := by
  rintro before call' after err rfl
  exact faultless before call' (after ++ [call]) err (by simp)

theorem Tracks.openTry_fst (tracks : e.Tracks o opened) : e.openTry.1 = o.next := by
  unfold Emitter.openTry
  dsimp only
  split
  · exact (tracks.fault _).newLabel_fst
  · exact tracks.newLabel_fst

/-- Calls without a fault are well bracketed so far, and each try is still open or has a region. -/
theorem Faultless.opens (faultless : Faultless calls) (defined : Defined calls) :
    ∃ o opened, Opens calls o opened ∧ ∀ before after, calls = before ++ .beginTry :: after →
      Begun o opened (ofCalls before).position (ofCalls before).openTry.1 := by
  induction calls using List.reverseRecOn with
  | nil => exact ⟨.empty, [], .outside .nil, by simp⟩
  | append_singleton calls call ih =>
    obtain ⟨o, opened, opens, begun⟩ := ih faultless.init defined.init
    have tracks := opens.tracks
    have fine : ∀ err, ¬call.Misuses o opened (ofCalls calls).depth err :=
      fun err misuses => faultless calls call [] err rfl ⟨o, opened, opens, misuses⟩
    obtain ⟨o', opened', opens', keeps, begins⟩ := opens.next (defined.last tracks) fine
    refine ⟨o', opened', opens', fun before after split => ?_⟩
    rcases split_concat split with ⟨rfl, last⟩ | ⟨after', split'⟩
    · rw [tracks.position, tracks.openTry_fst]
      exact begins last
    · exact keeps _ _ (begun before after' split')

/-- Calls without a fault leave none. -/
theorem Faultless.errors (faultless : Faultless calls) (defined : Defined calls) :
    (ofCalls calls).errors = #[] := by
  induction calls using List.reverseRecOn with
  | nil => rfl
  | append_singleton calls call ih =>
    obtain ⟨o, opened, opens, -⟩ := faultless.init.opens defined.init
    rw [ofCalls_concat]
    rcases opens.tracks.reports (defined.last opens.tracks) with ⟨err, misuses, -⟩ | ⟨-, errors⟩
    · exact absurd ⟨o, opened, opens, misuses⟩ (faultless calls call [] err rfl)
    · exact errors.trans (ih faultless.init defined.init)

/-- Calls have no fault, or one is the first. -/
theorem faultless_or (calls : List Call) : Faultless calls ∨
    ∃ before call after err, calls = before ++ call :: after ∧ Faultless before ∧
      Faults before call err := by
  induction calls using List.reverseRecOn with
  | nil => exact .inl fun before call after err split => by simp at split
  | append_singleton calls call ih =>
    rcases ih with faultless | ⟨before, call', after, err, rfl, faultless, faults⟩
    · by_cases last : ∃ err, Faults calls call err
      · obtain ⟨err, faults⟩ := last
        exact .inr ⟨calls, call, [], err, rfl, faultless, faults⟩
      · refine .inl fun before call' after err split faults => ?_
        rcases split_concat split with ⟨rfl, rfl⟩ | ⟨after', split'⟩
        · exact last ⟨err, faults⟩
        · exact faultless before call' after' err split' faults
    · exact .inr ⟨before, call', after ++ [call], err, by simp, faultless, faults⟩

/-- The first fault of a call is the first that the emitter keeps. -/
theorem Faults.first (faults : Faults before call err) (faultless : Faultless before)
    (defined : Defined (before ++ call :: after)) :
    (ofCalls (before ++ call :: after)).errors[0]? = some err := by
  obtain ⟨o, opened, opens, misuses⟩ := faults
  have labels : call.Defined o.labels := by
    rw [← opens.tracks.labels]
    exact defined before call after rfl
  rw [ofCalls_append, run_cons]
  refine first_run after ?_
  rcases opens.tracks.reports labels with ⟨err', misuses', errors⟩ | ⟨none, -⟩
  · rw [errors, faultless.errors defined.of_append, misuses.unique misuses']
    rfl
  · exact absurd misuses (none err)

/-! ## What is given back -/

theorem finish_of_first (first : e.errors[0]? = some err) : e.finish = .error err := by
  simp [finish, firstError?, first]

theorem finish_of_open {r : OpenRegion} (clean : e.errors = #[])
    (outermost : e.openRegions.getLast? = some r) :
    e.finish = .error (.region (.neverClosed r.tryStart)) := by
  simp [finish, firstError?, clean, outermost]

/-- The first label without a place is reported. -/
theorem resolveLabels_unmarked {states : List LabelState} {id n : Nat}
    (unmarked : (states.map LabelState.position)[n]? = some none)
    (first : ∀ k < n, ∃ place, (states.map LabelState.position)[k]? = some (some place)) :
    resolveLabels id states = .error (.unmarkedLabel (id + n)) := by
  induction states generalizing id n with
  | nil => cases unmarked
  | cons state states ih =>
    unfold resolveLabels
    cases n with
    | zero =>
      have none : state.position = none := Option.some.inj unmarked
      rw [none]
      rfl
    | succ n =>
      obtain ⟨place, placed⟩ := first 0 (Nat.succ_pos n)
      have some : state.position = some place := Option.some.inj placed
      rw [some]
      dsimp only
      rw [ih unmarked fun k low => first (k + 1) (Nat.succ_lt_succ low), Nat.add_right_comm]
      rfl

theorem finish_of_unmarked {n : Nat} (clean : e.errors = #[]) (closed : e.openRegions = [])
    (unmarked : e.places[n]? = some none)
    (first : ∀ k < n, ∃ place, e.places[k]? = some (some place)) :
    e.finish = .error (.unmarkedLabel n) := by
  have resolved : resolveLabels 0 e.labels.toList = .error (.unmarkedLabel (0 + n)) :=
    resolveLabels_unmarked unmarked first
  rw [Nat.zero_add] at resolved
  simp [finish, firstError?, clean, closed, resolved, Except.map]

theorem finish_of_placed {labels : List Nat} (clean : e.errors = #[]) (closed : e.openRegions = [])
    (placed : e.places = labels.map some) : ∃ b, e.finish = .ok b := by
  have resolved : resolveLabels 0 e.labels.toList = .ok labels := resolveLabels_eq_ok_iff.mpr placed
  exact ⟨_, by simp [finish, firstError?, clean, closed, resolved, Except.map]; rfl⟩

/-- The first label without a place, if there is one. -/
theorem first_unmarked (places : List (Option Nat)) : (∃ labels : List Nat, places = labels.map some) ∨
    ∃ n : Nat, places[n]? = some none ∧ ∀ k < n, ∃ place, places[k]? = some (some place) := by
  induction places with
  | nil => exact .inl ⟨[], rfl⟩
  | cons place places ih =>
    cases place with
    | none => exact .inr ⟨0, rfl, nofun⟩
    | some place =>
      rcases ih with ⟨labels, rfl⟩ | ⟨n, unmarked, first⟩
      · exact .inl ⟨place :: labels, rfl⟩
      · refine .inr ⟨n + 1, unmarked, fun k low => ?_⟩
        cases k with
        | zero => exact ⟨place, rfl⟩
        | succ k => exact first k (Nat.lt_of_succ_lt_succ low)

theorem Opens.balanced (opens : Opens calls o []) : Balanced .empty calls o := by
  cases opens with
  | outside balanced => exact balanced

theorem FirstFault.finish (fault : FirstFault calls err) (defined : Defined calls) :
    (ofCalls calls).finish = .error err := by
  cases fault with
  | call split faultless faults =>
    subst split
    exact finish_of_first (faults.first faultless defined)
  | neverClosed faultless opens outermost =>
    refine finish_of_open (faultless.errors defined) ?_
    rw [opens.tracks.openRegions, outermost]
  | unmarked faultless balanced known unmarked first =>
    have tracks := (Opens.outside balanced).tracks
    refine finish_of_unmarked (faultless.errors defined) tracks.openRegions ?_ fun k low => ?_
    · rcases tracks.places_label known with ⟨-, none⟩ | ⟨place, -, mem⟩
      · exact none
      · exact absurd ⟨place, mem⟩ unmarked
    · obtain ⟨place, mem⟩ := first k low
      exact ⟨place, (tracks.marks k place).mpr mem⟩

/-- Calls without a fault have a region that is left open, a label without a place, or a body. -/
theorem Faultless.finish (faultless : Faultless calls) (defined : Defined calls) :
    (∃ err, FirstFault calls err) ∨ ∃ b, (ofCalls calls).finish = .ok b := by
  obtain ⟨o, opened, opens, -⟩ := faultless.opens defined
  have tracks := opens.tracks
  cases outermost : opened.getLast? with
  | some r => exact .inl ⟨_, .neverClosed faultless opens outermost⟩
  | none =>
    obtain rfl := List.getLast?_eq_none_iff.mp outermost
    rcases first_unmarked (ofCalls calls).places with ⟨labels, placed⟩ | ⟨n, unmarked, first⟩
    · exact .inr (finish_of_placed (faultless.errors defined) tracks.openRegions placed)
    · have known : n < o.labels := by
        rw [← tracks.length_places]
        exact (List.getElem?_eq_some_iff.mp unmarked).1
      refine .inl ⟨_, .unmarked faultless opens.balanced known ?_ fun k low => ?_⟩
      · rintro ⟨place, mem⟩
        rw [(tracks.marks n place).mpr mem] at unmarked
        cases unmarked
      · obtain ⟨place, placed⟩ := first k low
        exact ⟨place, (tracks.marks k place).mp placed⟩

/-- The fault that is reported is the first. -/
theorem finish_eq_error_iff (defined : Defined calls) :
    (ofCalls calls).finish = .error err ↔ FirstFault calls err := by
  refine ⟨fun made => ?_, fun fault => fault.finish defined⟩
  have given : (∃ err', FirstFault calls err') ∨ ∃ b, (ofCalls calls).finish = .ok b := by
    rcases faultless_or calls with faultless | ⟨before, call, after, err', split, faultless, faults⟩
    · exact faultless.finish defined
    · exact .inl ⟨err', .call split faultless faults⟩
  rcases given with ⟨err', fault⟩ | ⟨b, made'⟩
  · cases made.symm.trans (fault.finish defined)
    exact fault
  · cases made.symm.trans made'

/-! ## Finished bodies -/

/-- The label behind each region is placed where the region ends. -/
def Outline.Exits (o : Outline) : Prop :=
  ∀ r exit, (r, exit) ∈ o.regions → (exit.id.toNat, r.finallyEnd) ∈ o.marks

theorem Balanced.exits (balanced : Balanced o calls o') (exits : o.Exits) : o'.Exits := by
  induction balanced with
  | nil => exact exits
  | defineLabel _ ih => exact ih exits
  | markLabel _ _ _ ih =>
    exact fun r exit mem => List.mem_append_left _ (ih exits r exit mem)
  | declareLocal _ ih => exact ih exits
  | instr _ ih => exact ih exits
  | @region o₀ o₁ o₂ o₃ _ _ _ _ _ _ _ before tried handled =>
    have split : o₂.Exits := tried (before exits)
    have closed : o₃.Exits := handled fun r exit mem => by simpa using split r exit (by simpa using mem)
    intro r exit mem
    rw [Outline.closeRegion_regions, List.mem_append, List.mem_singleton] at mem
    rw [Outline.closeRegion, Outline.mark, Outline.endFinally_marks, List.mem_append]
    rcases mem with old | new
    · exact .inl (closed r exit old)
    · cases new
      exact .inr (List.mem_singleton_self _)

/-- A body is what an outline says. -/
structure Outline.Describes (o : Outline) (b : Body) : Prop where
  instrs : b.instrs = o.instrs
  regions : b.regions = o.regions.map Prod.fst
  formed : ∀ r ∈ b.regions, r.Formed ∧ r.finallyEnd ≤ b.instrs.length
  fits : b.regions.Pairwise Region.Fits
  labels : b.labels.length = o.labels
  /-- Each label is placed once. -/
  once : (o.marks.map Prod.fst).Perm (List.range o.labels)
  placed : ∀ n place, (n, place) ∈ o.marks → b.labels[n]? = some place ∧ place ≤ b.instrs.length
  exits : ∀ r exit, (r, exit) ∈ o.regions → b.target? exit = some r.finallyEnd

theorem faultless_of_finish {b : Body} (made : (ofCalls calls).finish = .ok b)
    (defined : Defined calls) : Faultless calls := by
  refine (faultless_or calls).resolve_right ?_
  rintro ⟨before, call, after, err, split, faultless, faults⟩
  cases made.symm.trans ((FirstFault.call split faultless faults).finish defined)

theorem Balanced.describes {b : Body} (balanced : Balanced .empty calls o)
    (made : (ofCalls calls).finish = .ok b) : o.Describes b := by
  have tracks := (Opens.outside balanced).tracks
  have finishes := finishes_of_finish made
  have nested : (ofCalls calls).Nested := nested_foldl calls (fun _ => nested_empty) finishes.clean
  have length : b.labels.length = o.labels := by
    rw [← tracks.length_places, finishes.labels, List.length_map]
  have position : (ofCalls calls).position = b.instrs.length := by
    rw [finishes.instrs, Emitter.position, Array.length_toList]
  have placed (n place : Nat) : (n, place) ∈ o.marks ↔ b.labels[n]? = some place := by
    rw [← tracks.marks, finishes.labels, List.getElem?_map]
    simp
  constructor
  case instrs => rw [finishes.instrs, tracks.instrs]
  case regions => rw [finishes.regions, tracks.regions]
  case formed =>
    intro r mem
    rw [finishes.regions] at mem
    rw [← position]
    exact nested.formed r (Array.mem_toList_iff.mp mem)
  case fits => exact (nested_of_finish made).fits
  case labels => exact length
  case once =>
    have distinct : o.Distinct := balanced.distinct List.nodup_nil
    refine (List.perm_ext_iff_of_nodup distinct List.nodup_range).mpr fun n => ?_
    rw [List.mem_range, ← length]
    constructor
    · intro mem
      obtain ⟨⟨n, place⟩, mark, rfl⟩ := List.mem_map.mp mem
      exact (List.getElem?_eq_some_iff.mp ((placed n place).mp mark)).1
    · intro low
      exact List.mem_map.mpr ⟨(n, b.labels[n]), (placed _ _).mpr (List.getElem?_eq_getElem low), rfl⟩
  case placed =>
    intro n place mem
    refine ⟨(placed n place).mp mem, ?_⟩
    rw [← position]
    exact nested.entries place (.inl (List.mem_of_getElem? ((tracks.marks n place).mpr mem)))
  case exits =>
    intro r exit mem
    exact (placed _ _).mp (balanced.exits (by simp [Outline.Exits, Outline.empty]) r exit mem)

/-- Calls that give a body are well bracketed, and the body is what they say: the instructions in
order with the ends of parts, regions that lie apart or one in a part of the other, and a place for
each label. The label of a try is placed behind its region. All other calls give the first fault. -/
theorem outline_of_finish (defined : Defined calls) :
    (∀ b, (ofCalls calls).finish = .ok b → ∃ o, Balanced .empty calls o ∧ o.Describes b ∧
      ∀ before after, calls = before ++ .beginTry :: after →
        ∃ r, (r, (ofCalls before).openTry.1) ∈ o.regions ∧
          r.tryStart = (ofCalls before).position) ∧
    ∀ err, (ofCalls calls).finish = .error err ↔ FirstFault calls err := by
  refine ⟨fun b made => ?_, fun err => finish_eq_error_iff defined⟩
  obtain ⟨o, opened, opens, begun⟩ := (faultless_of_finish made defined).opens defined
  cases outermost : opened.getLast? with
  | some r =>
    have fault := FirstFault.neverClosed (faultless_of_finish made defined) opens outermost
    cases made.symm.trans (fault.finish defined)
  | none =>
    obtain rfl := List.getLast?_eq_none_iff.mp outermost
    refine ⟨o, opens.balanced, opens.balanced.describes made, fun before after split => ?_⟩
    rcases begun before after split with ⟨_, none⟩ | closed
    · cases none
    · exact closed

/-- A region in the finally part of another one, and a label behind them. -/
theorem outline_of_finish_nested :
    let l : Label := ⟨0⟩
    let calls : List Call := [.defineLabel, .beginTry, .instr (.br l), .beginFinally, .beginTry,
      .beginFinally, .endTry, .endTry, .markLabel l, .instr .ret]
    let b : Body := ⟨[], [.br l, .leave ⟨2⟩, .endfinally, .endfinally, .ret], [4, 4, 3],
      [⟨1, 2, 2, 3⟩, ⟨0, 1, 1, 4⟩], true, 1⟩
    Defined calls ∧ (ofCalls calls).finish = .ok b ∧
      (∃ o, Balanced .empty calls o ∧ o.Describes b ∧
        ∀ before after, calls = before ++ .beginTry :: after →
          ∃ r, (r, (ofCalls before).openTry.1) ∈ o.regions ∧
            r.tryStart = (ofCalls before).position) ∧
      ∀ err, ¬FirstFault calls err := by
  intro l calls b
  have made : (ofCalls calls).finish = .ok b := by cbv
  have defined : Defined calls := by
    intro before call after split
    cases call with
    | markLabel l' =>
      obtain ⟨rfl, rfl, -⟩ : before = calls.take 8 ∧ l' = l ∧ after = [.instr .ret] := by
        simpa [calls, List.cons_eq_append_iff] using split
      have size : (ofCalls (calls.take 8)).labels.size = 3 := by cbv
      rw [size, Call.Defined]
      decide
    | _ => trivial
  obtain ⟨shape, faults⟩ := outline_of_finish defined
  refine ⟨defined, made, shape b made, fun err fault => ?_⟩
  cases made.symm.trans ((faults err).mpr fault)

end Emitter

end LateBind
