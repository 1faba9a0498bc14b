import LateBind.Proofs.Unwinding

/-! # Runs that are not over

A run that has not come to its end, and may never, has told of a part of its course only. What it told
is in order so far: the finally parts that it has to run start from the inside out, once each, and none
before the one in front of it is over. -/

namespace LateBind

/-! ## Courses so far -/

/-- The events of a run up to now, which the run of a callee or of an instruction may be holding up. -/
inductive Underway (b : Body) : Task → List Event → Prop
  | now {t : Task} : Underway b t []
  | next {pc : Nat} {i : Instr} {es : List Event} :
      b.instrs[pc]? = some i → i.falls → Underway b (.code (pc + 1)) es → Underway b (.code pc) es
  | jump {pc target : Nat} {i : Instr} {l : Label} {es : List Event} :
      b.instrs[pc]? = some i → (∀ l, i ≠ .leave l) → l ∈ i.targets → b.target? l = some target →
      Underway b (.code target) es → Underway b (.code pc) es
  | leaving {pc target : Nat} {l : Label} {during : List Event} :
      b.instrs[pc]? = some (.leave l) → b.target? l = some target →
      Underway b (.handlers (b.regionsLeft pc target)) during →
      Underway b (.code pc) (.leaves pc target :: during)
  | left {pc target : Nat} {l : Label} {during rest : List Event} :
      b.instrs[pc]? = some (.leave l) → b.target? l = some target →
      Course b (.handlers (b.regionsLeft pc target)) during none → Underway b (.code target) rest →
      Underway b (.code pc) (.leaves pc target :: during ++ .resumes target [] :: rest)
  | throws {pc : Nat} {o : ObjRef} {during : List Event} :
      Underway b (.handlers (b.regionsAround pc)) during →
      Underway b (.code pc) (.throws pc o :: during)
  | inHandler {r : Region} {regions : List Region} {es : List Event} :
      r ∈ b.regions → Underway b (.code r.finallyStart) es →
      Underway b (.handlers (r :: regions)) (.starts r :: es)
  | handler {r : Region} {regions : List Region} {es rest : List Event} :
      r ∈ b.regions → Course b (.code r.finallyStart) es none → Underway b (.handlers regions) rest →
      Underway b (.handlers (r :: regions)) (.starts r :: es ++ .ends r :: rest)

/-- Finally parts have run to their ends in the order of the regions, once each, and the next one may
have started. -/
inductive Progresses : List Region → List Event → Prop
  | before {regions : List Region} : Progresses regions []
  | inside {r : Region} {regions : List Region} {es : List Event} :
      (∀ q ∈ begun es, q.InFinally r) → Progresses (r :: regions) (.starts r :: es)
  | behind {r : Region} {regions : List Region} {es rest : List Event} :
      (∀ q ∈ begun es, q.InFinally r) → Progresses regions rest →
      Progresses (r :: regions) (.starts r :: es ++ .ends r :: rest)

/-- Of the finally parts of the try parts around a place the innermost ones have started, once each and
in order. -/
structure UnwindsSoFar (b : Body) (pc : Nat) (es : List Event) : Prop where
  runs : ∃ front, front <+: b.regionsAround pc ∧ Runs front (begun es)
  once : (begun es).filter (·.tryContains pc) <+: b.regionsAround pc

/-- What may have come of an event up to now. -/
def Event.Advanced (b : Body) (after : List Event) : Event → Prop
  | leaves pc target =>
    (∃ during rest, after = during ++ .resumes target [] :: rest ∧
      Completes (b.regionsLeft pc target) during) ∨
    Progresses (b.regionsLeft pc target) after ∨
    UnwindsSoFar b pc after ∧ ∃ r ∈ b.regionsLeft pc target, ∃ place thrown,
      .throws place thrown ∈ after ∧ r.finallyContains place
  | throws pc _ => UnwindsSoFar b pc after
  | _ => True

/-- Every event of a run has advanced as it may. -/
def OrderlySoFar (b : Body) : List Event → Prop
  | [] => True
  | e :: after => e.Advanced b after ∧ OrderlySoFar b after

variable {b : Body} {t : Task} {es : List Event}

/-- A course that ends without an exception is no obstacle to what comes behind it. -/
theorem Orderly.soFar_append (orderly : Orderly b none es) {more : List Event}
    (behind : OrderlySoFar b more) : OrderlySoFar b (es ++ more) := by
  induction es with
  | nil => exact behind
  | cons e es ih =>
    refine ⟨?_, ih orderly.2⟩
    cases e with
    | leaves pc target =>
      rcases orderly.1 with ⟨during, rest, rfl, completes⟩ | ⟨thrown, -⟩
      · exact .inl ⟨during, rest ++ more, by simp, completes⟩
      · cases thrown
    | throws pc thrown => cases orderly.1.2
    | _ => trivial

theorem OrderlySoFar.of_append {front : List Event} (orderly : OrderlySoFar b (front ++ es)) :
    OrderlySoFar b es := by
  induction front with
  | nil => exact orderly
  | cons e front ih => exact ih orderly.2

/-- A whole course is one so far. -/
theorem Course.underway {o : Option ObjRef} (course : Course b t es o) : Underway b t es := by
  induction course with
  | exit => exact .now
  | next code falls _ ih => exact .next code falls ih
  | jump code notLeave hl target _ ih => exact .jump code notLeave hl target ih
  | leave code target during _ _ ih => exact .left code target during ih
  | leaveThrows code target _ ih => exact .leaving code target ih
  | throws _ ih => exact .throws ih
  | done => exact .now
  | handler hr handler _ _ ih => exact .handler hr handler ih
  | handlerThrows hr _ ih => exact .inHandler hr ih

theorem Underway.mem_of_begun (underway : Underway b t es) : ∀ q ∈ begun es, q ∈ b.regions := by
  induction underway with
  | now => exact fun _ hq => absurd hq List.not_mem_nil
  | next _ _ _ ih => exact ih
  | jump _ _ _ _ _ ih => exact ih
  | leaving _ _ _ ih => exact ih
  | left _ _ during _ ih =>
    rw [List.cons_append, begun_leaves, begun_append, begun_resumes]
    exact List.forall_mem_append.mpr ⟨during.mem_of_begun, ih⟩
  | throws _ ih => exact ih
  | inHandler hr _ ih => exact List.forall_mem_cons.mpr ⟨hr, ih⟩
  | handler hr handler _ ih =>
    rw [List.cons_append, begun_starts, begun_append, begun_ends]
    exact List.forall_mem_cons.mpr ⟨hr, List.forall_mem_append.mpr ⟨handler.mem_of_begun, ih⟩⟩

section Order

variable (nested : b.Nested) (structured : b.Structured)

include nested

theorem unwindsSoFar_of_runs {pc : Nat} {front : List Region} (first : front <+: b.regionsAround pc)
    (runs : Runs front (begun es)) (mem : ∀ q ∈ begun es, q ∈ b.regions) : UnwindsSoFar b pc es where
  runs := ⟨front, first, runs⟩
  once := by
    rwa [runs.filter_eq (fun q hq => nested.formed q (mem q hq)) fun q hq =>
      (List.mem_filter.mp (first.mem hq)).2]

include structured

/-- What a run in the finally part of a region has started lies there too, up to an exception that comes
out of it. -/
theorem Underway.staysIn (underway : Underway b t es) {r : Region} (hr : r ∈ b.regions)
    (within : t.Within b r) : ∃ o, StaysIn r es o := by
  induction underway with
  | now => exact ⟨none, fun _ hq => absurd hq List.not_mem_nil⟩
  | next code falls _ ih =>
    exact ih ⟨.next within.1 code falls, nested.finallyContains_next within.1 code falls hr within.2⟩
  | jump code notLeave hl target _ ih =>
    refine ih ⟨.entry (.inl (List.mem_of_getElem? target)), ?_⟩
    exact nested.finallyContains_of_part? (structured.branch code notLeave hl target) hr within.2
  | leaving code target _ ih =>
    have stays := structured.leave code target hr within.2
    obtain ⟨o, during⟩ := ih fun q hq => nested.regionsLeft_inFinally hr within.2 stays hq
    exact ⟨o, during.behind [.leaves _ _] fun _ hq => absurd hq List.not_mem_nil⟩
  | left code target during _ ih =>
    have stays := structured.leave code target hr within.2
    have during := during.staysIn nested structured hr fun q hq =>
      nested.regionsLeft_inFinally hr within.2 stays hq
    obtain ⟨o, rest⟩ := ih ⟨.entry (.inl (List.mem_of_getElem? target)), stays⟩
    refine ⟨o, StaysIn.behind ?_ (.leaves _ _ :: _) during⟩
    exact rest.behind [.resumes _ []] fun _ hq => absurd hq List.not_mem_nil
  | @throws pc o during _ => exact ⟨some o, [], _, _, _, rfl, within.2, fun _ hq => absurd hq List.not_mem_nil⟩
  | @inHandler q _ _ hq _ ih =>
    obtain ⟨o, handler⟩ := ih (within_handler nested hq (within q List.mem_cons_self))
    refine ⟨o, handler.behind [.starts q] fun q' hq' => ?_⟩
    rw [List.mem_singleton.mp hq']
    exact within q List.mem_cons_self
  | @handler q _ _ _ hq handler _ ih =>
    rw [Task.Within, List.forall_mem_cons] at within
    have handler := handler.staysIn nested structured hr (within_handler nested hq within.1)
    obtain ⟨o, rest⟩ := ih within.2
    refine ⟨o, StaysIn.behind ?_ (.starts q :: _) ?_⟩
    · exact rest.behind [.ends q] fun _ hq => absurd hq List.not_mem_nil
    · exact List.forall_mem_cons.mpr ⟨within.1, handler⟩

omit nested structured

/-- How far a task has come with the regions around a place, when it is a part of them. An exception
that comes out of them may go on with the others. -/
def Task.UnwoundSoFar (b : Body) (es : List Event) : Task → Prop
  | code _ => True
  | handlers regions =>
    (Progresses regions es ∨ ∃ r ∈ regions, ∃ place thrown,
      .throws place thrown ∈ es ∧ r.finallyContains place) ∧
    ∀ pc before outer, b.regionsAround pc = before ++ (regions ++ outer) →
      ∃ front, front <+: regions ++ outer ∧ Runs front (begun es)

/-- A finally part that is not over has at most run what is inside it. -/
theorem runs_singleton {r : Region} {inner : List Region} (inside : ∀ q ∈ inner, q.InFinally r) :
    Runs [r] (r :: inner) := by
  simpa using Runs.cons inside .nil

include nested

/-- An exception in the finally part of a region has unwound what is around it there, and maybe some of
what is around the region. -/
theorem exists_runs_of_throws {r : Region} {pc place : Nat} {regions before : List Region}
    {quiet after : List Event} {thrown : ObjRef}
    (around : b.regionsAround pc = before ++ (r :: regions)) (inside : r.finallyContains place)
    (begunIn : ∀ q ∈ begun quiet, q.InFinally r) (unwinds : UnwindsSoFar b place after) :
    ∃ front, front <+: r :: regions ∧ Runs front (r :: begun (quiet ++ .throws place thrown :: after)) := by
  obtain ⟨inner, eq, innerIn⟩ := nested.regionsAround_of_finallyContains around inside
  have formed : ∀ q ∈ inner, q.Formed ∧ q.InFinally r := fun q hq =>
    ⟨nested.formed q (innerIn q hq).1, (innerIn q hq).2⟩
  obtain ⟨first, isPrefix, runs⟩ := unwinds.runs
  rw [eq] at isPrefix
  rw [begun_append, begun_throws]
  rcases List.prefix_or_prefix_of_prefix isPrefix (List.prefix_append inner regions) with short | long
  · refine ⟨[r], by simp, runs_singleton (List.forall_mem_append.mpr ⟨begunIn, ?_⟩)⟩
    exact runs.inFinally fun q hq => formed q (short.mem hq)
  · obtain ⟨outer, rfl⟩ := long
    obtain ⟨front, back, split, runsInner, runsOuter⟩ := runs.of_append
    refine ⟨r :: outer, by simpa using isPrefix, ?_⟩
    rw [split, ← List.append_assoc]
    exact .cons (List.forall_mem_append.mpr ⟨begunIn, runsInner.inFinally formed⟩) runsOuter

include structured

theorem Underway.orderlySoFar (underway : Underway b t es) :
    OrderlySoFar b es ∧ t.UnwoundSoFar b es := by
  induction underway with
  | @now t =>
    refine ⟨trivial, ?_⟩
    cases t with
    | code pc => trivial
    | handlers regions => exact ⟨.inl .before, fun _ _ _ _ => ⟨[], List.nil_prefix, .nil⟩⟩
  | next _ _ _ ih => exact ih
  | jump _ _ _ _ _ ih => exact ih
  | @leaving pc target _ _ _ _ during ih =>
    refine ⟨⟨.inr ?_, ih.1⟩, trivial⟩
    obtain ⟨progresses | thrown, runs⟩ := ih.2
    · exact .inl progresses
    · obtain ⟨outer, around⟩ := nested.regionsLeft_append pc target
      obtain ⟨front, first, runs⟩ := runs pc [] outer around
      rw [← around] at first
      exact .inr ⟨unwindsSoFar_of_runs nested first runs during.mem_of_begun, thrown⟩
  | left _ _ during _ ih =>
    refine ⟨⟨.inl ⟨_, _, rfl, during.completes nested structured⟩, ?_⟩, trivial⟩
    exact (during.orderly nested structured).1.soFar_append ⟨trivial, ih.1⟩
  | @throws pc _ _ during ih =>
    refine ⟨⟨?_, ih.1⟩, trivial⟩
    obtain ⟨front, first, runs⟩ := ih.2.2 pc [] [] (by simp)
    rw [List.append_nil] at first
    exact unwindsSoFar_of_runs nested first runs during.mem_of_begun
  | @inHandler r regions es hr handler ih =>
    obtain ⟨o, stays⟩ := handler.staysIn nested structured hr (within_start nested hr)
    refine ⟨⟨trivial, ih.1⟩, ?_, fun pc before outer around => ?_⟩
    · cases o with
      | none => exact .inl (.inside stays)
      | some o =>
        obtain ⟨quiet, place, thrown, after, rfl, inside, -⟩ := stays
        exact .inr ⟨r, List.mem_cons_self, place, thrown, by simp, inside⟩
    · cases o with
      | none => exact ⟨[r], by simp, runs_singleton stays⟩
      | some o =>
        obtain ⟨quiet, place, thrown, after, rfl, inside, begunIn⟩ := stays
        have unwinds : UnwindsSoFar b place after := ih.1.of_append.1
        exact exists_runs_of_throws nested around inside begunIn unwinds
  | @handler r regions es rest hr handler _ ih =>
    have inside := handler.staysIn nested structured hr (within_start nested hr)
    refine ⟨⟨trivial, ?_⟩, ?_, fun pc before outer around => ?_⟩
    · exact (handler.orderly nested structured).1.soFar_append ⟨trivial, ih.1⟩
    · rcases ih.2.1 with progresses | ⟨q, hq, place, thrown, mem, inFinally⟩
      · exact .inl (.behind inside progresses)
      · exact .inr ⟨q, List.mem_cons_of_mem _ hq, place, thrown, by simp [mem], inFinally⟩
    · obtain ⟨front, first, runs⟩ := ih.2.2 pc (before ++ [r]) outer (by simpa using around)
      refine ⟨r :: front, by simpa using first, ?_⟩
      rw [begun_append, begun_starts, begun_ends]
      exact .cons inside runs

end Order

end LateBind
