import LateBind.Proofs.Handlers

/-! # Courses of runs through regions

A course is what a run of a body does at its regions, as far as the code alone decides it. In a body
that keeps to its regions every jump and every exception runs each finally part that it has to, once
and from the inside out. -/

namespace LateBind

/-- What a run of a body does at a region. -/
inductive Event
  /-- A `leave` at a place sets out for its target. -/
  | leaves (pc target : Nat)
  /-- Control arrives at the target of a `leave` with a stack. -/
  | resumes (target : Nat) (stack : List Value)
  /-- An exception comes up at a place. -/
  | throws (pc : Nat) (object : ObjRef)
  /-- The finally part of a region starts. -/
  | starts (r : Region)
  | ends (r : Region)
  deriving DecidableEq, Repr

namespace Event

def started? : Event → Option Region
  | starts r => some r
  | _ => none

def thrown? : Event → Option ObjRef
  | throws _ o => some o
  | _ => none

end Event

/-- The regions whose finally parts start, in order. -/
def begun (es : List Event) : List Region := es.filterMap Event.started?

/-- The exception that is on its way after some events, when there was one before. -/
def lastThrown (o : ObjRef) (es : List Event) : ObjRef :=
  es.foldl (fun o e => e.thrown?.getD o) o

@[simp]
theorem begun_nil : begun [] = [] := rfl

@[simp]
theorem begun_starts (r : Region) (es : List Event) : begun (.starts r :: es) = r :: begun es := rfl

@[simp]
theorem begun_ends (r : Region) (es : List Event) : begun (.ends r :: es) = begun es := rfl

@[simp]
theorem begun_leaves (pc target : Nat) (es : List Event) :
    begun (.leaves pc target :: es) = begun es := rfl

@[simp]
theorem begun_resumes (target : Nat) (stack : List Value) (es : List Event) :
    begun (.resumes target stack :: es) = begun es := rfl

@[simp]
theorem begun_throws (pc : Nat) (o : ObjRef) (es : List Event) :
    begun (.throws pc o :: es) = begun es := rfl

@[simp]
theorem begun_append (es es' : List Event) : begun (es ++ es') = begun es ++ begun es' :=
  List.filterMap_append

theorem lastThrown_cons (o : ObjRef) (e : Event) (es : List Event) :
    lastThrown o (e :: es) = lastThrown (e.thrown?.getD o) es := rfl

theorem lastThrown_append (o : ObjRef) (es es' : List Event) :
    lastThrown o (es ++ es') = lastThrown (lastThrown o es) es' := List.foldl_append

/-! ## Courses -/

/-- What is to be run: code from a place on, or the finally parts of some regions. -/
inductive Task
  | code (pc : Nat)
  | handlers (regions : List Region)

/-- The events of a run, and the exception that it ends with, if it does. -/
inductive Course (b : Body) : Task → List Event → Option ObjRef → Prop
  | exit {pc : Nat} : Course b (.code pc) [] none
  | next {pc : Nat} {i : Instr} {es : List Event} {o : Option ObjRef} :
      b.instrs[pc]? = some i → i.falls → Course b (.code (pc + 1)) es o → Course b (.code pc) es o
  | jump {pc target : Nat} {i : Instr} {l : Label} {es : List Event} {o : Option ObjRef} :
      b.instrs[pc]? = some i → (∀ l, i ≠ .leave l) → l ∈ i.targets → b.target? l = some target →
      Course b (.code target) es o → Course b (.code pc) es o
  | leave {pc target : Nat} {l : Label} {during rest : List Event} {o : Option ObjRef} :
      b.instrs[pc]? = some (.leave l) → b.target? l = some target →
      Course b (.handlers (b.regionsLeft pc target)) during none → Course b (.code target) rest o →
      Course b (.code pc) (.leaves pc target :: during ++ .resumes target [] :: rest) o
  | leaveThrows {pc target : Nat} {l : Label} {during : List Event} {o : ObjRef} :
      b.instrs[pc]? = some (.leave l) → b.target? l = some target →
      Course b (.handlers (b.regionsLeft pc target)) during (some o) →
      Course b (.code pc) (.leaves pc target :: during) (some o)
  /-- The exception of a finally part takes the place of the one that made it run. -/
  | throws {pc : Nat} {o : ObjRef} {during : List Event} {replaced : Option ObjRef} :
      Course b (.handlers (b.regionsAround pc)) during replaced →
      Course b (.code pc) (.throws pc o :: during) (some (replaced.getD o))
  | done : Course b (.handlers []) [] none
  | handler {r : Region} {regions : List Region} {es rest : List Event} {o : Option ObjRef} :
      r ∈ b.regions → Course b (.code r.finallyStart) es none → Course b (.handlers regions) rest o →
      Course b (.handlers (r :: regions)) (.starts r :: es ++ .ends r :: rest) o
  | handlerThrows {r : Region} {regions : List Region} {es : List Event} {o : ObjRef} :
      r ∈ b.regions → Course b (.code r.finallyStart) es (some o) →
      Course b (.handlers (r :: regions)) (.starts r :: es) (some o)

variable {b : Body} {t : Task} {es : List Event} {o : Option ObjRef}

/-- A run ends with the last exception that came up in it. -/
theorem Course.lastThrown_eq (course : Course b t es o) (before : ObjRef) :
    lastThrown before es = o.getD before := by
  induction course generalizing before with
  | exit => rfl
  | next _ _ _ ih => exact ih before
  | jump _ _ _ _ _ ih => exact ih before
  | leave _ _ _ _ ihDuring ihRest =>
    rw [List.cons_append, lastThrown_cons, lastThrown_append, ihDuring, lastThrown_cons, ihRest]
    rfl
  | leaveThrows _ _ _ ih => exact ih before
  | @throws pc o _ _ _ ih => exact ih o
  | done => rfl
  | handler _ _ _ ih ihRest =>
    rw [List.cons_append, lastThrown_cons, lastThrown_append, ih, lastThrown_cons, ihRest]
    rfl
  | handlerThrows _ _ ih => exact ih before

/-! ## Runs in finally parts -/

/-- The task belongs to the finally part of a region. -/
def Task.Within (b : Body) (r : Region) : Task → Prop
  | code pc => b.Live pc ∧ r.finallyContains pc
  | handlers regions => ∀ q ∈ regions, q.InFinally r

/-- What a run in the finally part of a region starts lies there too, up to the exception that it ends
with. -/
def StaysIn (r : Region) (es : List Event) : Option ObjRef → Prop
  | none => ∀ q ∈ begun es, q.InFinally r
  | some _ => ∃ quiet pc thrown after, es = quiet ++ .throws pc thrown :: after ∧
    r.finallyContains pc ∧ ∀ q ∈ begun quiet, q.InFinally r

theorem StaysIn.behind {r : Region} (stays : StaysIn r es o) (front : List Event)
    (inside : ∀ q ∈ begun front, q.InFinally r) : StaysIn r (front ++ es) o := by
  cases o with
  | none =>
    intro q hq
    rw [begun_append, List.mem_append] at hq
    exact hq.elim (inside q) (stays q)
  | some o =>
    obtain ⟨quiet, pc, thrown, after, rfl, place, begunIn⟩ := stays
    refine ⟨front ++ quiet, pc, thrown, after, by simp, place, fun q hq => ?_⟩
    rw [begun_append, List.mem_append] at hq
    exact hq.elim (inside q) (begunIn q)

variable (nested : b.Nested) (structured : b.Structured)

include nested structured

omit structured in
theorem within_handler {q r : Region} (hq : q ∈ b.regions) (inside : q.InFinally r) :
    (Task.code q.finallyStart).Within b r := by
  have formed := nested.formed q hq
  refine ⟨.entry (.inr ⟨q, hq, rfl⟩), ?_⟩
  exact inside.finallyContains formed (.inr formed.finallyContains_start)

theorem Course.staysIn (course : Course b t es o) {r : Region} (hr : r ∈ b.regions)
    (within : t.Within b r) : StaysIn r es o := by
  induction course with
  | exit => exact fun _ hq => nomatch hq
  | next code falls _ ih =>
    exact ih ⟨.next within.1 code falls, nested.finallyContains_next within.1 code falls hr within.2⟩
  | jump code notLeave hl target _ ih =>
    refine ih ⟨.entry (.inl (List.mem_of_getElem? target)), ?_⟩
    refine nested.finallyContains_of_part? ?_ hr within.2
    exact structured.branch code notLeave hl target
  | leave code target _ _ ihDuring ihRest =>
    have stays := structured.leave code target hr within.2
    have during := ihDuring fun q hq => nested.regionsLeft_inFinally hr within.2 stays hq
    have rest := ihRest ⟨.entry (.inl (List.mem_of_getElem? target)), stays⟩
    refine StaysIn.behind ?_ (.leaves _ _ :: _) during
    exact rest.behind [.resumes _ []] fun _ hq => nomatch hq
  | leaveThrows code target _ ih =>
    have stays := structured.leave code target hr within.2
    have during := ih fun q hq => nested.regionsLeft_inFinally hr within.2 stays hq
    exact during.behind [.leaves _ _] fun _ hq => nomatch hq
  | throws => exact ⟨[], _, _, _, rfl, within.2, fun _ hq => nomatch hq⟩
  | done => exact fun _ hq => nomatch hq
  | @handler q _ _ _ _ hq _ _ ih ihRest =>
    rw [Task.Within, List.forall_mem_cons] at within
    have handler := ih (within_handler nested hq within.1)
    have rest := ihRest within.2
    refine StaysIn.behind ?_ (.starts q :: _) ?_
    · exact rest.behind [.ends q] fun _ hq => nomatch hq
    · exact List.forall_mem_cons.mpr ⟨within.1, handler⟩
  | @handlerThrows q _ _ _ hq _ ih =>
    have handler := ih (within_handler nested hq (within q List.mem_cons_self))
    refine handler.behind [.starts q] fun q' hq' => ?_
    rw [List.mem_singleton.mp hq']
    exact within q List.mem_cons_self

/-! ## Order -/

omit nested structured

/-- Finally parts start in the order of the regions, once each. What else starts lies in the finally
part that was started last. -/
inductive Runs : List Region → List Region → Prop
  | nil : Runs [] []
  | cons {r : Region} {regions inner rest : List Region} :
      (∀ q ∈ inner, q.InFinally r) → Runs regions rest → Runs (r :: regions) (r :: inner ++ rest)

/-- Finally parts run to their ends in the order of the regions, once each. -/
inductive Completes : List Region → List Event → Prop
  | nil : Completes [] []
  | cons {r : Region} {regions : List Region} {es rest : List Event} :
      (∀ q ∈ begun es, q.InFinally r) → Completes regions rest →
      Completes (r :: regions) (.starts r :: es ++ .ends r :: rest)

/-- The finally part of every try part around a place runs once, the innermost first. -/
structure Unwinds (b : Body) (pc : Nat) (es : List Event) : Prop where
  runs : Runs (b.regionsAround pc) (begun es)
  once : (begun es).filter (·.tryContains pc) = b.regionsAround pc

/-- What has to come of an event by the end of the run. -/
def Event.Settled (b : Body) (o : Option ObjRef) (after : List Event) : Event → Prop
  | leaves pc target =>
    (∃ during rest, after = during ++ .resumes target [] :: rest ∧
      Completes (b.regionsLeft pc target) during) ∨
    o.isSome ∧ Unwinds b pc after ∧ ∃ r ∈ b.regionsLeft pc target, ∃ place thrown,
      .throws place thrown ∈ after ∧ r.finallyContains place
  | throws pc thrown => Unwinds b pc after ∧ o = some (lastThrown thrown after)
  | _ => True

/-- Every event of a run is settled by its end. -/
def Orderly (b : Body) (o : Option ObjRef) : List Event → Prop
  | [] => True
  | e :: after => e.Settled b o after ∧ Orderly b o after

theorem Runs.of_append {before after begun : List Region} (runs : Runs (before ++ after) begun) :
    ∃ front back, begun = front ++ back ∧ Runs before front ∧ Runs after back := by
  induction before generalizing begun with
  | nil => exact ⟨[], begun, rfl, .nil, runs⟩
  | cons r before ih =>
    cases runs with
    | cons inside rest =>
      obtain ⟨front, back, rfl, runs, runs'⟩ := ih rest
      exact ⟨_, back, (List.append_assoc _ _ _).symm, .cons inside runs, runs'⟩

theorem Runs.inFinally {r : Region} {regions begun : List Region} (runs : Runs regions begun)
    (inside : ∀ q ∈ regions, q.Formed ∧ q.InFinally r) : ∀ q ∈ begun, q.InFinally r := by
  induction runs with
  | nil => exact fun _ hq => nomatch hq
  | cons inner _ ih =>
    rw [List.forall_mem_cons] at inside
    rw [List.cons_append, List.forall_mem_cons]
    refine ⟨inside.1.2, fun q hq => ?_⟩
    rcases List.mem_append.mp hq with hq | hq
    · exact (inner q hq).trans inside.1.1 inside.1.2
    · exact ih inside.2 q hq

/-- Of the finally parts that start, no other one belongs to a try part around the place. -/
theorem Runs.filter_eq {pc : Nat} {regions begun : List Region} (runs : Runs regions begun)
    (formed : ∀ q ∈ begun, q.Formed) (around : ∀ q ∈ regions, q.tryContains pc) :
    begun.filter (·.tryContains pc) = regions := by
  induction runs with
  | nil => rfl
  | @cons r regions inner rest inside _ ih =>
    rw [List.cons_append, List.forall_mem_cons, List.forall_mem_append] at formed
    rw [List.forall_mem_cons] at around
    have none : inner.filter (·.tryContains pc) = [] := by
      refine List.filter_eq_nil_iff.mpr fun q hq inTry => ?_
      have inFinally := (inside q hq).finallyContains (formed.2.1 q hq) (.inl inTry)
      exact formed.1.not_both around.1 inFinally
    rw [List.cons_append, List.filter_cons_of_pos (by simpa using around.1), List.filter_append, none,
      ih formed.2.2 around.2]
    rfl

theorem Course.mem_of_begun (course : Course b t es o) : ∀ q ∈ begun es, q ∈ b.regions := by
  induction course with
  | exit => exact fun _ hq => nomatch hq
  | next _ _ _ ih => exact ih
  | jump _ _ _ _ _ ih => exact ih
  | leave _ _ _ _ ihDuring ihRest =>
    rw [List.cons_append, begun_leaves, begun_append, begun_resumes]
    exact List.forall_mem_append.mpr ⟨ihDuring, ihRest⟩
  | leaveThrows _ _ _ ih => exact ih
  | throws _ ih => exact ih
  | done => exact fun _ hq => nomatch hq
  | handler hr _ _ ih ihRest =>
    rw [List.cons_append, begun_starts, begun_append, begun_ends]
    exact List.forall_mem_cons.mpr ⟨hr, List.forall_mem_append.mpr ⟨ih, ihRest⟩⟩
  | handlerThrows hr _ ih => exact List.forall_mem_cons.mpr ⟨hr, ih⟩

theorem Event.Settled.append {e : Event} {after : List Event} (settled : e.Settled b none after)
    (o : Option ObjRef) (more : List Event) : e.Settled b o (after ++ more) := by
  cases e with
  | leaves pc target =>
    rcases settled with ⟨during, rest, rfl, completes⟩ | ⟨thrown, -⟩
    · exact .inl ⟨during, rest ++ more, by simp, completes⟩
    · cases thrown
  | throws pc thrown => cases settled.2
  | _ => trivial

theorem Orderly.append (orderly : Orderly b none es) {more : List Event}
    (behind : Orderly b o more) : Orderly b o (es ++ more) := by
  induction es with
  | nil => exact behind
  | cons e es ih => exact ⟨orderly.1.append o more, ih orderly.2⟩

theorem Orderly.of_append {front : List Event} (orderly : Orderly b o (front ++ es)) :
    Orderly b o es := by
  induction front with
  | nil => exact orderly
  | cons e front ih => exact ih orderly.2

include nested

theorem within_start {r : Region} (hr : r ∈ b.regions) : (Task.code r.finallyStart).Within b r :=
  ⟨.entry (.inr ⟨r, hr, rfl⟩), (nested.formed r hr).finallyContains_start⟩

theorem unwinds_of_runs {pc : Nat} (runs : Runs (b.regionsAround pc) (begun es))
    (mem : ∀ q ∈ begun es, q ∈ b.regions) : Unwinds b pc es :=
  ⟨runs, runs.filter_eq (fun q hq => nested.formed q (mem q hq)) fun _ hq =>
    (List.mem_filter.mp hq).2⟩

include structured

theorem Course.completes {regions : List Region} (course : Course b (.handlers regions) es none) :
    Completes regions es := by
  induction regions generalizing es with
  | nil =>
    cases course
    exact .nil
  | cons r regions ih =>
    cases course with
    | handler hr handler rest =>
      exact .cons (handler.staysIn nested structured hr (within_start nested hr)) (ih rest)

/-- An exception that comes out of finally parts came up in one of them. -/
theorem Course.throws_in {regions : List Region} {thrown : ObjRef}
    (course : Course b (.handlers regions) es (some thrown)) :
    ∃ r ∈ regions, ∃ place thrown, .throws place thrown ∈ es ∧ r.finallyContains place := by
  induction regions generalizing es with
  | nil => cases course
  | cons r regions ih =>
    cases course with
    | handler hr handler rest =>
      obtain ⟨q, hq, place, thrown, mem, inside⟩ := ih rest
      exact ⟨q, List.mem_cons_of_mem _ hq, place, thrown, by simp [mem], inside⟩
    | handlerThrows hr handler =>
      obtain ⟨quiet, place, thrown, after, rfl, inside, -⟩ :=
        handler.staysIn nested structured hr (within_start nested hr)
      exact ⟨r, List.mem_cons_self, place, thrown, by simp, inside⟩

/-- What a task runs of the regions around a place, when it is a part of them: an exception that comes
out of them runs all the others too. -/
def Task.Unwound (b : Body) (es : List Event) (o : Option ObjRef) : Task → Prop
  | code _ => True
  | handlers regions => ∀ pc before outer, b.regionsAround pc = before ++ (regions ++ outer) →
    Runs (if o.isSome then regions ++ outer else regions) (begun es)

theorem Course.orderly (course : Course b t es o) : Orderly b o es ∧ t.Unwound b es o := by
  induction course with
  | exit => exact ⟨trivial, trivial⟩
  | next _ _ _ ih => exact ih
  | jump _ _ _ _ _ ih => exact ih
  | leave _ _ during _ ihDuring ihRest =>
    refine ⟨⟨.inl ⟨_, _, rfl, during.completes nested structured⟩, ?_⟩, trivial⟩
    exact ihDuring.1.append ⟨trivial, ihRest.1⟩
  | @leaveThrows pc target _ _ _ _ _ during ih =>
    refine ⟨⟨.inr ⟨rfl, ?_, during.throws_in nested structured⟩, ih.1⟩, trivial⟩
    obtain ⟨outer, around⟩ := nested.regionsLeft_append pc target
    refine unwinds_of_runs nested ?_ during.mem_of_begun
    have runs := ih.2 pc [] outer around
    rwa [if_pos (by rfl), ← around] at runs
  | @throws pc o _ replaced during ih =>
    refine ⟨⟨⟨unwinds_of_runs nested ?_ during.mem_of_begun, ?_⟩, ?_⟩, trivial⟩
    · have runs := ih.2 pc [] [] (by simp)
      rwa [List.append_nil, ite_self] at runs
    · rw [during.lastThrown_eq]
    · cases replaced with
      | none =>
        have alone : Orderly b (some o) (_ ++ []) := ih.1.append trivial
        rwa [List.append_nil] at alone
      | some thrown => exact ih.1
  | done => exact ⟨trivial, fun _ _ _ _ => .nil⟩
  | @handler r regions es rest o hr handler _ ih ihRest =>
    refine ⟨⟨trivial, ih.1.append ⟨trivial, ihRest.1⟩⟩, fun pc before outer around => ?_⟩
    have inside := handler.staysIn nested structured hr (within_start nested hr)
    have runs := ihRest.2 pc (before ++ [r]) outer (by simpa using around)
    rw [begun_append, begun_starts, begun_ends]
    cases o with
    | none => exact .cons inside runs
    | some thrown => exact .cons inside runs
  | @handlerThrows r regions es o hr handler ih =>
    refine ⟨⟨trivial, ih.1⟩, fun pc before outer around => ?_⟩
    obtain ⟨quiet, place, thrown, after, rfl, inside, begunIn⟩ :=
      handler.staysIn nested structured hr (within_start nested hr)
    -- The exception of the finally part runs what is around it there, and then all that was left.
    have unwinds : Unwinds b place after := ih.1.of_append.1.1
    obtain ⟨inner, eq, innerIn⟩ := nested.regionsAround_of_finallyContains around inside
    have runs : Runs (inner ++ (regions ++ outer)) (begun after) := eq ▸ unwinds.runs
    obtain ⟨front, back, split, runsInner, runsOuter⟩ := runs.of_append
    have frontIn := runsInner.inFinally fun q hq => ⟨nested.formed q (innerIn q hq).1, (innerIn q hq).2⟩
    rw [begun_starts, begun_append, begun_throws, split, ← List.append_assoc]
    exact .cons (List.forall_mem_append.mpr ⟨begunIn, frontIn⟩) runsOuter

end LateBind
