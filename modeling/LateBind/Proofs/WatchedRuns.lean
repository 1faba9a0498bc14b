import LateBind.Proofs.Flows
import LateBind.Proofs.UnfinishedRuns

/-! # Runs and their courses

A watched run does the same as a run and also tells what it does at its regions. What it has told is a
course of its body so far, however much fuel it was given; unless it ends with a fault, it is a whole
one. -/

namespace LateBind

/-! ## Watched computations -/

/-- A computation that also tells what it does at regions. -/
def Watched (α : Type) := MachineState → (Except Trap α × MachineState) × List Event

namespace Watched

variable {α β : Type}

instance : Monad Watched where
  pure a := fun s => ((.ok a, s), [])
  bind x g := fun s =>
    match x s with
    | ((.ok a, s'), es) => ((g a s').1, es ++ (g a s').2)
    | ((.error e, s'), es) => ((.error e, s'), es)

def lift (x : Exec α) : Watched α := fun s => (x s, [])

def tell (e : Event) : Watched Unit := fun s => ((.ok (), s), [e])

/-- What is computed, with nothing told. -/
def silent (x : Watched α) : Exec α := fun s => (x s).1

@[simp]
theorem silent_pure (a : α) : silent (pure a) = pure a := rfl

@[simp]
theorem silent_lift (x : Exec α) : silent (lift x) = x := rfl

@[simp]
theorem silent_tell (e : Event) : silent (tell e) = pure () := rfl

@[simp]
theorem silent_bind (x : Watched α) (g : α → Watched β) :
    silent (x >>= g) = silent x >>= fun a => silent (g a) := by
  funext s
  rw [Exec.bind_apply]
  change (match x s with
    | ((.ok a, s'), es) => ((g a s').1, es ++ (g a s').2)
    | ((.error e, s'), es) => ((.error e, s'), es)).1 = _
  unfold silent
  rcases x s with ⟨⟨r, s'⟩, es⟩
  cases r <;> rfl

theorem silent_foldlM (g : β → α → Watched β) (l : List α) (b : β) :
    silent (l.foldlM g b) = l.foldlM (fun b a => silent (g b a)) b := by
  induction l generalizing b with
  | nil => rfl
  | cons a l ih => simp only [List.foldlM_cons, silent_bind, ih]

/-- The ways through two computations. -/
theorem of_bind {x : Watched α} {g : α → Watched β} {s s'' : MachineState} {r : Except Trap β}
    {es : List Event} (h : (x >>= g) s = ((r, s''), es)) :
    (∃ a s' front back, x s = ((.ok a, s'), front) ∧ g a s' = ((r, s''), back) ∧
      es = front ++ back) ∨
    ∃ e, r = .error e ∧ x s = ((.error e, s''), es) := by
  change (match x s with
    | ((.ok a, s'), es) => ((g a s').1, es ++ (g a s').2)
    | ((.error e, s'), es) => ((.error e, s'), es)) = _ at h
  rcases eq : x s with ⟨⟨r', s'⟩, front⟩
  rw [eq] at h
  cases r' with
  | ok a =>
    simp only [Prod.mk.injEq] at h
    exact .inl ⟨a, s', front, (g a s').2, rfl, Prod.ext h.1 rfl, h.2.symm⟩
  | error e =>
    cases h
    exact .inr ⟨e, rfl, rfl⟩

theorem of_tell {e : Event} {g : Unit → Watched β} {s s' : MachineState} {r : Except Trap β}
    {es : List Event} (h : (tell e >>= g) s = ((r, s'), es)) :
    ∃ back, g () s = ((r, s'), back) ∧ es = e :: back := by
  obtain ⟨a, s₁, front, back, told, rest, rfl⟩ | ⟨e, -, told⟩ := of_bind h
  · cases told
    exact ⟨back, rest, rfl⟩
  · cases told

end Watched

/-! ## Watched runs -/

namespace Machine

open Watched

mutual

/-- A run that tells what it does at its regions. -/
def watchedRun (m : Machine) : Nat → Frame → Watched (Exit × Frame)
  | 0, _ => lift (Exec.fatal .outOfFuel)
  | fuel + 1, f =>
    match f.body.instrs[f.pc]? with
    | none => lift (Exec.unsupported (.endOfCode f.name))
    | some i => do
      match ← lift (Exec.attempt ((Step.instr m (m.callees fuel) i).run f)) with
      | .ok (.next, after) => watchedRun m fuel { after with pc := f.pc + 1 }
      | .ok (.jump target, after) => watchedRun m fuel { after with pc := target }
      | .ok (.leave target, after) => do
        tell (.leaves f.pc target)
        let regions := f.body.regionsLeft f.pc target
        let after ← regions.foldlM (fun f r => watchedFinally m fuel r f) { after with stack := [] }
        tell (.resumes target after.stack)
        watchedRun m fuel { after with pc := target }
      | .ok (.exit how, after) => return (how, after)
      | .error (.exception object) => do
        tell (.throws f.pc object)
        let regions := f.body.regionsAround f.pc
        let _ ← regions.foldlM (fun f r => watchedFinally m fuel r f) f
        lift (throw (.exception object))
      | .error (.fatal e) => lift (Exec.fatal e)

/-- Runs the finally part of a region, and tells when it starts and ends. -/
def watchedFinally (m : Machine) : Nat → Region → Frame → Watched Frame
  | 0, _, _ => lift (Exec.fatal .outOfFuel)
  | fuel + 1, r, f => do
    tell (.starts r)
    let (how, after) ← watchedRun m fuel { f with stack := [], pc := r.finallyStart }
    match how with
    | .endfinally =>
      tell (.ends r)
      return { after with stack := f.stack }
    | .ret _ => lift (Exec.unsupported (.returnInFinally f.name))

end

/-- A watched run is a run. -/
theorem silent_watched (m : Machine) (n : Nat) :
    (∀ f, silent (m.watchedRun n f) = m.run n f) ∧
      ∀ r f, silent (m.watchedFinally n r f) = m.runFinally n r f := by
  induction n with
  | zero => exact ⟨fun _ => rfl, fun _ _ => rfl⟩
  | succ n ih =>
    obtain ⟨ihRun, ihFinally⟩ := ih
    have all (regions : List Region) (f : Frame) :
        silent (regions.foldlM (fun f r => m.watchedFinally n r f) f) =
          regions.foldlM (fun f r => m.runFinally n r f) f := by
      simp only [silent_foldlM, ihFinally]
    refine ⟨fun f => ?_, fun r f => ?_⟩
    · rw [watchedRun, run]
      cases f.body.instrs[f.pc]? with
      | none => rfl
      | some i =>
        rw [silent_bind, silent_lift]
        refine congrArg _ (funext fun outcome => ?_)
        cases outcome with
        | ok result =>
          obtain ⟨flow, after⟩ := result
          cases flow with
          | next => exact ihRun _
          | jump target => exact ihRun _
          | leave target => simp only [silent_bind, silent_tell, pure_bind, all, ihRun]
          | exit how => rfl
        | error e =>
          cases e with
          | exception object => simp only [silent_bind, silent_tell, pure_bind, all, silent_lift]
          | fatal e => rfl
    · rw [watchedFinally, runFinally]
      simp only [silent_bind, silent_tell, pure_bind, ihRun]
      refine congrArg _ (funext fun outcome => ?_)
      obtain ⟨how, after⟩ := outcome
      cases how <;> rfl

/-! ## Courses of runs -/

/-- The exception that a computation ends with. -/
def thrown? {α : Type} : Except Trap α → Option ObjRef
  | .error (.exception o) => some o
  | _ => none

/-- The computation does not end with a fault. -/
def Survives {α : Type} (r : Except Trap α) : Prop := ∀ e, r ≠ .error (.fatal e)

/-- What was told of a task is a course so far, and unless there was a fault it is a whole one. -/
structure Told {α : Type} (b : Body) (t : Task) (es : List Event) (r : Except Trap α) : Prop where
  soFar : Underway b t es
  whole : Survives r → Course b t es (thrown? r)

/-- What a watched run tells is told of the code of its body, and it stays there. -/
def Courses (m : Machine) (n : Nat) : Prop :=
  ∀ f s r s' es, m.watchedRun n f s = ((r, s'), es) →
    Told f.body (.code f.pc) es r ∧ ∀ how f', r = .ok (how, f') → f'.body = f.body

/-- A finally part puts the stack back and tells of its start and of its end, or it throws. A fault may
keep it from its end, or from its start. -/
def Handles (m : Machine) (n : Nat) : Prop :=
  ∀ q f s r s' es, m.watchedFinally n q f s = ((r, s'), es) →
    (∃ inner f', r = .ok f' ∧ f'.body = f.body ∧ f'.stack = f.stack ∧
      es = .starts q :: (inner ++ [.ends q]) ∧ Course f.body (.code q.finallyStart) inner none) ∨
    (∃ inner o, r = .error (.exception o) ∧ es = .starts q :: inner ∧
      Course f.body (.code q.finallyStart) inner (some o)) ∨
    ∃ e, r = .error (.fatal e) ∧
      (es = [] ∨ ∃ inner, es = .starts q :: inner ∧ Underway f.body (.code q.finallyStart) inner)

variable {m : Machine} {n : Nat}

theorem survives_ok {α : Type} {a : α} : Survives (.ok a : Except Trap α) := by
  rintro e ⟨⟩

theorem survives_exception {α : Type} {o : ObjRef} :
    Survives (.error (.exception o) : Except Trap α) := by
  rintro e ⟨⟩

theorem not_survives_fatal {α : Type} {e : MachineError} :
    ¬Survives (.error (.fatal e) : Except Trap α) := fun survives => survives e rfl

theorem told_of_course {α : Type} {b : Body} {t : Task} {es : List Event} {r : Except Trap α}
    (course : Course b t es (thrown? r)) : Told b t es r := ⟨course.underway, fun _ => course⟩

theorem told_fatal {α : Type} {b : Body} {t : Task} {es : List Event} {e : MachineError}
    (underway : Underway b t es) : Told b t es (.error (.fatal e) : Except Trap α) :=
  ⟨underway, fun survives => absurd survives not_survives_fatal⟩

theorem handles_succ (courses : Courses m n) : Handles m (n + 1) := by
  intro q f s r s' es run
  rw [watchedFinally] at run
  obtain ⟨told, run', rfl⟩ := of_tell run
  obtain ⟨⟨how, after⟩, s₁, inner, back, body, ending, rfl⟩ | ⟨e, rfl, body⟩ := of_bind run'
  · obtain ⟨told, stays⟩ := courses _ _ _ _ _ body
    have same := stays _ _ rfl
    cases how with
    | endfinally =>
      cases ending
      exact .inl ⟨inner, _, rfl, same, rfl, rfl, told.whole survives_ok⟩
    | ret v =>
      cases ending
      exact .inr (.inr ⟨_, rfl, .inr ⟨inner, by rw [List.append_nil], told.soFar⟩⟩)
  · obtain ⟨course, -⟩ := courses _ _ _ _ _ body
    cases e with
    | exception o => exact .inr (.inl ⟨told, o, rfl, rfl, course.whole survives_exception⟩)
    | fatal e => exact .inr (.inr ⟨e, rfl, .inr ⟨told, rfl, course.soFar⟩⟩)

/-- What finally parts tell is told of them. -/
theorem Handles.told (handles : Handles m n) {regions : List Region} {f : Frame}
    {s s' : MachineState} {r : Except Trap Frame} {es : List Event}
    (mem : ∀ q ∈ regions, q ∈ f.body.regions)
    (run : regions.foldlM (fun f q => m.watchedFinally n q f) f s = ((r, s'), es)) :
    Told f.body (.handlers regions) es r ∧
      ∀ f', r = .ok f' → f'.body = f.body ∧ f'.stack = f.stack := by
  induction regions generalizing f s es with
  | nil =>
    cases run
    refine ⟨told_of_course .done, fun f' eq => ?_⟩
    cases eq
    exact ⟨rfl, rfl⟩
  | cons q regions ih =>
    rw [List.forall_mem_cons] at mem
    rw [List.foldlM_cons] at run
    obtain ⟨f₁, s₁, front, back, handler, rest, rfl⟩ | ⟨e, rfl, handler⟩ := of_bind run
    · obtain ⟨inner, f', eq, body, stack, rfl, course⟩ | ⟨inner, o, eq, -⟩ | ⟨e, eq, -⟩ :=
        handles _ _ _ _ _ _ handler
      case inr.inl => cases eq
      case inr.inr => cases eq
      cases eq
      obtain ⟨told, frame⟩ := ih (by rw [body]; exact mem.2) rest
      rw [body] at told
      rw [body, stack] at frame
      refine ⟨⟨by simpa using Underway.handler mem.1 course told.soFar, fun survives => ?_⟩, frame⟩
      simpa using Course.handler mem.1 course (told.whole survives)
    · refine ⟨?_, fun f' eq => by cases eq⟩
      obtain ⟨inner, f', eq, -⟩ | ⟨inner, o, eq, rfl, course⟩ | ⟨fault, eq, told⟩ :=
        handles _ _ _ _ _ _ handler
      · cases eq
      · cases eq
        exact told_of_course (.handlerThrows mem.1 course)
      · cases eq
        rcases told with rfl | ⟨inner, rfl, underway⟩
        · exact told_fatal .now
        · exact told_fatal (.inHandler mem.1 underway)

/-- What a run tells that goes on at a place. -/
theorem Courses.go (courses : Courses m n) {f after : Frame} {place : Nat} {s s' : MachineState}
    {r : Except Trap (Exit × Frame)} {es : List Event} (same : after.body = f.body)
    (run : m.watchedRun n { after with pc := place } s = ((r, s'), es)) :
    Told f.body (.code place) es r ∧ ∀ how f', r = .ok (how, f') → f'.body = f.body := by
  have told := courses _ _ _ _ _ run
  rwa [show ({ after with pc := place } : Frame).body = f.body from same] at told

/-- What a run tells that leaves regions. -/
theorem Courses.leave (courses : Courses m n) (handles : Handles m n) {f after : Frame} {l : Label}
    {target : Nat} {s s' : MachineState} {r : Except Trap (Exit × Frame)} {es : List Event}
    (code : f.body.instrs[f.pc]? = some (.leave l)) (goes : f.body.target? l = some target)
    (same : after.body = f.body)
    (run : (do
      let after ← (f.body.regionsLeft f.pc target).foldlM (fun f r => m.watchedFinally n r f)
        { after with stack := [] }
      tell (.resumes target after.stack)
      m.watchedRun n { after with pc := target }) s = ((r, s'), es)) :
    Told f.body (.code f.pc) (.leaves f.pc target :: es) r ∧
      ∀ how f', r = .ok (how, f') → f'.body = f.body := by
  have mem : ∀ q ∈ f.body.regionsLeft f.pc target,
      q ∈ ({ after with stack := [] } : Frame).body.regions := fun q hq =>
    same ▸ (List.mem_filter.mp hq).1
  obtain ⟨after₁, s₂, during, back, parts, arrived, rfl⟩ | ⟨e, rfl, parts⟩ := of_bind run
  · obtain ⟨told, frame⟩ := handles.told mem parts
    have during' := told.whole survives_ok
    rw [show ({ after with stack := [] } : Frame).body = f.body from same] at during'
    obtain ⟨same₁, stack⟩ := frame after₁ rfl
    obtain ⟨rest, onwards, rfl⟩ := of_tell arrived
    obtain ⟨told, stays⟩ := courses.go (same₁.trans same) onwards
    rw [stack]
    exact ⟨⟨.left code goes during' told.soFar,
      fun survives => .leave code goes during' (told.whole survives)⟩, stays⟩
  · obtain ⟨told, -⟩ := handles.told mem parts
    rw [show ({ after with stack := [] } : Frame).body = f.body from same] at told
    refine ⟨?_, fun how f' eq => by cases eq⟩
    cases e with
    | exception o => exact told_of_course (.leaveThrows code goes (told.whole survives_exception))
    | fatal e => exact told_fatal (.leaving code goes told.soFar)

/-- What a run tells that an exception ends. -/
theorem Handles.unwind (handles : Handles m n) {f : Frame} {object : ObjRef} {s s' : MachineState}
    {r : Except Trap (Exit × Frame)} {es : List Event}
    (run : (do
      let _ ← (f.body.regionsAround f.pc).foldlM (fun f r => m.watchedFinally n r f) f
      lift (throw (Trap.exception object))) s = ((r, s'), es)) :
    Told f.body (.code f.pc) (.throws f.pc object :: es) r ∧
      ∀ how f', r = .ok (how, f') → f'.body = f.body := by
  have mem : ∀ q ∈ f.body.regionsAround f.pc, q ∈ f.body.regions := fun q hq =>
    (List.mem_filter.mp hq).1
  obtain ⟨after, s₂, during, back, parts, rethrow, rfl⟩ | ⟨e, rfl, parts⟩ := of_bind run
  · have during' := (handles.told mem parts).1.whole survives_ok
    cases rethrow
    rw [List.append_nil]
    exact ⟨told_of_course (.throws during'), fun how f' eq => by cases eq⟩
  · obtain ⟨told, -⟩ := handles.told mem parts
    refine ⟨?_, fun how f' eq => by cases eq⟩
    cases e with
    | exception o => exact told_of_course (.throws (told.whole survives_exception))
    | fatal e => exact told_fatal (.throws told.soFar)

theorem courses_succ (courses : Courses m n) (handles : Handles m n) : Courses m (n + 1) := by
  intro f s r s' es run
  rw [watchedRun] at run
  cases code : f.body.instrs[f.pc]? with
  | none =>
    rw [code] at run
    cases run
    exact ⟨told_fatal .now, fun how f' eq => by cases eq⟩
  | some i =>
    rw [code] at run
    obtain ⟨outcome, s₁, front, back, step, run', rfl⟩ | ⟨e, rfl, step⟩ := of_bind run
    case inr => cases step
    rcases does : Step.instr m (m.callees n) i f s with ⟨r', s₁'⟩
    have attempted : Exec.attempt ((Step.instr m (m.callees n) i).run f) s = (.ok r', s₁') := by
      rw [Exec.attempt_apply, StateT.run, does]
    rw [lift, attempted] at step
    cases step
    match outcome with
    | .ok (.next, after) =>
      obtain ⟨told, stays⟩ := courses.go (Step.stays_instr _ _ _ _ _ _ _ _ does) run'
      have falls := Step.goes_instr m _ i _ _ _ _ _ does
      exact ⟨⟨.next code falls told.soFar,
        fun survives => .next code falls (told.whole survives)⟩, stays⟩
    | .ok (.jump target, after) =>
      obtain ⟨told, stays⟩ := courses.go (Step.stays_instr _ _ _ _ _ _ _ _ does) run'
      obtain ⟨other, l, hl, goes⟩ := Step.goes_instr m _ i _ _ _ _ _ does
      exact ⟨⟨.jump code other hl goes told.soFar,
        fun survives => .jump code other hl goes (told.whole survives)⟩, stays⟩
    | .ok (.leave target, after) =>
      obtain ⟨l, rfl, goes⟩ := Step.goes_instr m _ i _ _ _ _ _ does
      obtain ⟨told, leaving, rfl⟩ := of_tell run'
      exact courses.leave handles code goes (Step.stays_instr _ _ _ _ _ _ _ _ does) leaving
    | .ok (.exit how, after) =>
      cases run'
      refine ⟨told_of_course .exit, fun how f' eq => ?_⟩
      cases eq
      exact Step.stays_instr _ _ _ _ _ _ _ _ does
    | .error (.exception object) =>
      obtain ⟨told, unwinding, rfl⟩ := of_tell run'
      exact handles.unwind unwinding
    | .error (.fatal e) =>
      cases run'
      exact ⟨told_fatal .now, fun how f' eq => by cases eq⟩

theorem courses (m : Machine) (n : Nat) : Courses m n ∧ Handles m n := by
  induction n with
  | zero =>
    refine ⟨fun f s r s' es run => ?_, fun q f s r s' es run => ?_⟩
    · cases run
      exact ⟨told_fatal .now, fun how f' eq => by cases eq⟩
    · cases run
      exact .inr (.inr ⟨_, rfl, .inl rfl⟩)
  | succ n ih => exact ⟨courses_succ ih.1 ih.2, handles_succ ih.1⟩

end Machine

/-- In a body that an emitter has made, whose branches keep to their regions, a run that meets no fault
settles every `leave` and every exception: each finally part that it has to run runs once, from the
inside out. However long a run goes on, what it has done of this up to any time is in that order. The
parts are those of the regions that control leaves, or that the exception is in. -/
theorem runs_finally_parts_once {calls : List Emitter.Call} {b : Body}
    (made : (Emitter.ofCalls calls).finish = .ok b) (structured : b.Structured) (m : Machine)
    (fuel : Nat) {f : Frame} (body : f.body = b) (s : MachineState) :
    (m.watchedRun fuel f s).1 = m.run fuel f s ∧
      (Machine.Survives (m.run fuel f s).1 →
        Orderly b (Machine.thrown? (m.run fuel f s).1) (m.watchedRun fuel f s).2) ∧
      OrderlySoFar b (m.watchedRun fuel f s).2 ∧
      ∀ pc, (b.regionsAround pc).Pairwise Region.InTry ∧
        (∀ r, r ∈ b.regionsAround pc ↔ r ∈ b.regions ∧ r.tryStart ≤ pc ∧ pc < r.tryEnd) ∧
        ∀ target, (∃ outer, b.regionsAround pc = b.regionsLeft pc target ++ outer) ∧
          ∀ r, r ∈ b.regionsLeft pc target ↔ r ∈ b.regions ∧ (r.tryStart ≤ pc ∧ pc < r.tryEnd) ∧
            ¬(r.tryStart ≤ target ∧ target < r.tryEnd) := by
  have nested := Emitter.nested_of_finish made
  have silent : (m.watchedRun fuel f s).1 = m.run fuel f s :=
    congrFun ((Machine.silent_watched m fuel).1 f) s
  refine ⟨silent, fun survives => ?_, ?_, fun pc => ⟨nested.pairwise_regionsAround pc, fun r => ?_,
    fun target => ⟨nested.regionsLeft_append pc target, fun r => ?_⟩⟩⟩
  · rw [← silent] at survives ⊢
    subst body
    exact (((Machine.courses m fuel).1 f s _ _ _ rfl).1.whole survives |>.orderly nested structured).1
  · subst body
    exact (((Machine.courses m fuel).1 f s _ _ _ rfl).1.soFar.orderlySoFar nested structured).1
  · simp [Body.regionsAround, Region.tryContains]
  · simp [Body.regionsLeft, Region.tryContains, imp_iff_not_or]

/-- Two try parts, one in the other. The inner one throws, and so does its finally part. -/
def rethrowing : List Emitter.Call :=
  [.beginTry, .beginTry, .instr .ldnull, .instr .throw, .beginFinally, .instr .ldnull, .instr .throw,
    .endTry, .beginFinally, .endTry, .instr .ret]

def rethrowingBody : Body :=
  { locals := []
    instrs := [.ldnull, .throw, .ldnull, .throw, .leave ⟨0⟩, .endfinally, .ret]
    labels := [6, 4]
    regions := [⟨0, 2, 2, 4⟩, ⟨0, 5, 5, 6⟩]
    initLocals := true
    maxStack := 1 }

theorem finish_rethrowing : (Emitter.ofCalls rethrowing).finish = .ok rethrowingBody := by
  rfl

theorem runs_finally_parts_once_rethrowing :
    let m : Machine := ⟨.start "m" Uuid.zero, .empty .linux⟩
    let f : Frame := ⟨"F", .void, rethrowingBody, [], [], [], 0⟩
    let s : MachineState := ⟨.start, [], #[], []⟩
    let events : List Event :=
      [.throws 1 ⟨0⟩, .starts ⟨0, 2, 2, 4⟩, .throws 3 ⟨1⟩, .starts ⟨0, 5, 5, 6⟩,
        .ends ⟨0, 5, 5, 6⟩]
    (Emitter.ofCalls rethrowing).finish = .ok rethrowingBody ∧ rethrowingBody.Structured ∧
      (m.run 8 f s).1 = .error (.exception ⟨1⟩) ∧ (m.watchedRun 8 f s).2 = events ∧
      Orderly rethrowingBody (some ⟨1⟩) events ∧
      (m.run 6 f s).1 = .error (.fatal .outOfFuel) ∧ (m.watchedRun 6 f s).2 = events.take 4 ∧
      OrderlySoFar rethrowingBody (events.take 4) := by
  intro m f s events
  have structured : rethrowingBody.Structured := by decide +kernel
  have outcome : (m.run 8 f s).1 = .error (.exception ⟨1⟩) := by decide +kernel
  have told : (m.watchedRun 8 f s).2 = events := by decide +kernel
  have survives : Machine.Survives (m.run 8 f s).1 := by
    rw [outcome]
    exact Machine.survives_exception
  have orderly := (runs_finally_parts_once finish_rethrowing structured m 8 (f := f) rfl s).2.1 survives
  rw [outcome, told] at orderly
  have starved : (m.run 6 f s).1 = .error (.fatal .outOfFuel) := by decide +kernel
  have front : (m.watchedRun 6 f s).2 = events.take 4 := by decide +kernel
  have soFar := (runs_finally_parts_once finish_rethrowing structured m 6 (f := f) rfl s).2.2.1
  rw [front] at soFar
  exact ⟨finish_rethrowing, structured, outcome, told, orderly, starved, front, soFar⟩

end LateBind
