import LateBind.Proofs.Instructions

/-! # Ways out of code

A run that throws outside every protected region ends there, and so does a run that calls a method
which throws. A jump out of a region comes to its target by way of the finally part. -/

namespace LateBind.Machine

variable {m : Machine} {f f' : Frame} {s s' s'' : MachineState} {r : ObjRef}

theorem run_error {i : Instr} {n : Nat} (code : f.body.instrs[f.pc]? = some i)
    (outside : f.body.regionsAround f.pc = [])
    (step : Step.instr m (m.callees n) i f s = (.error (.exception r), s')) :
    m.run (n + 1) f s = (.error (.exception r), s') := by
  have attempted : Exec.attempt ((Step.instr m (m.callees n) i).run f) s =
      (.ok (.error (.exception r)), s') := by
    rw [Exec.attempt_apply, StateT.run, step]
  rw [run, code]
  refine (Exec.bind_ok attempted _).trans ?_
  simp only [outside, List.foldlM_nil]
  rfl

theorem run_fatal {i : Instr} {n : Nat} {e : MachineError} (code : f.body.instrs[f.pc]? = some i)
    (step : Step.instr m (m.callees n) i f s = (.error (.fatal e), s')) :
    m.run (n + 1) f s = (.error (.fatal e), s') := by
  have attempted : Exec.attempt ((Step.instr m (m.callees n) i).run f) s =
      (.ok (.error (.fatal e)), s') := by
    rw [Exec.attempt_apply, StateT.run, step]
  rw [run, code]
  exact Exec.bind_ok attempted _

theorem run_ret {pc : Nat} {locals : List Value} {v : Option Value}
    (code : f.body.instrs[pc]? = some .ret) (fits : v.isSome = !f.returnType.isVoid) (n : Nat) :
    ∃ after : Frame, m.run (n + 1) (f.at pc locals (Leads.pushed v [])) s =
      (.ok (.ret v, after), s) := by
  cases v with
  | none =>
    have void : f.returnType.isVoid = true := by simpa using fits.symm
    exact ⟨_, run_exit (f := f.at pc locals []) code (by simp [Step.instr, void]; rfl)⟩
  | some v =>
    have nonvoid : f.returnType.isVoid = false := by simpa using fits.symm
    exact ⟨_, run_exit (f := f.at pc locals [v]) code (by simp [Step.instr, nonvoid]; rfl)⟩

/-! ## Calls with any outcome -/

section Calls

variable {pc n : Nat} {locals stack : List Value} (args : List Value) {method : MethodRef}
  {callee : OwnedMethod} (code : f.body.instrs[pc]? = some (.call method))
  (static : method.hasThis = false) (count : method.params.length = args.length)
  (resolves : m.module.resolveMethod? method.owner method.name method.params = some callee)

include code static count resolves

theorem run_call_ok {v : Option Value} (called : m.invoke n callee args s = (.ok v, s')) :
    m.run (n + 1) (f.at pc locals (args.reverse ++ stack)) s =
      m.run n (f.at (pc + 1) locals (Leads.pushed v stack)) s' := by
  have stepped : Step.instr m (m.callees n) (.call method) (f.at pc locals (args.reverse ++ stack)) s =
      (.ok (.next, f.at pc locals (Leads.pushed v stack)), s') := by
    rw [Leads.instr_call args static count resolves, called]
  exact run_next (f := f.at pc locals (args.reverse ++ stack)) code stepped

theorem run_call_fatal {e : MachineError}
    (called : m.invoke n callee args s = (.error (.fatal e), s')) :
    m.run (n + 1) (f.at pc locals (args.reverse ++ stack)) s = (.error (.fatal e), s') := by
  refine run_fatal (f := f.at pc locals (args.reverse ++ stack)) code ?_
  rw [Leads.instr_call args static count resolves, called]

/-- Outside of regions an exception ends the frame. -/
theorem run_call_exception (outside : f.body.regionsAround pc = [])
    (called : m.invoke n callee args s = (.error (.exception r), s')) :
    m.run (n + 1) (f.at pc locals (args.reverse ++ stack)) s = (.error (.exception r), s') := by
  refine run_error (f := f.at pc locals (args.reverse ++ stack)) code outside ?_
  rw [Leads.instr_call args static count resolves, called]

/-- In a region an exception goes on behind the finally part. -/
theorem run_call_exception_within {region : Region} (around : f.body.regionsAround pc = [region])
    (called : m.invoke n callee args s = (.error (.exception r), s')) :
    m.run (n + 1) (f.at pc locals (args.reverse ++ stack)) s =
      ((m.runFinally n region (f.at pc locals (args.reverse ++ stack)) >>= fun _ =>
        throw (.exception r)) : Exec (Exit × Frame)) s' := by
  have attempted : Exec.attempt ((Step.instr m (m.callees n) (.call method)).run
      (f.at pc locals (args.reverse ++ stack))) s = (.ok (.error (.exception r)), s') := by
    rw [Exec.attempt_apply, StateT.run, Leads.instr_call args static count resolves, called]
  rw [run, code]
  refine (Exec.bind_ok attempted _).trans ?_
  simp only [around, List.foldlM_cons, List.foldlM_nil, bind_pure]

theorem starved_run_call (starved : Starved (m.invoke n callee args s)) :
    Starved (m.run (n + 1) (f.at pc locals (args.reverse ++ stack)) s) := by
  rcases called : m.invoke n callee args s with ⟨result, s'⟩
  rw [called] at starved
  cases starved
  rw [run_call_fatal args code static count resolves called]
  rfl

end Calls

/-! ## Exceptions -/

/-- The run ends with an exception. -/
def Throws (m : Machine) (f : Frame) (s : MachineState) (r : ObjRef) (s' : MachineState) : Prop :=
  ∃ enough, (∀ n, enough ≤ n → m.run n f s = (.error (.exception r), s')) ∧
    ∀ n, n < enough → Starved (m.run n f s)

theorem Leads.throws (leads : m.Leads f s f' s') (throws : m.Throws f' s' r s'') :
    m.Throws f s r s'' := by
  obtain ⟨d, k, go, starve⟩ := leads
  obtain ⟨k', go', starve'⟩ := throws
  refine ⟨max k k' + d, fun n hn => ?_, fun n hn => ?_⟩
  · obtain ⟨n, rfl⟩ : ∃ n', n = n' + d := ⟨n - d, by omega⟩
    rw [go n (by omega), go' n (by omega)]
  · by_cases short : n < k + d
    · exact starve n short
    · obtain ⟨n, rfl⟩ : ∃ n', n = n' + d := ⟨n - d, by omega⟩
      rw [go n (by omega)]
      exact starve' n (by omega)

namespace Throws

variable {i : Instr}

/-- An instruction throws that calls nothing. -/
theorem step (code : f.body.instrs[f.pc]? = some i) (outside : f.body.regionsAround f.pc = [])
    (does : ∀ callees, Step.instr m callees i f s = (.error (.exception r), s')) :
    m.Throws f s r s' := by
  refine ⟨1, fun n hn => ?_, fun n hn => ?_⟩
  · obtain ⟨n, rfl⟩ : ∃ n', n = n' + 1 := ⟨n - 1, by omega⟩
    exact run_error code outside (does _)
  · obtain rfl : n = 0 := by omega
    exact starved_run_zero m f s

variable {pc : Nat} {locals stack : List Value}

theorem throw (code : f.body.instrs[pc]? = some .throw) (outside : f.body.regionsAround pc = []) :
    m.Throws (f.at pc locals (.ref r :: stack)) s r s :=
  step (f := f.at pc locals (.ref r :: stack)) code outside fun _ => rfl

/-- A method throws that is called. -/
theorem call (args : List Value) {method : MethodRef} {callee : OwnedMethod}
    (code : f.body.instrs[pc]? = some (.call method)) (outside : f.body.regionsAround pc = [])
    (static : method.hasThis = false) (count : method.params.length = args.length)
    (resolves : m.module.resolveMethod? method.owner method.name method.params = some callee)
    (ends : m.Ends callee args s (.error (.exception r)) s') :
    m.Throws (f.at pc locals (args.reverse ++ stack)) s r s' := by
  obtain ⟨enough, go, starve⟩ := ends
  refine ⟨enough + 1, fun n hn => ?_, fun n hn => ?_⟩
  · obtain ⟨n, rfl⟩ : ∃ n', n = n' + 1 := ⟨n - 1, by omega⟩
    exact run_call_exception args code static count resolves outside (go n (by omega))
  · cases n with
    | zero => exact starved_run_zero m _ s
    | succ n => exact starved_run_call args code static count resolves (starve n (by omega))

end Throws

section Bodies

variable {callee : OwnedMethod} {body : Body} {args : List Value}

/-- A body that comes to its end with a value. -/
theorem EndsIn.returns {steps enough pc : Nat} {locals stack : List Value} {v : Value}
    (notImport : callee.method.importInfo = none) (hasBody : callee.method.body = some body)
    (nonvoid : callee.method.returnType.isVoid = false)
    (leads : m.LeadsIn steps enough (.start m.module callee body args) s
      ((Frame.start m.module callee body args).at pc locals (v :: stack)) s')
    (code : body.instrs[pc]? = some .ret) :
    m.EndsIn (max enough 1 + steps + 1) callee args s (.ok (some v)) s' := by
  let f : Frame := .start m.module callee body args
  have ret : ∀ callees, Step.instr m callees .ret (f.at pc locals (v :: stack)) s' =
      (.ok (.exit (.ret (some v)), f.at pc locals stack), s') := by
    intro callees
    have nonvoid : f.returnType.isVoid = false := nonvoid
    simp [Step.instr, nonvoid]
  exact EndsIn.ofBody notImport hasBody leads code ret

theorem Ends.returns {pc : Nat} {locals stack : List Value} {v : Value}
    (notImport : callee.method.importInfo = none) (hasBody : callee.method.body = some body)
    (nonvoid : callee.method.returnType.isVoid = false)
    (leads : m.Leads (.start m.module callee body args) s
      ((Frame.start m.module callee body args).at pc locals (v :: stack)) s')
    (code : body.instrs[pc]? = some .ret) : m.Ends callee args s (.ok (some v)) s' := by
  obtain ⟨steps, enough, leads⟩ := leads
  exact ⟨_, EndsIn.returns notImport hasBody nonvoid leads code⟩

/-- A body without a result comes to its end. -/
theorem Ends.done {pc : Nat} {locals stack : List Value}
    (notImport : callee.method.importInfo = none) (hasBody : callee.method.body = some body)
    (isVoid : callee.method.returnType.isVoid = true)
    (leads : m.Leads (.start m.module callee body args) s
      ((Frame.start m.module callee body args).at pc locals stack) s')
    (code : body.instrs[pc]? = some .ret) : m.Ends callee args s (.ok none) s' := by
  let f : Frame := .start m.module callee body args
  have ret : ∀ callees, Step.instr m callees .ret (f.at pc locals stack) s' =
      (.ok (.exit (.ret none), f.at pc locals stack), s') := by
    intro callees
    have isVoid : f.returnType.isVoid = true := isVoid
    simp [Step.instr, isVoid]
  exact Ends.ofBody notImport hasBody leads code ret

/-- A body that throws. -/
theorem Ends.ofThrows (notImport : callee.method.importInfo = none)
    (hasBody : callee.method.body = some body) (throws : m.Throws (.start m.module callee body args) s r s') :
    m.Ends callee args s (.error (.exception r)) s' := by
  obtain ⟨enough, go, starve⟩ := throws
  refine ⟨enough + 1, fun n hn => ?_, fun n hn => ?_⟩
  · obtain ⟨n, rfl⟩ : ∃ n', n = n' + 1 := ⟨n - 1, by omega⟩
    rw [invoke_body notImport hasBody]
    exact Exec.bind_error (go n (by omega)) _
  · cases n with
    | zero => rfl
    | succ n =>
      rw [invoke_body notImport hasBody]
      exact (starve n (by omega)).bind _

end Bodies

/-! ## Ends of frames -/

/-- The frame comes to an end. -/
def Finishes (m : Machine) (f : Frame) (s : MachineState) (r : Except Trap (Option Value))
    (s' : MachineState) : Prop :=
  ∃ enough, (∀ n, enough ≤ n → ∃ after : Frame,
      m.run n f s = (r.map fun v => (.ret v, after), s')) ∧ ∀ n, n < enough → Starved (m.run n f s)

theorem Leads.finishes {r : Except Trap (Option Value)} (leads : m.Leads f s f' s')
    (finishes : m.Finishes f' s' r s'') : m.Finishes f s r s'' := by
  obtain ⟨d, k, go, starve⟩ := leads
  obtain ⟨k', go', starve'⟩ := finishes
  refine ⟨max k k' + d, fun n hn => ?_, fun n hn => ?_⟩
  · obtain ⟨n, rfl⟩ : ∃ n', n = n' + d := ⟨n - d, by omega⟩
    rw [go n (by omega)]
    exact go' n (by omega)
  · by_cases short : n < k + d
    · exact starve n short
    · obtain ⟨n, rfl⟩ : ∃ n', n = n' + d := ⟨n - d, by omega⟩
      rw [go n (by omega)]
      exact starve' n (by omega)

namespace Finishes

variable {pc : Nat} {locals stack : List Value} {e : MachineError}

/-- The frame gives what is on its stack. -/
theorem ret {v : Option Value} (code : f.body.instrs[pc]? = some .ret)
    (fits : v.isSome = !f.returnType.isVoid) :
    m.Finishes (f.at pc locals (Leads.pushed v [])) s (.ok v) s := by
  refine ⟨1, fun n hn => ?_, fun n hn => ?_⟩
  · obtain ⟨n, rfl⟩ : ∃ n', n = n' + 1 := ⟨n - 1, by omega⟩
    exact run_ret code fits n
  · obtain rfl : n = 0 := by omega
    exact starved_run_zero m _ s

/-- An instruction stops the program that calls nothing. -/
theorem fatal {i : Instr} (code : f.body.instrs[pc]? = some i)
    (does : ∀ callees, Step.instr m callees i (f.at pc locals stack) s = (.error (.fatal e), s')) :
    m.Finishes (f.at pc locals stack) s (.error (.fatal e)) s' := by
  refine ⟨1, fun n hn => ⟨f, ?_⟩, fun n hn => ?_⟩
  · obtain ⟨n, rfl⟩ : ∃ n', n = n' + 1 := ⟨n - 1, by omega⟩
    exact run_fatal (f := f.at pc locals stack) code (does _)
  · obtain rfl : n = 0 := by omega
    exact starved_run_zero m _ s

/-- A method stops the program that is called. -/
theorem call (args : List Value) {method : MethodRef} {callee : OwnedMethod}
    (code : f.body.instrs[pc]? = some (.call method)) (static : method.hasThis = false)
    (count : method.params.length = args.length)
    (resolves : m.module.resolveMethod? method.owner method.name method.params = some callee)
    (ends : m.Ends callee args s (.error (.fatal e)) s') :
    m.Finishes (f.at pc locals (args.reverse ++ stack)) s (.error (.fatal e)) s' := by
  obtain ⟨enough, go, starve⟩ := ends
  refine ⟨enough + 1, fun n hn => ⟨f, ?_⟩, fun n hn => ?_⟩
  · obtain ⟨n, rfl⟩ : ∃ n', n = n' + 1 := ⟨n - 1, by omega⟩
    exact run_call_fatal args code static count resolves (go n (by omega))
  · cases n with
    | zero => exact starved_run_zero m _ s
    | succ n => exact starved_run_call args code static count resolves (starve n (by omega))

/-- A member of the framework's library stops the program. -/
theorem callRuntime (args : List Value) {method : MethodRef} {member : RuntimeMember}
    (code : f.body.instrs[pc]? = some (.call method))
    (count : method.params.length + (if method.hasThis then 1 else 0) = args.length)
    (missing : m.module.resolveMethod? method.owner method.name method.params = none)
    (known : RuntimeMember.ofRef? method = some member)
    (fails : member.call m.world.catalog.platform args s = (.error (.fatal e), s')) :
    m.Finishes (f.at pc locals (args.reverse ++ stack)) s (.error (.fatal e)) s' :=
  fatal code fun _ => by
    simp only [Step.instr, Step.perform, count, Step.bind_apply, Leads.popArgs_apply,
      Step.callMethod, missing, known, Step.lift_apply, fails]

end Finishes

/-- A call ends as its body does. -/
theorem Ends.ofFinishes {callee : OwnedMethod} {body : Body} {args : List Value}
    {result : Except Trap (Option Value)} (notImport : callee.method.importInfo = none)
    (hasBody : callee.method.body = some body)
    (finishes : m.Finishes (.start m.module callee body args) s result s') :
    m.Ends callee args s result s' := by
  obtain ⟨enough, go, starve⟩ := finishes
  refine ⟨enough + 1, fun n hn => ?_, fun n hn => ?_⟩
  · obtain ⟨n, rfl⟩ : ∃ n', n = n' + 1 := ⟨n - 1, by omega⟩
    obtain ⟨after, ran⟩ := go n (by omega)
    rw [invoke_body notImport hasBody]
    cases result with
    | ok v => exact Exec.bind_ok ran _
    | error t => exact Exec.bind_error ran _
  · cases n with
    | zero => rfl
    | succ n =>
      rw [invoke_body notImport hasBody]
      exact (starve n (by omega)).bind _

/-! ## Finally parts -/

/-- How the finally part of a region ends: control goes on, or a fault stops the program. -/
inductive Cleanup (m : Machine) (f : Frame) (region : Region) (locals : List Value)
    (s : MachineState) : Option MachineError → List Value → MachineState → Prop
  | passes {pc : Nat} {locals' stack : List Value} {s' : MachineState}
      (handler : m.Leads (f.at region.finallyStart locals []) s (f.at pc locals' stack) s')
      (ends : f.body.instrs[pc]? = some .endfinally) : Cleanup m f region locals s none locals' s'
  | stops {e : MachineError} {s' : MachineState}
      (handler : m.Finishes (f.at region.finallyStart locals []) s (.error (.fatal e)) s') :
      Cleanup m f region locals s (some e) locals s'

/-- What is in the place of a result when a finally part may have stopped the program. -/
def orFault {α : Type} (fault : Option MachineError) (r : Except Trap α) : Except Trap α :=
  fault.elim r fun e => .error (.fatal e)

theorem Cleanup.runFinally {region : Region} {locals locals' : List Value}
    {fault : Option MachineError} (cleanup : m.Cleanup f region locals s fault locals' s') :
    ∃ enough, ∀ pc stack, (∀ n, enough ≤ n → ∃ pc',
        m.runFinally n region (f.at pc locals stack) s =
          (orFault fault (.ok (f.at pc' locals' stack)), s')) ∧
      ∀ n, n < enough → Starved (m.runFinally n region (f.at pc locals stack) s) := by
  cases cleanup with
  | @passes pc' _ stack' _ handler ends =>
    obtain ⟨d, k, go, starve⟩ := handler
    have finish (n : Nat) : m.run (n + 1) (f.at pc' locals' stack') s' =
        (.ok (.endfinally, f.at pc' locals' stack'), s') :=
      run_exit (f := f.at pc' locals' stack') ends rfl
    refine ⟨max k 1 + d + 1, fun pc stack => ⟨fun n hn => ⟨pc', ?_⟩, fun n hn => ?_⟩⟩
    · obtain ⟨n, rfl⟩ : ∃ n', n = (n' + 1) + d + 1 := ⟨n - d - 2, by omega⟩
      rw [Machine.runFinally]
      exact Exec.bind_ok ((go (n + 1) (by omega)).trans (finish n)) _
    · cases n with
      | zero => rfl
      | succ n =>
        rw [Machine.runFinally]
        refine Starved.bind ?_ _
        by_cases starved : n < k + d
        · exact starve n starved
        · obtain rfl : n = 0 + d := by omega
          change Starved (m.run (0 + d) (f.at region.finallyStart locals []) s)
          rw [go 0 (by omega)]
          exact starved_run_zero m _ s'
  | stops handler =>
    obtain ⟨k, go, starve⟩ := handler
    refine ⟨k + 1, fun pc stack => ⟨fun n hn => ⟨pc, ?_⟩, fun n hn => ?_⟩⟩
    · obtain ⟨n, rfl⟩ : ∃ n', n = n' + 1 := ⟨n - 1, by omega⟩
      obtain ⟨after, ran⟩ := go n (by omega)
      rw [Machine.runFinally]
      exact Exec.bind_error ran _
    · cases n with
      | zero => rfl
      | succ n =>
        rw [Machine.runFinally]
        exact (starve n (by omega)).bind _

section Leave

variable {pc place : Nat} {l : Label} {region : Region} {locals locals' stack : List Value}
  (code : f.body.instrs[pc]? = some (.leave l)) (target : f.body.target? l = some place)
  (left : f.body.regionsLeft pc place = [region])

include code target left

theorem run_leave (n : Nat) : m.run (n + 1) (f.at pc locals stack) s =
    ((m.runFinally n region (f.at pc locals []) >>= fun after =>
      m.run n { after with pc := place }) : Exec (Exit × Frame)) s := by
  have step : Step.instr m (m.callees n) (.leave l) (f.at pc locals stack) s =
      (.ok (.leave place, f.at pc locals stack), s) := by
    simp [Step.instr, Step.target, target]
  have attempted : Exec.attempt ((Step.instr m (m.callees n) (.leave l)).run
      (f.at pc locals stack)) s = (.ok (.ok (.leave place, f.at pc locals stack)), s) := by
    rw [Exec.attempt_apply, StateT.run, step]
  rw [run, code]
  refine (Exec.bind_ok attempted _).trans ?_
  simp only [left, List.foldlM_cons, List.foldlM_nil, bind_pure]

theorem Leads.cleanup (cleanup : m.Cleanup f region locals s none locals' s') :
    m.Leads (f.at pc locals stack) s (f.at place locals' []) s' := by
  obtain ⟨enough, runs⟩ := cleanup.runFinally
  obtain ⟨go, starve⟩ := runs pc []
  refine ⟨1, enough, fun n hn => ?_, fun n hn => ?_⟩
  · obtain ⟨pc', ran⟩ := go n hn
    rw [run_leave code target left]
    exact Exec.bind_ok ran _
  · cases n with
    | zero => exact starved_run_zero m _ s
    | succ n =>
      rw [run_leave code target left]
      exact (starve n (by omega)).bind _

theorem Leads.leave {pc' : Nat} {stack' : List Value}
    (handler : m.Leads (f.at region.finallyStart locals []) s (f.at pc' locals' stack') s')
    (ends : f.body.instrs[pc']? = some .endfinally) :
    m.Leads (f.at pc locals stack) s (f.at place locals' []) s' :=
  .cleanup code target left (.passes handler ends)

/-- A fault of the finally part stops the program. -/
theorem Finishes.leave {e : MachineError} (cleanup : m.Cleanup f region locals s (some e) locals' s') :
    m.Finishes (f.at pc locals stack) s (.error (.fatal e)) s' := by
  obtain ⟨enough, runs⟩ := cleanup.runFinally
  obtain ⟨go, starve⟩ := runs pc []
  refine ⟨enough + 1, fun n hn => ⟨f, ?_⟩, fun n hn => ?_⟩
  · obtain ⟨n, rfl⟩ : ∃ n', n = n' + 1 := ⟨n - 1, by omega⟩
    obtain ⟨pc', ran⟩ := go n (by omega)
    rw [run_leave code target left]
    exact Exec.bind_error ran _
  · cases n with
    | zero => exact starved_run_zero m _ s
    | succ n =>
      rw [run_leave code target left]
      exact (starve n (by omega)).bind _

end Leave

end LateBind.Machine
