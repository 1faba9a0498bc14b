import LateBind.Proofs.Exits

/-! # Waiting for native code

A run that calls native code gets to the call with fuel enough, and what the call comes to decides how
the run ends. With some fuel the native code may do something else than with more, so the two parts of
such a run are counted apart. -/

namespace LateBind.Machine

/-- What native code comes to, and what it leaves, with so much fuel. -/
abbrev NativeRun := Nat → Except Trap (Option Value) × MachineState

/-- How a call ends when native code that it waits for has come to something. -/
abbrev Endings := Except Trap (Option Value) → MachineState → Except Trap (Option Value) →
  MachineState → Prop

variable {m : Machine} {f f' : Frame} {s s' : MachineState} {native : NativeRun}
  {endings : Endings}

/-- The call comes to what native code comes to. -/
def Relays (m : Machine) (callee : OwnedMethod) (args : List Value) (s : MachineState)
    (native : NativeRun) : Prop :=
  ∃ depth, (∀ n, m.invoke (n + depth) callee args s = native n) ∧
    ∀ n, n < depth → Starved (m.invoke n callee args s)

/-- The frame gets to native code, and ends as that decides. -/
def Awaits (m : Machine) (f : Frame) (s : MachineState) (native : NativeRun) (endings : Endings) :
    Prop :=
  ∃ depth, (∀ n, ∃ r s' enough, endings (native n).1 (native n).2 r s' ∧
      (enough ≤ n → ∃ after : Frame,
        m.run (n + depth) f s = (r.map fun v => (.ret v, after), s')) ∧
      (n < enough → Starved (m.run (n + depth) f s))) ∧
    ∀ n, n < depth → Starved (m.run n f s)

/-- The call gets to native code, and ends as that decides. -/
def CallAwaits (m : Machine) (callee : OwnedMethod) (args : List Value) (s : MachineState)
    (native : NativeRun) (endings : Endings) : Prop :=
  ∃ depth, (∀ n, ∃ r s' enough, endings (native n).1 (native n).2 r s' ∧
      (enough ≤ n → m.invoke (n + depth) callee args s = (r, s')) ∧
      (n < enough → Starved (m.invoke (n + depth) callee args s))) ∧
    ∀ n, n < depth → Starved (m.invoke n callee args s)

theorem Leads.awaits (leads : m.Leads f s f' s') (awaits : m.Awaits f' s' native endings) :
    m.Awaits f s native endings := by
  obtain ⟨d, k, go, starve⟩ := leads
  obtain ⟨depth, waits, starve'⟩ := awaits
  refine ⟨depth + d, fun n => ?_, fun n hn => ?_⟩
  · obtain ⟨r, s'', enough, ends, done, short⟩ := waits n
    have arrives (far : k - depth ≤ n) : m.run (n + (depth + d)) f s = m.run (n + depth) f' s' := by
      rw [← Nat.add_assoc, go _ (by omega)]
    refine ⟨r, s'', max enough (k - depth), ends, fun hn => ?_, fun hn => ?_⟩
    · rw [arrives (by omega)]
      exact done (by omega)
    · by_cases far : k - depth ≤ n
      · rw [arrives far]
        exact short (by omega)
      · exact starve _ (by omega)
  · by_cases far : n < k + d
    · exact starve n far
    · obtain ⟨n, rfl⟩ : ∃ n', n = n' + d := ⟨n - d, by omega⟩
      rw [go n (by omega)]
      exact starve' n (by omega)

theorem CallAwaits.ofAwaits {callee : OwnedMethod} {body : Body} {args : List Value}
    (notImport : callee.method.importInfo = none) (hasBody : callee.method.body = some body)
    (awaits : m.Awaits (.start m.module callee body args) s native endings) :
    m.CallAwaits callee args s native endings := by
  obtain ⟨depth, waits, starve⟩ := awaits
  refine ⟨depth + 1, fun n => ?_, fun n hn => ?_⟩
  · obtain ⟨r, s', enough, ends, done, short⟩ := waits n
    refine ⟨r, s', enough, ends, fun hn => ?_, fun hn => ?_⟩
    · obtain ⟨after, ran⟩ := done hn
      rw [← Nat.add_assoc, invoke_body notImport hasBody]
      cases r with
      | ok v => exact Exec.bind_ok ran _
      | error t => exact Exec.bind_error ran _
    · rw [← Nat.add_assoc, invoke_body notImport hasBody]
      exact (short hn).bind _
  · cases n with
    | zero => rfl
    | succ n =>
      rw [invoke_body notImport hasBody]
      exact (starve n (by omega)).bind _

/-! ## At a call -/

/-- What becomes of the frame where an exception passes: nothing outside of regions, and in a region
its finally part is run. -/
inductive Unwinds (m : Machine) (f : Frame) (pc : Nat) (locals : List Value) (s : MachineState) :
    Option MachineError → MachineState → Prop
  | outside (outside : f.body.regionsAround pc = []) : Unwinds m f pc locals s none s
  | within {region : Region} {fault : Option MachineError} {locals' : List Value} {s' : MachineState}
      (around : f.body.regionsAround pc = [region])
      (cleanup : m.Cleanup f region locals s fault locals' s') : Unwinds m f pc locals s fault s'

section Calls

variable {pc : Nat} {locals stack : List Value} (args : List Value) {method : MethodRef}
  {callee : OwnedMethod} (code : f.body.instrs[pc]? = some (.call method))
  (static : method.hasThis = false) (count : method.params.length = args.length)
  (resolves : m.module.resolveMethod? method.owner method.name method.params = some callee)

include code static count resolves

/-- The frame of a call that throws ends, behind a finally part if there is one. -/
theorem run_call_unwinds {object : ObjRef} {fault : Option MachineError} {s₁ : MachineState}
    (unwinds : m.Unwinds f pc locals s₁ fault s') : ∃ enough, ∀ stack n,
      m.invoke n callee args s = (.error (.exception object), s₁) →
        (enough ≤ n → m.run (n + 1) (f.at pc locals (args.reverse ++ stack)) s =
          (orFault fault (.error (.exception object)), s')) ∧
        (n < enough → Starved (m.run (n + 1) (f.at pc locals (args.reverse ++ stack)) s)) := by
  cases unwinds with
  | outside outside =>
    exact ⟨0, fun stack n called => ⟨fun _ =>
      run_call_exception args code static count resolves outside called,
      fun hn => absurd hn (Nat.not_lt_zero n)⟩⟩
  | within around cleanup =>
    obtain ⟨enough, runs⟩ := cleanup.runFinally
    refine ⟨enough, fun stack n called => ?_⟩
    obtain ⟨go, starve⟩ := runs pc (args.reverse ++ stack)
    refine ⟨fun hn => ?_, fun hn => ?_⟩
    · obtain ⟨pc', ran⟩ := go n hn
      rw [run_call_exception_within args code static count resolves around called]
      cases fault with
      | none => exact Exec.bind_ok ran _
      | some e => exact Exec.bind_error ran _
    · rw [run_call_exception_within args code static count resolves around called]
      exact (starve n hn).bind _

/-- A frame calls a method that gives what native code comes to. With a value it goes on, and with an
exception it is unwound. -/
theorem Awaits.call (relays : m.Relays callee args s native)
    (goesOn : ∀ n v s', native n = (.ok v, s') → ∃ r s'', endings (.ok v) s' r s'' ∧
      m.Finishes (f.at (pc + 1) locals (Leads.pushed v stack)) s' r s'')
    (stops : ∀ e s', endings (.error (.fatal e)) s' (.error (.fatal e)) s')
    (throws : ∀ n object s', native n = (.error (.exception object), s') → ∃ fault s'',
      endings (.error (.exception object)) s' (orFault fault (.error (.exception object))) s'' ∧
      m.Unwinds f pc locals s' fault s'') :
    m.Awaits (f.at pc locals (args.reverse ++ stack)) s native endings := by
  obtain ⟨depth, relay, starve⟩ := relays
  refine ⟨depth + 1, fun n => ?_, fun n hn => ?_⟩
  · rcases came : native n with ⟨result, s'⟩
    have called := (relay n).trans came
    cases result with
    | ok v =>
      obtain ⟨r, s'', ends, enough, go, short⟩ := goesOn n v s' came
      have ran : m.run (n + depth + 1) (f.at pc locals (args.reverse ++ stack)) s =
          m.run (n + depth) (f.at (pc + 1) locals (Leads.pushed v stack)) s' :=
        run_call_ok args code static count resolves called
      refine ⟨r, s'', enough - depth, ends, fun hn => ?_, fun hn => ?_⟩
      · rw [← Nat.add_assoc, ran]
        exact go _ (by omega)
      · rw [← Nat.add_assoc, ran]
        exact short _ (by omega)
    | error t =>
      cases t with
      | fatal e =>
        refine ⟨_, s', 0, stops e s', fun _ => ⟨f, ?_⟩, fun hn => absurd hn (Nat.not_lt_zero n)⟩
        exact run_call_fatal args code static count resolves called
      | exception object =>
        obtain ⟨fault, s'', ends, unwinds⟩ := throws n object s' came
        obtain ⟨enough, runs⟩ := run_call_unwinds args code static count resolves unwinds
        obtain ⟨go, short⟩ := runs stack _ called
        refine ⟨_, s'', enough - depth, ends, fun hn => ⟨f, ?_⟩, fun hn => short (by omega)⟩
        rw [← Nat.add_assoc, go (by omega)]
        cases fault <;> rfl
  · cases n with
    | zero => exact starved_run_zero m _ s
    | succ n => exact starved_run_call args code static count resolves (starve n (by omega))

end Calls

end LateBind.Machine
