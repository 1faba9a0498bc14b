import LateBind.Proofs.Computations

/-! # Runs with enough fuel

A run that comes to a place does so with any fuel that is enough, and less fuel is used up before.
So two places of a run are related without a number of steps, and a call is known by how it ends. -/

namespace LateBind

/-- The fuel was used up. -/
def Starved {α : Type} (r : Except Trap α × MachineState) : Prop :=
  r.1 = .error (.fatal .outOfFuel)

theorem Starved.bind {α β : Type} {x : Exec α} {s : MachineState} (h : Starved (x s))
    (f : α → Exec β) : Starved ((x >>= f) s) := by
  rcases run : x s with ⟨r, s'⟩
  rw [run] at h
  cases h
  rw [Starved, Exec.bind_error run]

/-- The frame at another place, with other locals and another stack. -/
@[reducible]
def Frame.at (f : Frame) (pc : Nat) (locals stack : List Value) : Frame := { f with pc, locals, stack }

namespace Machine

variable {m : Machine} {f f' f'' : Frame} {s s' s'' : MachineState}

/-! ## From place to place -/

/-- The run comes from one place to another with a number of steps, when what it calls has fuel
enough. -/
def LeadsIn (m : Machine) (steps enough : Nat) (f : Frame) (s : MachineState) (f' : Frame)
    (s' : MachineState) : Prop :=
  (∀ n, enough ≤ n → m.run (n + steps) f s = m.run n f' s') ∧
    ∀ n, n < enough + steps → Starved (m.run n f s)

/-- The run comes from one place to another. -/
def Leads (m : Machine) (f : Frame) (s : MachineState) (f' : Frame) (s' : MachineState) : Prop :=
  ∃ steps enough, (∀ n, enough ≤ n → m.run (n + steps) f s = m.run n f' s') ∧
    ∀ n, n < enough + steps → Starved (m.run n f s)

/-- How a call ends that has fuel enough. -/
def EndsIn (m : Machine) (enough : Nat) (callee : OwnedMethod) (args : List Value)
    (s : MachineState) (r : Except Trap (Option Value)) (s' : MachineState) : Prop :=
  (∀ n, enough ≤ n → m.invoke n callee args s = (r, s')) ∧
    ∀ n, n < enough → Starved (m.invoke n callee args s)

/-- How a call ends. -/
def Ends (m : Machine) (callee : OwnedMethod) (args : List Value) (s : MachineState)
    (r : Except Trap (Option Value)) (s' : MachineState) : Prop :=
  ∃ enough, (∀ n, enough ≤ n → m.invoke n callee args s = (r, s')) ∧
    ∀ n, n < enough → Starved (m.invoke n callee args s)

theorem LeadsIn.trans {d₁ k₁ d₂ k₂ : Nat} (first : m.LeadsIn d₁ k₁ f s f' s')
    (second : m.LeadsIn d₂ k₂ f' s' f'' s'') :
    m.LeadsIn (d₂ + d₁) (max (k₁ - d₂) k₂) f s f'' s'' := by
  obtain ⟨go₁, starve₁⟩ := first
  obtain ⟨go₂, starve₂⟩ := second
  refine ⟨fun n hn => ?_, fun n hn => ?_⟩
  · rw [← Nat.add_assoc, go₁ (n + d₂) (by omega), go₂ n (by omega)]
  · by_cases short : n < k₁ + d₁
    · exact starve₁ n short
    · obtain ⟨n', rfl⟩ : ∃ n', n = n' + d₁ := ⟨n - d₁, by omega⟩
      rw [go₁ n' (by omega)]
      exact starve₂ n' (by omega)

namespace Leads

theorem refl (m : Machine) (f : Frame) (s : MachineState) : m.Leads f s f s :=
  ⟨0, 0, fun _ _ => rfl, fun _ h => absurd h (Nat.not_lt_zero _)⟩

theorem trans (first : m.Leads f s f' s') (second : m.Leads f' s' f'' s'') :
    m.Leads f s f'' s'' := by
  obtain ⟨d₁, k₁, first⟩ := first
  obtain ⟨d₂, k₂, second⟩ := second
  exact ⟨_, _, LeadsIn.trans first second⟩

end Leads

/-- How an instruction can call other code when the fuel is `n`. -/
def callees (m : Machine) (n : Nat) : Callees :=
  ⟨fun callee args => m.invoke n callee args, m.world.invoke n⟩

section Steps

variable {i : Instr} {n : Nat}

theorem starved_run_zero (m : Machine) (f : Frame) (s : MachineState) : Starved (m.run 0 f s) := rfl

theorem run_next (code : f.body.instrs[f.pc]? = some i)
    (step : Step.instr m (m.callees n) i f s = (.ok (.next, f'), s')) :
    m.run (n + 1) f s = m.run n { f' with pc := f.pc + 1 } s' := by
  have attempted : Exec.attempt ((Step.instr m (m.callees n) i).run f) s =
      (.ok (.ok (.next, f')), s') := by
    rw [Exec.attempt_apply, StateT.run, step]
  rw [run, code]
  exact Exec.bind_ok attempted _

theorem run_jump {target : Nat} (code : f.body.instrs[f.pc]? = some i)
    (step : Step.instr m (m.callees n) i f s = (.ok (.jump target, f'), s')) :
    m.run (n + 1) f s = m.run n { f' with pc := target } s' := by
  have attempted : Exec.attempt ((Step.instr m (m.callees n) i).run f) s =
      (.ok (.ok (.jump target, f')), s') := by
    rw [Exec.attempt_apply, StateT.run, step]
  rw [run, code]
  exact Exec.bind_ok attempted _

theorem run_exit {how : Exit} (code : f.body.instrs[f.pc]? = some i)
    (step : Step.instr m (m.callees n) i f s = (.ok (.exit how, f'), s')) :
    m.run (n + 1) f s = (.ok (how, f'), s') := by
  have attempted : Exec.attempt ((Step.instr m (m.callees n) i).run f) s =
      (.ok (.ok (.exit how, f')), s') := by
    rw [Exec.attempt_apply, StateT.run, step]
  rw [run, code]
  exact Exec.bind_ok attempted _

theorem starved_run (code : f.body.instrs[f.pc]? = some i)
    (step : Starved (Step.instr m (m.callees n) i f s)) : Starved (m.run (n + 1) f s) := by
  rcases eq : Step.instr m (m.callees n) i f s with ⟨r, s'⟩
  rw [eq] at step
  cases step
  have attempted : Exec.attempt ((Step.instr m (m.callees n) i).run f) s =
      (.ok (.error (.fatal .outOfFuel)), s') := by
    rw [Exec.attempt_apply, StateT.run, eq]
  rw [run, code]
  exact congrArg Prod.fst (Exec.bind_ok attempted _)

end Steps

section Instructions

variable {pc : Nat} {i : Instr} {locals locals' stack stack' : List Value}

/-- An instruction that calls nothing. -/
theorem LeadsIn.step (code : f.body.instrs[pc]? = some i)
    (does : ∀ callees, Step.instr m callees i (f.at pc locals stack) s =
      (.ok (.next, f.at pc locals' stack'), s')) :
    m.LeadsIn 1 0 (f.at pc locals stack) s (f.at (pc + 1) locals' stack') s' := by
  refine ⟨fun n _ => run_next code (does _), fun n hn => ?_⟩
  obtain rfl : n = 0 := by omega
  exact starved_run_zero m _ s

theorem Leads.step (code : f.body.instrs[pc]? = some i)
    (does : ∀ callees, Step.instr m callees i (f.at pc locals stack) s =
      (.ok (.next, f.at pc locals' stack'), s')) :
    m.Leads (f.at pc locals stack) s (f.at (pc + 1) locals' stack') s' :=
  ⟨1, 0, LeadsIn.step code does⟩

theorem Leads.jump {place : Nat} (code : f.body.instrs[pc]? = some i)
    (does : ∀ callees, Step.instr m callees i (f.at pc locals stack) s =
      (.ok (.jump place, f.at pc locals' stack'), s')) :
    m.Leads (f.at pc locals stack) s (f.at place locals' stack') s' := by
  refine ⟨1, 0, fun n _ => run_jump code (does _), fun n hn => ?_⟩
  obtain rfl : n = 0 := by omega
  exact starved_run_zero m _ s

/-- An instruction that calls a method. -/
theorem LeadsIn.callStep {enough : Nat} {callee : OwnedMethod} {args : List Value}
    {v : Option Value} (code : f.body.instrs[pc]? = some i)
    (ends : m.EndsIn enough callee args s (.ok v) s')
    (does : ∀ n, m.invoke n callee args s = (.ok v, s') →
      Step.instr m (m.callees n) i (f.at pc locals stack) s =
        (.ok (.next, f.at pc locals' stack'), s'))
    (starves : ∀ n, Starved (m.invoke n callee args s) →
      Starved (Step.instr m (m.callees n) i (f.at pc locals stack) s)) :
    m.LeadsIn 1 enough (f.at pc locals stack) s (f.at (pc + 1) locals' stack') s' := by
  obtain ⟨go, starve⟩ := ends
  refine ⟨fun n hn => run_next code (does n (go n hn)), fun n hn => ?_⟩
  cases n with
  | zero => exact starved_run_zero m _ s
  | succ n => exact starved_run code (starves n (starve n (by omega)))

end Instructions

/-! ## Calls -/

variable {callee : OwnedMethod} {body : Body} {args : List Value}

/-- What a call makes of how its body has ended. -/
def exitValue (callee : OwnedMethod) (r : Exit × Frame) : Exec (Option Value) :=
  match r.1 with
  | .ret v => return v
  | .endfinally => Exec.unsupported (.strayEndfinally callee.qualifiedName)

theorem invoke_body (notImport : callee.method.importInfo = none)
    (hasBody : callee.method.body = some body) (n : Nat) (args : List Value) :
    m.invoke (n + 1) callee args =
      (m.run n (.start m.module callee body args) >>= exitValue callee) := by
  rw [invoke, notImport, hasBody]
  rfl

namespace Ends

/-- A call that returns with some fuel ends so. -/
theorem eq_of_invoke {r : Except Trap (Option Value)} (ends : m.Ends callee args s r s') {n : Nat}
    {v : Option Value} (returns : m.invoke n callee args s = (.ok v, s'')) :
    r = .ok v ∧ s' = s'' := by
  obtain ⟨enough, go, starve⟩ := ends
  by_cases short : n < enough
  · have starved := starve n short
    rw [returns] at starved
    cases starved
  · rw [go n (by omega)] at returns
    exact Prod.mk.inj returns

end Ends

/-- A body that comes to its end. -/
theorem EndsIn.ofBody {steps enough : Nat} {v : Option Value}
    (notImport : callee.method.importInfo = none) (hasBody : callee.method.body = some body)
    (leads : m.LeadsIn steps enough (.start m.module callee body args) s f s')
    (code : f.body.instrs[f.pc]? = some .ret)
    (does : ∀ callees, Step.instr m callees .ret f s' = (.ok (.exit (.ret v), f'), s')) :
    m.EndsIn (max enough 1 + steps + 1) callee args s (.ok v) s' := by
  obtain ⟨go, starve⟩ := leads
  have ran (n : Nat) : m.run (n + 1) f s' = (.ok (.ret v, f'), s') := run_exit code (does _)
  refine ⟨fun n hn => ?_, fun n hn => ?_⟩
  · obtain ⟨k, rfl⟩ : ∃ k, n = (k + 1 + steps) + 1 := ⟨n - steps - 2, by omega⟩
    rw [invoke_body notImport hasBody, Exec.bind_ok ((go (k + 1) (by omega)).trans (ran k))]
    rfl
  · cases n with
    | zero => rfl
    | succ n =>
      rw [invoke_body notImport hasBody]
      refine Starved.bind ?_ _
      by_cases short : n < enough + steps
      · exact starve n short
      · obtain rfl : n = 0 + steps := by omega
        rw [go 0 (by omega)]
        exact starved_run_zero m f s'

theorem Ends.ofBody {v : Option Value} (notImport : callee.method.importInfo = none)
    (hasBody : callee.method.body = some body)
    (leads : m.Leads (.start m.module callee body args) s f s')
    (code : f.body.instrs[f.pc]? = some .ret)
    (does : ∀ callees, Step.instr m callees .ret f s' = (.ok (.exit (.ret v), f'), s')) :
    m.Ends callee args s (.ok v) s' := by
  obtain ⟨steps, enough, leads⟩ := leads
  exact ⟨_, EndsIn.ofBody notImport hasBody leads code does⟩

end Machine

end LateBind
