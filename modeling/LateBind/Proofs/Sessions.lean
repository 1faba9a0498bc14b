import LateBind.Proofs.Effects

/-! # Calls from outside

A call from outside runs a method and then frees what was pinned. Loading is a sequence of such calls,
one for each type initialiser. -/

namespace LateBind

open Exec

namespace Machine

variable {m m' : Machine} {P : MachineState → Prop} {fuel : Nat} {s s' : MachineState}

/-! ## Pins at the end -/

theorem snd_call (m : Machine) (fuel : Nat) (callee : OwnedMethod) (args : List Value)
    (s : MachineState) :
    (m.call fuel callee args s).2 = (releasePins (m.invoke fuel callee args s).2).2 := by
  unfold call
  rcases m.invoke fuel callee args s with ⟨outcome, s₁⟩
  rcases released : releasePins s₁ with ⟨result, s₂⟩
  cases outcome <;> cases result <;> simp [released]

theorem releasePins_apply (s : MachineState) :
    releasePins s = (s.pins.map Pin.block).forM free { s with pins := [] } := by
  have each (pins : List Pin) : (pins.forM fun p => free p.block) =
      (pins.map Pin.block).forM free := by
    induction pins with
    | nil => rfl
    | cons p pins ih => exact congrArg (fun rest => free p.block >>= fun _ => rest) ih
  rw [← each]
  rfl

theorem pins_releasePins (s : MachineState) : (releasePins s).2.pins = [] := by
  have lenient : Lenient (Beside fun s => s.pins = []) :=
    .beside (fun _ _ h => h) (fun _ _ h => h) fun _ _ _ _ h => h
  rw [releasePins_apply]
  exact (agree_forM fun address => agree_free lenient address).keeps.holds rfl

theorem releasePins_of_nil (unpinned : s.pins = []) : releasePins s = (.ok (), s) := by
  obtain ⟨native, statics, objects, pins⟩ := s
  cases unpinned
  rfl

/-! ## Calls that return -/

theorem call_eq_ok {callee : OwnedMethod} {args : List Value} {v : Option Value}
    (h : m.call fuel callee args s = (.ok v, s')) :
    ∃ s₁, m.invoke fuel callee args s = (.ok v, s₁) ∧ releasePins s₁ = (.ok (), s') := by
  unfold call at h
  rcases invoked : m.invoke fuel callee args s with ⟨r, s₁⟩
  rcases freed : releasePins s₁ with ⟨r', s₂⟩
  simp only [invoked, freed] at h
  cases r with
  | error e => cases h
  | ok v' =>
    cases r' with
    | error e => cases h
    | ok _ =>
      cases h
      exact ⟨s₁, rfl, freed⟩

theorem call_of_invoke {callee : OwnedMethod} {args : List Value} {v : Option Value}
    (invoked : m.invoke fuel callee args s = (.ok v, s')) (unpinned : s'.pins = []) :
    m.call fuel callee args s = (.ok v, s') := by
  rw [call, invoked]
  simp only [releasePins_of_nil unpinned]

/-- A property that a call keeps until its end still holds when pins have been freed. -/
theorem holds_of_call (blind : Blind P) {callee : OwnedMethod} {args : List Value}
    {v : Option Value} (h : m.call fuel callee args s = (.ok v, s'))
    (after : ∀ s₁, m.invoke fuel callee args s = (.ok v, s₁) → P s₁) : P s' := by
  obtain ⟨s₁, invoked, freed⟩ := call_eq_ok h
  have kept := keeps_releasePins (X := Starvation) blind.stable blind.lenient
    (fun s h => blind s _ rfl rfl h) s₁ (after s₁ invoked)
  rw [freed] at kept
  exact kept.resolve_left not_excused_ok

/-! ## Type initialisers in order -/

theorem initialise_cons_apply {init : OwnedMethod} {v : Option Value}
    (called : m.call fuel init [] s = (.ok v, s')) (rest : List OwnedMethod) :
    m.initialise fuel (init :: rest) s = m.initialise fuel rest s' := by
  have adapted : ExceptT.adapt (MachineError.typeInitializer init.owner) (m.call fuel init []) s =
      (.ok v, s') := by
    change (Except.mapError _ (m.call fuel init [] s).1, (m.call fuel init [] s).2) = _
    rw [called]
    rfl
  simp only [initialise, bind, ExceptT.bind, ExceptT.mk, StateT.bind, adapted]
  rfl

theorem initialise_cons_eq_ok {init : OwnedMethod} {rest : List OwnedMethod}
    (h : m.initialise fuel (init :: rest) s = (.ok (), s')) :
    ∃ v s₁, m.call fuel init [] s = (.ok v, s₁) ∧ m.initialise fuel rest s₁ = (.ok (), s') := by
  rcases called : m.call fuel init [] s with ⟨r, s₁⟩
  cases r with
  | ok v => exact ⟨v, s₁, rfl, by rw [← initialise_cons_apply called]; exact h⟩
  | error e =>
    have adapted : ExceptT.adapt (MachineError.typeInitializer init.owner) (m.call fuel init []) s =
        (.error (.typeInitializer init.owner e), s₁) := by
      change (Except.mapError _ (m.call fuel init [] s).1, (m.call fuel init [] s).2) = _
      rw [called]
      rfl
    simp only [initialise, bind, ExceptT.bind, ExceptT.mk, StateT.bind, adapted] at h
    cases h

/-- What all type initialisers but the last keep, holds when the last is called. -/
theorem holds_before_last (blind : Blind P) {inits : List OwnedMethod} {last : OwnedMethod}
    (keeps : ∀ init ∈ inits, Keeps Starvation P (m.invoke fuel init [])) (holds : P s)
    (h : m.initialise fuel (inits ++ [last]) s = (.ok (), s')) :
    ∃ v s₁, P s₁ ∧ m.call fuel last [] s₁ = (.ok v, s') := by
  induction inits generalizing s with
  | nil =>
    obtain ⟨v, s₁, called, rest⟩ := initialise_cons_eq_ok h
    cases rest
    exact ⟨v, s, holds, called⟩
  | cons init inits ih =>
    obtain ⟨v, s₁, called, rest⟩ := initialise_cons_eq_ok h
    refine ih (fun init hi => keeps init (List.mem_cons_of_mem _ hi)) ?_ rest
    refine holds_of_call blind called fun s₂ invoked => ?_
    have kept := keeps init (by simp) s holds
    rw [invoked] at kept
    exact kept.resolve_left not_excused_ok

theorem initialise_append {inits : List OwnedMethod}
    (h : m.initialise fuel inits s = (.ok (), s')) (rest : List OwnedMethod) :
    m.initialise fuel (inits ++ rest) s = m.initialise fuel rest s' := by
  induction inits generalizing s with
  | nil =>
    cases h
    rfl
  | cons init inits ih =>
    obtain ⟨v, s₁, called, h⟩ := initialise_cons_eq_ok h
    rw [List.cons_append, initialise_cons_apply called, ih h]

theorem pins_of_initialise {inits : List OwnedMethod} (unpinned : s.pins = [])
    (h : m.initialise fuel inits s = (.ok (), s')) : s'.pins = [] := by
  induction inits generalizing s with
  | nil =>
    cases h
    exact unpinned
  | cons init inits ih =>
    obtain ⟨v, s₁, called, h⟩ := initialise_cons_eq_ok h
    obtain ⟨s₂, -, freed⟩ := call_eq_ok called
    have released := pins_releasePins s₂
    rw [freed] at released
    exact ih released h

theorem load_eq_ok_iff : m.load fuel = .ok s ↔ ∃ s₁,
    m.initialise fuel (initialisers m.module) ⟨.start, staticCells m.module, #[], []⟩ =
      (.ok (), s₁) ∧ s₁.newSession = s := by
  rcases ran : m.initialise fuel (initialisers m.module) ⟨.start, staticCells m.module, #[], []⟩
    with ⟨result, s₁⟩
  unfold load
  simp only [ran]
  constructor
  · intro loaded
    cases result with
    | error e => cases loaded
    | ok _ =>
      cases loaded
      exact ⟨s₁, rfl, rfl⟩
  · rintro ⟨s₂, same, rfl⟩
    cases same
    rfl

/-! ## Machines side by side -/

section Agreement

variable {X : MachineError → Prop} {R : MachineState → MachineState → Prop} {s₁ : MachineState}
  (release : Agree X R releasePins releasePins)

include release

theorem call_agrees {callee : OwnedMethod} {args : List Value} {v : Option Value}
    (agree : Agree X R (m.invoke fuel callee args) (m'.invoke fuel callee args)) (h : R s s')
    (called : m.call fuel callee args s = (.ok v, s₁)) :
    ∃ s₁', m'.call fuel callee args s' = (.ok v, s₁') ∧ R s₁ s₁' := by
  obtain ⟨s₂, invoked, freed⟩ := call_eq_ok called
  have after := agree s s' h
  rw [invoked] at after
  obtain ⟨same, related⟩ := after.resolve_left not_excused_ok
  have final := release _ _ related
  rw [freed] at final
  obtain ⟨sameEnd, relatedEnd⟩ := final.resolve_left not_excused_ok
  rcases invoked' : m'.invoke fuel callee args s' with ⟨r, s₂'⟩
  rcases freed' : releasePins s₂' with ⟨r', s₁'⟩
  simp only [invoked', freed'] at same related sameEnd relatedEnd
  subst same sameEnd
  refine ⟨s₁', ?_, relatedEnd⟩
  rw [call, invoked']
  simp only [freed']

/-- Type initialisers that agree one by one agree in order. -/
theorem initialise_agrees {inits : List OwnedMethod}
    (agree : ∀ init ∈ inits, Agree X R (m.invoke fuel init []) (m'.invoke fuel init []))
    (h : R s s') (ran : m.initialise fuel inits s = (.ok (), s₁)) :
    ∃ s₁', m'.initialise fuel inits s' = (.ok (), s₁') ∧ R s₁ s₁' := by
  induction inits generalizing s s' with
  | nil =>
    cases ran
    exact ⟨s', rfl, h⟩
  | cons init inits ih =>
    obtain ⟨v, s₂, called, ran⟩ := initialise_cons_eq_ok ran
    obtain ⟨s₂', called', related⟩ := call_agrees release (agree init (by simp)) h called
    obtain ⟨s₁', ran', related⟩ :=
      ih (fun init mem => agree init (List.mem_cons_of_mem _ mem)) related ran
    exact ⟨s₁', (initialise_cons_apply called' inits).trans ran', related⟩

end Agreement

end Machine

end LateBind
