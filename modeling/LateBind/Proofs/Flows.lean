import LateBind.Proofs.Regions
import LateBind.Proofs.StepAgreement

/-! # Where control goes

An instruction keeps the frame in its body, and control goes on as the kind of the instruction and the
labels in it allow. -/

namespace LateBind

open Exec

variable {α β : Type}

/-- Control goes to the next instruction, to a label, out of regions to a label, or to the end. -/
def Instr.Follows (i : Instr) (b : Body) : Flow → Prop
  | .next => i.falls
  | .jump place => (∀ l, i ≠ .leave l) ∧ ∃ l ∈ i.targets, b.target? l = some place
  | .leave place => ∃ l, i = .leave l ∧ b.target? l = some place
  | .exit _ => True

theorem Instr.Follows.target {i : Instr} {b : Body} {place : Nat}
    (follows : i.Follows b (.leave place)) : ∃ l ∈ i.targets, b.target? l = some place := by
  obtain ⟨l, rfl, target⟩ := follows
  exact ⟨l, by simp [Instr.targets], target⟩

namespace Step

/-! ## Instructions that work on static fields or call -/

section Parts

variable {X : MachineError → Prop} {R : MachineState → MachineState → Prop} {m m' : Machine}
  {callees callees' : Callees}

theorem agree_ldsfld {field : FieldRef}
    (loads : Exec.Agree X R (m.loadStatic field) (m'.loadStatic field)) :
    Agree X R (instr m callees (.ldsfld field)) (instr m' callees' (.ldsfld field)) :=
  ((agree_lift loads).bind fun _ => agree_push _).bind fun _ => agree_pure _

theorem agree_stsfld {field : FieldRef}
    (stores : ∀ v, Exec.Agree X R (m.storeStatic field v) (m'.storeStatic field v)) :
    Agree X R (instr m callees (.stsfld field)) (instr m' callees' (.stsfld field)) :=
  (agree_pop.bind fun _ => agree_lift (stores _)).bind fun _ => agree_pure _

theorem agree_calli {site : CallSite}
    (calls : ∀ address args, Exec.Agree X R (m.callIndirect callees.native address site args)
      (m'.callIndirect callees'.native address site args)) :
    Agree X R (instr m callees (.calli site)) (instr m' callees' (.calli site)) :=
  (agree_pop.bind fun _ => (agree_expect _ _ _).bind fun _ => (agree_popArgs _).bind fun _ =>
    (agree_lift (calls _ _)).bind fun _ => agree_pushResult _).bind fun _ => agree_pure _

theorem agree_call {method : MethodRef}
    (calls : ∀ args, Exec.Agree X R (callMethod m callees method args)
      (callMethod m' callees' method args)) :
    Agree X R (instr m callees (.call method)) (instr m' callees' (.call method)) :=
  ((agree_popArgs _).bind fun _ => (agree_lift (calls _)).bind fun _ =>
    agree_pushResult _).bind fun _ => agree_pure _

end Parts

/-! ## Bodies -/

/-- When the step succeeds, the frame is still in its body. -/
def Stays (x : Step α) : Prop := ∀ f s a f' s', x f s = (.ok (a, f'), s') → f'.body = f.body

theorem Agree.stays {X : MachineError → Prop} {x : Step α} (h : Agree X Eq x x) : Stays x :=
  fun f s a f' _ eq => (h f s s rfl).2 a f' (by rw [eq])

theorem stable_eq : Exec.Stable Eq where
  statics {s _} h := ⟨s.statics, h ▸ rfl⟩
  objects _ h := h ▸ rfl
  write _ h := h ▸ rfl
  pin _ _ h := h ▸ rfl

/-- No instruction takes the frame out of its body. -/
theorem stays_instr (m : Machine) (callees : Callees) (i : Instr) : Stays (instr m callees i) := by
  have self {γ : Type} (x : Exec γ) : Exec.Agree Starvation Eq x x := by
    rintro s _ rfl
    exact .inr ⟨rfl, rfl⟩
  have agree : Agree Starvation Eq (instr m callees i) (instr m callees i) := by
    cases isLocal : i.isLocal with
    | true => exact agree_instr (.refl m) stable_eq callees callees isLocal
    | false =>
      cases i with
      | ldsfld field => exact agree_ldsfld (self _)
      | stsfld field => exact agree_stsfld fun _ => self _
      | call method => exact agree_call fun _ => self _
      | calli site => exact agree_calli fun _ _ => self _
      | _ => cases isLocal
  exact agree.stays

/-! ## Instructions and flows -/

/-- When the step succeeds, control goes somewhere of the kind. -/
def Goes (Q : Body → Flow → Prop) (x : Step Flow) : Prop :=
  ∀ f s flow f' s', x f s = (.ok (flow, f'), s') → Q f.body flow

variable {Q : Body → Flow → Prop}

theorem goes_pure {flow : Flow} (h : ∀ b, Q b flow) : Goes Q (pure flow : Step Flow) := by
  intro f s flow f' s' eq
  cases eq
  exact h _

theorem goes_bind {x : Step α} {g : α → Step Flow} (hx : Stays x) (hg : ∀ a, Goes Q (g a)) :
    Goes Q (x >>= g) := by
  intro f s flow f'' s'' eq
  rw [bind_apply] at eq
  rcases run : x f s with ⟨r, s'⟩
  rw [run] at eq
  cases r with
  | ok result =>
    rw [← hx f s result.1 result.2 s' run]
    exact hg _ _ _ _ _ _ eq
  | error e => cases eq

/-- What a step does before control goes on to the next instruction does not count. -/
theorem goes_next {x : Step α} (h : ∀ b, Q b .next) :
    Goes Q (do let _ ← x; return .next : Step Flow) := by
  intro f s flow f'' s'' eq
  rw [bind_apply] at eq
  rcases run : x f s with ⟨r, s'⟩
  rw [run] at eq
  cases r with
  | ok result =>
    cases eq
    exact h _
  | error e => cases eq

theorem goes_target {l : Label} {g : Nat → Flow}
    (h : ∀ b place, b.target? l = some place → Q b (g place)) :
    Goes Q (do return g (← target l) : Step Flow) := by
  intro f s flow f' s' eq
  cases found : f.body.target? l with
  | none =>
    simp only [target, bind_apply, get_apply, found] at eq
    cases eq
  | some place =>
    simp only [target, bind_apply, get_apply, found, pure_apply] at eq
    cases eq
    exact h _ _ found

theorem goes_instr (m : Machine) (callees : Callees) (i : Instr) :
    Goes i.Follows (instr m callees i) := by
  have stays_pop : Stays pop := Agree.stays (X := Starvation) agree_pop
  have stays_popInt32 : Stays popInt32 := Agree.stays (X := Starvation) agree_popInt32
  have next {i : Instr} (falls : i.falls) : Goes i.Follows (pure .next) :=
    goes_pure fun _ => falls
  have jump {i : Instr} {l : Label} (other : ∀ l, i ≠ .leave l) (hl : l ∈ i.targets) :
      Goes i.Follows (jump l) := goes_target fun _ _ target => ⟨other, l, hl, target⟩
  cases i with
  | br l => exact jump (by simp) (by simp [Instr.targets])
  | brtrue l =>
    refine goes_bind stays_pop fun v => ?_
    split
    · exact jump (by simp) (by simp [Instr.targets])
    · exact next rfl
  | brfalse l =>
    refine goes_bind stays_pop fun v => ?_
    split
    · exact next rfl
    · exact jump (by simp) (by simp [Instr.targets])
  | blt l =>
    refine goes_bind stays_pop fun right => goes_bind stays_pop fun left =>
      goes_bind (Agree.stays (X := Starvation) (agree_expect _ _ _)) fun less => ?_
    split
    · exact jump (by simp) (by simp [Instr.targets])
    · exact next rfl
  | switch labels =>
    refine goes_bind stays_popInt32 fun index => ?_
    split
    · next l chosen =>
      refine jump (by simp) ?_
      split at chosen
      · cases chosen
      · exact List.mem_of_getElem? chosen
    · exact next rfl
  | leave l => exact goes_target fun _ _ target => ⟨l, rfl, target⟩
  | endfinally => exact goes_pure fun _ => trivial
  | throw =>
    refine goes_bind stays_pop fun v => ?_
    split
    · intro f s flow f' s' eq
      cases eq
    · intro f s flow f' s' eq
      cases eq
  | ret =>
    refine goes_bind (Agree.stays (X := Starvation) agree_get) fun f => ?_
    split
    · exact goes_pure fun _ => trivial
    · exact goes_bind stays_pop fun _ => goes_pure fun _ => trivial
  | _ => exact goes_next fun _ => rfl

end Step

end LateBind
