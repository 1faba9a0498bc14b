import LateBind.Proofs.Flows

/-! # Runs side by side

Whole runs of two machines agree when every instruction of the code does that they come to, whether
they return or throw. -/

namespace LateBind

open Exec

variable {α β : Type} {X : MachineError → Prop} {R : MachineState → MachineState → Prop}

namespace Exec

/-- The computations agree, and every result satisfies a property. -/
def AgreeOn (X : MachineError → Prop) (R : MachineState → MachineState → Prop) (Q : α → Prop)
    (x x' : Exec α) : Prop :=
  ∀ s s', R s s' → Excused X (x s) ∨
    ((x' s').1 = (x s).1 ∧ R (x s).2 (x' s').2) ∧ ∀ a, (x s).1 = .ok a → Q a

variable {Q : α → Prop} {S : β → Prop}

theorem AgreeOn.agree {x x' : Exec α} (hx : AgreeOn X R Q x x') : Agree X R x x' :=
  fun s s' h => (hx s s' h).imp id And.left

theorem agreeOn_pure {a : α} (ha : Q a) : AgreeOn X R Q (pure a : Exec α) (pure a) := by
  refine fun s s' h => .inr ⟨⟨rfl, h⟩, fun a' eq => ?_⟩
  cases eq
  exact ha

theorem agreeOn_throw (e : Trap) : AgreeOn X R Q (throw e : Exec α) (throw e) :=
  fun _ _ h => .inr ⟨⟨rfl, h⟩, fun _ eq => nomatch eq⟩

theorem AgreeOn.bind {x x' : Exec α} {g g' : α → Exec β} (hx : AgreeOn X R Q x x')
    (hg : ∀ a, Q a → AgreeOn X R S (g a) (g' a)) : AgreeOn X R S (x >>= g) (x' >>= g') := by
  intro s s' h
  rcases hx s s' h with excused | ⟨⟨same, after⟩, result⟩
  · exact .inl (excused.bind g)
  · rw [bind_apply, bind_apply]
    rcases run : x s with ⟨r, s₁⟩
    rcases run' : x' s' with ⟨r', s₁'⟩
    simp only [run, run'] at same after result
    subst same
    cases r' with
    | ok a => exact hg a (result a rfl) _ _ after
    | error e => exact agreeOn_throw _ s₁ s₁' after

theorem agreeOn_foldlM {g g' : α → β → Exec α} {l : List β} {a : α} (ha : Q a)
    (hg : ∀ a, Q a → ∀ b ∈ l, AgreeOn X R Q (g a b) (g' a b)) :
    AgreeOn X R Q (l.foldlM g a) (l.foldlM g' a) := by
  induction l generalizing a with
  | nil => exact agreeOn_pure ha
  | cons b l ih =>
    rw [List.foldlM_cons, List.foldlM_cons]
    exact (hg a ha b (by simp)).bind fun a' ha' =>
      ih ha' fun a ha b hb => hg a ha b (List.mem_cons_of_mem _ hb)

end Exec

namespace Machine

/-- Code that control does not get out of, in which every instruction does the same on two machines;
what it calls is known. -/
structure Confines (m m' : Machine) (X : MachineError → Prop)
    (R : MachineState → MachineState → Prop) (Inside : Body → Nat → Prop)
    (Known : OwnedMethod → Prop) : Prop where
  alike : m.Alike X m'
  stable : Exec.Stable R
  next {b : Body} {pc : Nat} {i : Instr} : Inside b pc → b.instrs[pc]? = some i → Inside b (pc + 1)
  jump {b : Body} {pc place : Nat} {i : Instr} {l : Label} : Inside b pc → b.instrs[pc]? = some i →
    l ∈ i.targets → b.target? l = some place → Inside b place
  handler {b : Body} {pc : Nat} {r : Region} : Inside b pc → r ∈ b.regions → Inside b r.finallyStart
  load {b : Body} {pc : Nat} {f : FieldRef} : Inside b pc → b.instrs[pc]? = some (.ldsfld f) →
    Exec.Agree X R (m.loadStatic f) (m'.loadStatic f)
  store {b : Body} {pc : Nat} {f : FieldRef} : Inside b pc → b.instrs[pc]? = some (.stsfld f) →
    ∀ v, Exec.Agree X R (m.storeStatic f v) (m'.storeStatic f v)
  indirect {b : Body} {pc : Nat} {site : CallSite} : Inside b pc →
    b.instrs[pc]? = some (.calli site) → ∀ n address args,
      Exec.Agree X R (Exec.native (m.world.invoke n address args))
        (Exec.native (m'.world.invoke n address args))
  call {b : Body} {pc : Nat} {r : MethodRef} {callee : OwnedMethod} : Inside b pc →
    b.instrs[pc]? = some (.call r) → m.module.resolveMethod? r.owner r.name r.params = some callee →
    m'.module.resolveMethod? r.owner r.name r.params = some callee ∧ Known callee
  /-- What the one does not have the other does not either, unless the call is an excused fault. -/
  missing {b : Body} {pc : Nat} {r : MethodRef} : Inside b pc →
    b.instrs[pc]? = some (.call r) → m.module.resolveMethod? r.owner r.name r.params = none →
    m'.module.resolveMethod? r.owner r.name r.params = none ∨
      RuntimeMember.ofRef? r = none ∧ X (.missingMethod r.display)
  member {b : Body} {pc : Nat} {r : MethodRef} {member : RuntimeMember} : Inside b pc →
    b.instrs[pc]? = some (.call r) → RuntimeMember.ofRef? r = some member →
    ∀ platform args, Exec.Agree X R (member.call platform args) (member.call platform args)
  /-- What is known agrees, or its body belongs to the code. -/
  known {callee : OwnedMethod} : Known callee →
    (∀ n args, Exec.Agree X R (m.invoke n callee args) (m'.invoke n callee args)) ∨
      callee.method.importInfo = none ∧ ∀ b ∈ callee.method.body, Inside b 0

variable {m m' : Machine} {Inside : Body → Nat → Prop} {Known : OwnedMethod → Prop}

theorem Alike.start_eq (alike : m.Alike X m') (callee : OwnedMethod) (b : Body) (args : List Value) :
    Frame.start m'.module callee b args = Frame.start m.module callee b args := by
  simp only [Frame.start, alike.values.defaultValue]

theorem excused_run {f : Frame} {s : MachineState} {i : Instr} {n : Nat}
    (code : f.body.instrs[f.pc]? = some i)
    (step : Excused X (Step.instr m (m.callees n) i f s)) : Excused X (m.run (n + 1) f s) := by
  rcases eq : Step.instr m (m.callees n) i f s with ⟨r, s'⟩
  rw [eq] at step
  obtain ⟨fault, excused, rfl⟩ := step
  have attempted : Exec.attempt ((Step.instr m (m.callees n) i).run f) s =
      (.ok (.error (.fatal fault)), s') := by
    rw [Exec.attempt_apply, StateT.run, eq]
  rw [run, code]
  exact ⟨fault, excused, congrArg Prod.fst (Exec.bind_ok attempted _)⟩

theorem agree_exitValue (callee : OwnedMethod) (r : Exit × Frame) :
    Exec.Agree X R (exitValue callee r) (exitValue callee r) := by
  unfold exitValue
  split
  · exact agree_pure _
  · exact agree_unsupported _

theorem Confines.agree_instr (h : m.Confines m' X R Inside Known) {n : Nat}
    (calls : ∀ callee, Known callee → ∀ args,
      Exec.Agree X R (m.invoke n callee args) (m'.invoke n callee args)) {b : Body} {pc : Nat}
    {i : Instr} (inside : Inside b pc) (code : b.instrs[pc]? = some i) :
    Step.Agree X R (Step.instr m (m.callees n) i) (Step.instr m' (m'.callees n) i) := by
  cases isLocal : i.isLocal with
  | true => exact Step.agree_instr h.alike h.stable _ _ isLocal
  | false =>
    cases i with
    | ldsfld f => exact Step.agree_ldsfld (h.load inside code)
    | stsfld f => exact Step.agree_stsfld (h.store inside code)
    | call r =>
      refine Step.agree_call fun args => ?_
      unfold Step.callMethod
      cases resolves : m.module.resolveMethod? r.owner r.name r.params with
      | some callee =>
        obtain ⟨resolves', known⟩ := h.call inside code resolves
        rw [resolves']
        exact calls callee known args
      | none =>
        rcases h.missing inside code resolves with resolves' | ⟨noMember, excused⟩
        · rw [resolves', h.alike.catalog]
          cases isMember : RuntimeMember.ofRef? r with
          | some member => exact h.member inside code isMember _ _
          | none => exact agree_fatal _
        · rw [noMember]
          exact fun s _ _ => .inl ⟨_, excused, rfl⟩
    | calli site =>
      exact Step.agree_calli fun address args =>
        agree_callIndirect h.alike h.stable (h.indirect inside code n) address site args
    | _ => cases isLocal

/-- With that much fuel, the runs and finally parts of the code agree, and the calls that are known. -/
structure AgreesWith (m m' : Machine) (X : MachineError → Prop)
    (R : MachineState → MachineState → Prop) (Inside : Body → Nat → Prop)
    (Known : OwnedMethod → Prop) (n : Nat) : Prop where
  invoke : ∀ callee, Known callee → ∀ args,
    Exec.Agree X R (m.invoke n callee args) (m'.invoke n callee args)
  run : ∀ f, Inside f.body f.pc →
    Exec.AgreeOn X R (fun r => r.2.body = f.body) (m.run n f) (m'.run n f)
  handler : ∀ r f, Inside f.body r.finallyStart →
    Exec.AgreeOn X R (fun f' => f'.body = f.body) (m.runFinally n r f) (m'.runFinally n r f)

section Agreement

variable {n : Nat} (h : m.Confines m' X R Inside Known)
  (agrees : m.AgreesWith m' X R Inside Known n)

include agrees in
theorem AgreesWith.go {f g : Frame} {place : Nat} (inside : Inside f.body place)
    (same : g.body = f.body) : Exec.AgreeOn X R (fun r => r.2.body = f.body)
      (m.run n { g with pc := place }) (m'.run n { g with pc := place }) := by
  rw [← same]
  exact agrees.run { g with pc := place } (by rw [same]; exact inside)

include h agrees

theorem AgreesWith.handlers {f g : Frame} {regions : List Region} (inside : Inside f.body f.pc)
    (own : ∀ r ∈ regions, r ∈ f.body.regions) (same : g.body = f.body) :
    Exec.AgreeOn X R (fun f' => f'.body = f.body)
      (regions.foldlM (fun f r => m.runFinally n r f) g)
      (regions.foldlM (fun f r => m'.runFinally n r f) g) := by
  refine agreeOn_foldlM same fun g same r hr => ?_
  rw [← same]
  refine agrees.handler r g ?_
  rw [same]
  exact h.handler inside (own r hr)

theorem Confines.agree_invoke_succ {callee : OwnedMethod} (known : Known callee) (args : List Value) :
    Exec.Agree X R (m.invoke (n + 1) callee args) (m'.invoke (n + 1) callee args) := by
  rcases h.known known with agree | ⟨notImport, inside⟩
  · exact agree (n + 1) args
  · cases body : callee.method.body with
    | none =>
      rw [invoke, invoke, notImport, body]
      exact agree_fatal _
    | some b =>
      rw [invoke_body notImport body, invoke_body notImport body, h.alike.start_eq]
      exact (agrees.run _ (inside b body)).agree.bind fun _ => agree_exitValue _ _

/-- Control leaves regions in the same way. -/
theorem Confines.agreeOn_leave {f after : Frame} {i : Instr} {l : Label} {place : Nat}
    (inside : Inside f.body f.pc) (code : f.body.instrs[f.pc]? = some i) (hl : l ∈ i.targets)
    (target : f.body.target? l = some place) (same : after.body = f.body) :
    Exec.AgreeOn X R (fun r => r.2.body = f.body)
      (do
        let after ← (f.body.regionsLeft f.pc place).foldlM (fun f r => m.runFinally n r f)
          { after with stack := [] }
        m.run n { after with pc := place })
      (do
        let after ← (f.body.regionsLeft f.pc place).foldlM (fun f r => m'.runFinally n r f)
          { after with stack := [] }
        m'.run n { after with pc := place }) := by
  have own : ∀ r ∈ f.body.regionsLeft f.pc place, r ∈ f.body.regions :=
    fun _ hr => (List.mem_filter.mp hr).1
  have all := agrees.handlers h inside own (g := { after with stack := [] }) same
  exact all.bind fun g same => agrees.go (h.jump inside code hl target) same

/-- An exception runs the same finally parts. -/
theorem Confines.agreeOn_unwind {f : Frame} (inside : Inside f.body f.pc) (object : ObjRef) :
    Exec.AgreeOn X R (fun r => r.2.body = f.body)
      (do
        let _ ← (f.body.regionsAround f.pc).foldlM (fun f r => m.runFinally n r f) f
        throw (.exception object) : Exec (Exit × Frame))
      (do
        let _ ← (f.body.regionsAround f.pc).foldlM (fun f r => m'.runFinally n r f) f
        throw (.exception object)) :=
  (agrees.handlers h inside (fun _ hr => (List.mem_filter.mp hr).1) rfl).bind fun _ _ =>
    agreeOn_throw _

theorem Confines.agreeOn_run_succ {f : Frame} (inside : Inside f.body f.pc) :
    Exec.AgreeOn X R (fun r => r.2.body = f.body) (m.run (n + 1) f) (m'.run (n + 1) f) := by
  intro s s' hs
  cases code : f.body.instrs[f.pc]? with
  | none =>
    rw [run, run, code]
    exact agreeOn_throw _ s s' hs
  | some i =>
    obtain ⟨after, -⟩ := h.agree_instr agrees.invoke inside code f s s' hs
    rcases after with excused | ⟨same, after⟩
    · exact .inl (excused_run code excused)
    have attempted (m : Machine) (s : MachineState) :
        Exec.attempt ((Step.instr m (m.callees n) i).run f) s =
          (.ok (Step.instr m (m.callees n) i f s).1, (Step.instr m (m.callees n) i f s).2) := rfl
    have callees (m : Machine) : (Callees.mk (fun callee args => m.invoke n callee args)
      (m.world.invoke n)) = m.callees n := rfl
    rw [run, run, code]
    simp only
    rw [callees m, callees m', Exec.bind_ok (attempted m s), Exec.bind_ok (attempted m' s')]
    rcases step : Step.instr m (m.callees n) i f s with ⟨r, s₁⟩
    rcases step' : Step.instr m' (m'.callees n) i f s' with ⟨r', s₁'⟩
    simp only [step, step'] at same after ⊢
    subst same
    cases r' with
    | error e =>
      cases e with
      | fatal e => exact agreeOn_throw _ s₁ s₁' after
      | exception object => exact h.agreeOn_unwind agrees inside object s₁ s₁' after
    | ok result =>
      obtain ⟨flow, f'⟩ := result
      have same : f'.body = f.body := Step.stays_instr _ _ _ _ _ _ _ _ step
      have follows := Step.goes_instr m _ i f s flow f' s₁ step
      cases flow with
      | next => exact agrees.go (h.next inside code) same s₁ s₁' after
      | jump place =>
        obtain ⟨-, l, hl, target⟩ := follows
        exact agrees.go (h.jump inside code hl target) same s₁ s₁' after
      | leave place =>
        obtain ⟨l, hl, target⟩ := follows.target
        exact h.agreeOn_leave agrees inside code hl target same s₁ s₁' after
      | exit how =>
        refine .inr ⟨⟨rfl, after⟩, fun result eq => ?_⟩
        cases eq
        exact same

omit h in
theorem AgreesWith.agreeOn_runFinally_succ {r : Region} {f : Frame}
    (inside : Inside f.body r.finallyStart) :
    Exec.AgreeOn X R (fun f' => f'.body = f.body) (m.runFinally (n + 1) r f)
      (m'.runFinally (n + 1) r f) := by
  rw [runFinally, runFinally]
  refine (agrees.run { f with stack := [], pc := r.finallyStart } inside).bind fun result same => ?_
  obtain ⟨how, after⟩ := result
  cases how with
  | endfinally => exact agreeOn_pure same
  | ret v => exact agreeOn_throw _

end Agreement

theorem Confines.agreesWith (h : m.Confines m' X R Inside Known) (n : Nat) :
    m.AgreesWith m' X R Inside Known n := by
  induction n with
  | zero =>
    exact ⟨fun _ _ _ => agree_fatal _, fun _ _ => agreeOn_throw _, fun _ _ _ => agreeOn_throw _⟩
  | succ n ih =>
    exact ⟨fun _ known args => h.agree_invoke_succ ih known args,
      fun _ inside => h.agreeOn_run_succ ih inside, fun _ _ inside => ih.agreeOn_runFinally_succ inside⟩

/-- Calls of what is known agree. -/
theorem Confines.agree_invoke (h : m.Confines m' X R Inside Known) {callee : OwnedMethod}
    (known : Known callee) (n : Nat) (args : List Value) :
    Exec.Agree X R (m.invoke n callee args) (m'.invoke n callee args) :=
  (h.agreesWith n).invoke callee known args

/-- Runs that start in the code agree. -/
theorem Confines.agree_run (h : m.Confines m' X R Inside Known) {f : Frame}
    (inside : Inside f.body f.pc) (n : Nat) : Exec.Agree X R (m.run n f) (m'.run n f) :=
  ((h.agreesWith n).run f inside).agree

theorem agree_invoke_import {callee : OwnedMethod} {info : Import}
    (isImport : callee.method.importInfo = some info)
    (calls : ∀ n args, Exec.Agree X R (m.callImport (m.world.invoke n) callee.method info args)
      (m'.callImport (m'.world.invoke n) callee.method info args))
    (n : Nat) (args : List Value) :
    Exec.Agree X R (m.invoke n callee args) (m'.invoke n callee args) := by
  cases n with
  | zero => exact agree_fatal _
  | succ n =>
    rw [invoke, invoke, isImport]
    exact calls n args

end Machine

end LateBind
