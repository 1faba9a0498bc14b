import LateBind.Proofs.BoundStubs

/-! # Calls of bound stubs

A stub whose cell holds an address calls what is there. Otherwise its initializer asks for the library
and the symbol, and the call goes on only when both are there. What comes behind that changes no cell,
and asks for no library unless native code does. -/

namespace LateBind

open Machine Exec

/-! ## What the call itself leaves alone -/

/-- The function is one that the helper type calls on a platform of the kind. -/
def World.Asks (w : World) (kind : LoaderKind) (address : UInt64) : Prop :=
  ∃ number call, ∃ f ∈ kind.functions number call, w.catalog.address? f.1 f.2 = some address

/-- What is called to load and resolve is what the helper type calls. -/
theorem World.At.asks {w : World} {kind : LoaderKind} {number : Nat} {calls : List LoaderCall}
    {addresses : List UInt64} (at_ : w.At (kind.trace number calls) addresses) :
    ∀ a ∈ addresses, w.Asks kind a := by
  intro a mem
  obtain ⟨f, traced, found⟩ := List.exists_left_of_forall₂ at_ mem
  clear at_ mem
  induction calls generalizing number with
  | nil => cases traced
  | cons call calls ih =>
    rcases List.mem_append.mp traced with first | rest
    · exact ⟨number, call, f, first, found⟩
    · exact ih rest

/-- The function at an address opens no library, and calls none of what the helper type calls. -/
structure World.Quiet (w : World) (kind : LoaderKind) (address : UInt64) : Prop where
  loads : ∀ n args p, (w.invoke n address args p).2.loads = p.loads
  calls : ∀ n args p, ∃ calls, (w.invoke n address args p).2.calls = p.calls ++ calls ∧
    ∀ a ∈ calls, ¬w.Asks kind a

/-- A function that neither opens libraries nor calls others is quiet. -/
theorem World.quiet_of_body {w : World} {kind : LoaderKind} {address : UInt64}
    (other : ¬w.Asks kind address)
    (body : ∀ f, w.function? address = some f → ∀ cx args p,
      (f.body cx args p).2.loads = p.loads ∧ (f.body cx args p).2.calls = p.calls) :
    w.Quiet kind address := by
  have apply (n : Nat) (args : List NativeValue) (p : NativeState) :
      (w.invoke n address args p).2.loads = p.loads ∧
        ∃ calls, (w.invoke n address args p).2.calls = p.calls ++ calls ∧
          ∀ a ∈ calls, ¬w.Asks kind a := by
    cases n with
    | zero => exact ⟨rfl, [], (List.append_nil _).symm, List.forall_mem_nil _⟩
    | succ n =>
      rw [invoke]
      cases found : w.function? address with
      | none => exact ⟨rfl, [], (List.append_nil _).symm, List.forall_mem_nil _⟩
      | some f =>
        obtain ⟨loads, calls⟩ := body f found ⟨w.catalog, fun callee args => w.invoke n callee args⟩ args
          { p with calls := p.calls ++ [address] }
        exact ⟨loads, [address], calls, fun a mem => List.mem_singleton.mp mem ▸ other⟩
  exact ⟨fun n args p => (apply n args p).1, fun n args p => (apply n args p).2⟩

/-- Static fields are as they were, and nothing has been asked of the system's loader. -/
structure MachineState.SameCells (w : World) (kind : LoaderKind) (s s' : MachineState) : Prop where
  statics : s'.statics = s.statics
  loads : s'.native.loads = s.native.loads
  calls : ∃ calls, s'.native.calls = s.native.calls ++ calls ∧ ∀ a ∈ calls, ¬w.Asks kind a

namespace MachineState.SameCells

variable {w : World} {kind : LoaderKind} {s s' s'' : MachineState}

theorem of_eq (statics : s'.statics = s.statics) (loads : s'.native.loads = s.native.loads)
    (calls : s'.native.calls = s.native.calls) : s.SameCells w kind s' :=
  ⟨statics, loads, [], by rw [calls, List.append_nil], by simp⟩

theorem refl (s : MachineState) : s.SameCells w kind s := .of_eq rfl rfl rfl

theorem trans (first : s.SameCells w kind s') (second : s'.SameCells w kind s'') :
    s.SameCells w kind s'' := by
  obtain ⟨calls, eq, others⟩ := first.calls
  obtain ⟨calls', eq', others'⟩ := second.calls
  refine ⟨second.statics.trans first.statics, second.loads.trans first.loads, calls ++ calls',
    by rw [eq', eq, List.append_assoc], fun a ha => ?_⟩
  exact (List.mem_append.mp ha).elim (others a) (others' a)

theorem stable (s : MachineState) : Stable (Beside (s.SameCells w kind)) :=
  .beside (fun _ _ same => ⟨same.statics, same.loads, same.calls⟩)
    (fun _ _ _ _ _ same => ⟨same.statics, same.loads, same.calls⟩)
    fun _ _ _ same => ⟨same.statics, same.loads, same.calls⟩

theorem lenient (s : MachineState) : Lenient (Beside (s.SameCells w kind)) :=
  .beside (fun _ _ same => ⟨same.statics, same.loads, same.calls⟩)
    (fun _ _ same => ⟨same.statics, same.loads, same.calls⟩)
    fun _ _ _ _ same => ⟨same.statics, same.loads, same.calls⟩

theorem adds (adds : s.Adds s') : s.SameCells w kind s' := by
  obtain ⟨more, rfl⟩ := adds
  exact .of_eq rfl rfl rfl

theorem grows {module : Module} (grows : s.Grows module s') : s.SameCells w kind s' :=
  .of_eq grows.statics (by rw [grows.native]) (by rw [grows.native])

theorem givesBack {tables : List ObjRef} {fault : Option MachineError}
    (back : s.GivesBack tables fault s') : s.SameCells w kind s' := by
  rw [back.eq]
  exact .of_eq rfl rfl rfl

theorem releasePins (s : MachineState) : s.SameCells w kind (Machine.releasePins s).2 :=
  (keeps_releasePins (stable s) (lenient s) fun _ same =>
    ⟨same.statics, same.loads, same.calls⟩).holds (refl s)

end MachineState.SameCells

namespace Machine

variable {m : Machine} {kind : LoaderKind} {s s' s₁ : MachineState} {st : StubScaffold}
  {callee : OwnedMethod} {address : UInt64} {args passed : List Value}

/-- A call through an address leaves alone what the function there does. -/
theorem keeps_callIndirect {X : MachineError → Prop} {P : MachineState → Prop}
    (stable : Stable (Beside P)) {call : NativeCall}
    (native : ∀ args, Keeps X P (Exec.native (call address args))) (site : CallSite) :
    Keeps X P (m.callIndirect call address site args) := by
  have only : Agree X (Beside P) (m.callIndirect (fun _ args => call address args) address site args)
      (m.callIndirect (fun _ args => call address args) address site args) :=
    agree_callIndirect (.refl m) stable (fun _ args => (native args).agree) address site args
  exact only.keeps

theorem sameCells_callIndirect (quiet : m.world.Quiet kind address) (n : Nat) (site : CallSite)
    (s : MachineState) :
    s.SameCells m.world kind (m.callIndirect (m.world.invoke n) address site args s).2 := by
  refine (keeps_callIndirect (MachineState.SameCells.stable s) (fun natives s' same => .inr ?_)
    site).holds (.refl s)
  exact same.trans ⟨rfl, quiet.loads n natives s'.native, quiet.calls n natives s'.native⟩

theorem Concludes.sameCells {slot : ReturnSlot} {tables : List ObjRef}
    {r r' : Except Trap (Option Value)} (concludes : m.Concludes slot tables r s r' s')
    (taken : ∀ v, r = .ok v → ∃ n, m.module.ofNative slot.nativeType n = .ok v) :
    s.SameCells m.world kind s' := by
  have reads {v : Option Value} (given : r = .ok v) :
      s.SameCells m.world kind (m.unmarshal slot v s).2 := by
    obtain ⟨n, taken⟩ := taken v given
    exact .adds (m.adds_unmarshal taken s).1
  cases concludes with
  | stopped => exact .refl s
  | threw back => exact .givesBack back
  | unread fails =>
    have same := reads rfl
    rwa [fails] at same
  | returned read back =>
    have same := reads rfl
    rw [read] at same
    exact same.trans (.givesBack back)

/-- What a call through the address gives as a result has come from native code. -/
theorem RunsStub.taken {helper : TypeName} {flags : Int32}
    (stub : m.RunsStub helper flags st callee) {call : NativeCall} {passing : MachineState}
    {passed : List Value} {v : Option Value}
    (given : (m.callIndirect call address st.callSite passed passing).1 = .ok v) :
    ∃ n, m.module.ofNative st.stub.returns.nativeType n = .ok v := by
  have native : st.callSite.returnType = st.stub.returns.nativeType := by
    rw [stub.emittable.fits.callSite]
    rfl
  rw [← native]
  exact exists_ofNative (Prod.ext given rfl)

/-- No native function changes a static field. -/
theorem statics_callIndirect (m : Machine) (call : NativeCall) (address : UInt64) (site : CallSite)
    (args : List Value) (s : MachineState) :
    (m.callIndirect call address site args s).2.statics = s.statics := by
  have blind : Blind fun s' => s'.statics = s.statics := fun _ _ same _ kept => same.trans kept
  exact (keeps_callIndirect blind.stable (fun _ _ kept => .inr kept) site).holds
    (P := fun s' => s'.statics = s.statics) rfl

/-- A stub that has been readied changes no cell, whatever the function does. -/
theorem RunsStub.statics {helper : TypeName} {flags : Int32} (stub : m.RunsStub helper flags st callee)
    (readies : m.Readies st s address s₁)
    (takes : List.Forall₂ (ParamSlot.Takes m.module s₁) st.stub.params args) (fuel : Nat) :
    Starved (m.invoke fuel callee args s) ∨ (m.invoke fuel callee args s).2.statics = s₁.statics := by
  obtain ⟨ts, made, passing, passed, marshals, awaits⟩ := stub.awaits readies takes
  refine (awaits.cases fuel).imp_right ?_
  rintro ⟨n, r, s', invoked, concludes⟩
  rw [invoked]
  have behind : MachineState.SameCells m.world .unsupported _ s' :=
    concludes.sameCells fun _ => stub.taken
  exact behind.statics.trans ((m.statics_callIndirect ..).trans marshals.passesAll.grows.statics)

/-- A stub that has been readied changes no cell and asks for nothing. -/
theorem RunsStub.sameCells {helper : TypeName} {flags : Int32} (stub : m.RunsStub helper flags st callee)
    (quiet : m.world.Quiet kind address) (readies : m.Readies st s address s₁)
    (takes : List.Forall₂ (ParamSlot.Takes m.module s₁) st.stub.params args) (fuel : Nat) :
    Starved (m.invoke fuel callee args s) ∨
      s₁.SameCells m.world kind (m.invoke fuel callee args s).2 := by
  obtain ⟨ts, made, passing, passed, marshals, awaits⟩ := stub.awaits readies takes
  refine (awaits.cases fuel).imp_right ?_
  rintro ⟨n, r, s', invoked, concludes⟩
  rw [invoked]
  exact (MachineState.SameCells.grows marshals.passesAll.grows).trans
    ((sameCells_callIndirect quiet n st.callSite passing).trans
      (concludes.sameCells fun _ => stub.taken))

end Machine

end LateBind
