import LateBind.Proofs.TableCode

/-! # Calls of stubs that were bound late

Such a call is a call through the address in the stub's cell. The arguments are converted before it
and the result behind it, and the copies of strings in arrays are given back whether it returns or
throws. -/

namespace LateBind

open Exec

namespace Machine

variable {m : Machine} {f : Frame} {s s' : MachineState}

/-! ## Thunks -/

/-- The code that loads all arguments. -/
theorem LeadsIn.ldargs {locals : List Value} (few : f.args.length ≤ 2 ^ 16)
    (code : ∀ p, p < f.args.length → f.body.instrs[p]? = some (.ldarg (UInt16.ofNat p))) :
    m.LeadsIn f.args.length 0 (f.at 0 locals []) s (f.at f.args.length locals f.args.reverse) s := by
  have loads (n : Nat) (le : n ≤ f.args.length) :
      m.LeadsIn n 0 (f.at 0 locals []) s (f.at n locals (f.args.take n).reverse) s := by
    induction n with
    | zero => exact ⟨fun _ _ => rfl, nofun⟩
    | succ n ih =>
      have number : (UInt16.ofNat n).toNat = n := by
        rw [UInt16.toNat_ofNat', Nat.mod_eq_of_lt (by omega)]
      have found : f.args[(UInt16.ofNat n).toNat]? = some f.args[n] := by
        rw [number, List.getElem?_eq_getElem le]
      have one : m.LeadsIn 1 0 (f.at n locals (f.args.take n).reverse) s
          (f.at (n + 1) locals (f.args[n] :: (f.args.take n).reverse)) s :=
        LeadsIn.step (code n le) (Leads.instr_ldarg found)
      have both := (ih (by omega)).trans one
      rw [Nat.zero_sub, Nat.max_self, Nat.add_comm] at both
      rw [List.take_succ_eq_append_getElem le, List.reverse_append]
      exact both
  have all := loads f.args.length (Nat.le_refl _)
  rwa [List.take_length] at all

/-- A call through a pointer comes to what the native call comes to. -/
theorem Leads.instr_calli {pc : Nat} {locals stack : List Value} (args : List Value) {site : CallSite}
    {address : UInt64} (count : site.params.length = args.length) (n : Nat) :
    Step.instr m (m.callees n) (.calli site)
        (f.at pc locals (.ptr address :: (args.reverse ++ stack))) s =
      match m.callIndirect (m.world.invoke n) address site args s with
      | (.ok v, s') => (.ok (.next, f.at pc locals (pushed v stack)), s')
      | (.error e, s') => (.error e, s') := by
  simp only [Step.instr, Step.perform, count, Step.bind_apply, Step.pop_apply, Value.toPointer?,
    Step.expect_some, Step.pure_apply, popArgs_apply, Step.lift_apply, callees]
  rcases m.callIndirect (m.world.invoke n) address site args s with ⟨r, s'⟩
  cases r with
  | error e => rfl
  | ok v => simp only [pushResult_apply]

/-- What a native call gives is a value of its return type. -/
theorem exists_ofNative {call : NativeCall} {address : UInt64} {site : CallSite} {args : List Value}
    {v : Option Value} (called : m.callIndirect call address site args s = (.ok v, s')) :
    ∃ n, m.module.ofNative site.returnType n = .ok v := by
  unfold callIndirect at called
  obtain ⟨converted, s₁, -, called⟩ := exists_of_bind_ok called
  obtain ⟨outcome, s₂, -, called⟩ := exists_of_bind_ok called
  obtain ⟨n, s₃, -, called⟩ := exists_of_bind_ok called
  cases taken : m.module.ofNative site.returnType n with
  | error e =>
    rw [taken] at called
    cases called
  | ok v' =>
    rw [taken] at called
    cases called
    exact ⟨n, taken⟩

/-- Without fuel native code gives nothing. -/
theorem callIndirect_zero {address : UInt64} {site : CallSite} {args : List Value}
    {v : Option Value} : m.callIndirect (m.world.invoke 0) address site args s ≠ (.ok v, s') := by
  intro called
  unfold callIndirect at called
  obtain ⟨converted, s₁, -, called⟩ := exists_of_bind_ok called
  obtain ⟨outcome, s₂, around, called⟩ := exists_of_bind_ok called
  unfold callPinned at around
  obtain ⟨_, s₃, -, around⟩ := exists_of_bind_ok around
  obtain ⟨outcome', s₄, native, around⟩ := exists_of_bind_ok around
  obtain ⟨_, s₅, -, same⟩ := exists_of_bind_ok around
  cases same
  have starved : outcome = .error .outOfFuel := congrArg (fun r => r.1.toOption.getD outcome) native.symm
  subst starved
  obtain ⟨n, s₆, settled, -⟩ := exists_of_bind_ok called
  cases settled

/-- A thunk gives what the call through its last argument gives. -/
theorem thunk_relays {owner : TypeName} {st : StubScaffold} (fits : st.Fits owner)
    (few : st.stub.params.length < 30000) {thunk : MethodDef} (made : st.thunkDef = .ok thunk)
    {args : List Value} (count : args.length = st.stub.params.length) (address : UInt64)
    (s : MachineState) : m.Relays ⟨owner, thunk⟩ (args ++ [.ptr address]) s fun n =>
      m.callIndirect (m.world.invoke n) address st.callSite args s := by
  obtain ⟨k, eq⟩ := StubScaffold.thunkDef_eq fits (by omega)
  cases made.symm.trans eq
  let code : List Instr :=
    ((List.range (st.stub.params.length + 1)).map fun i => .ldarg (UInt16.ofNat i)) ++
      [.calli st.callSite, .ret]
  let body : Body := ⟨[], code, [], [], true, k⟩
  generalize thunk : OwnedMethod.mk owner _ = callee
  have hasBody : callee.method.body = some body := by rw [← thunk]; rfl
  have notImport : callee.method.importInfo = none := by rw [← thunk]; rfl
  have returns : callee.method.returnType = st.callSite.returnType := by
    rw [← thunk]
    exact congrArg MethodRef.returnType fits.thunk
  let f : Frame := .start m.module callee body (args ++ [.ptr address])
  have length : f.args.length = st.stub.params.length + 1 := by
    rw [← count]
    exact List.length_append
  have loads : m.LeadsIn f.args.length 0 f s (f.at f.args.length [] f.args.reverse) s :=
    LeadsIn.ldargs (by omega) fun p hp => by
      simp [f, body, code, Frame.start, List.getElem?_append, length ▸ hp]
  have behind (p : Nat) : code[st.stub.params.length + 1 + p]? =
      [Instr.calli st.callSite, .ret][p]? := by
    rw [List.getElem?_append_right (by simp)]
    simp
  have calls : f.body.instrs[f.args.length]? = some (.calli st.callSite) := length ▸ behind 0
  have ends : f.body.instrs[f.args.length + 1]? = some .ret := length ▸ behind 1
  have site : st.callSite.params.length = args.length := by
    rw [count, fits.callSite]
    simp [StubScaffold.callSiteOf, Stub.nativeParamTypes]
  have stack : f.args.reverse = .ptr address :: (args.reverse ++ []) := by
    rw [List.append_nil]
    exact List.reverse_append
  have ran (n : Nat) : (m.run (n + 1) (f.at f.args.length [] f.args.reverse) >>= exitValue callee) s =
      m.callIndirect (m.world.invoke n) address st.callSite args s := by
    have does : Step.instr m (m.callees n) (.calli st.callSite)
        (f.at f.args.length [] (.ptr address :: (args.reverse ++ []))) s = _ :=
      Leads.instr_calli args site n
    rw [stack]
    rcases called : m.callIndirect (m.world.invoke n) address st.callSite args s with ⟨r, s'⟩
    rw [called] at does
    cases r with
    | error t =>
      cases t with
      | fatal e => exact bind_error (run_fatal (f := f.at _ _ _) calls does) _
      | exception object => exact bind_error (run_error (f := f.at _ _ _) calls rfl does) _
    | ok v =>
      cases n with
      | zero => exact absurd called callIndirect_zero
      | succ n =>
        obtain ⟨value, taken⟩ := exists_ofNative called
        have fits : v.isSome = !f.returnType.isVoid := by
          have same : f.returnType = st.callSite.returnType := returns
          rw [same]
          exact (Module.kind_of_ofNative taken).1
        obtain ⟨after, gives⟩ := run_ret (m := m) (f := f) (s := s') ends fits n
        exact bind_ok ((run_next (f := f.at _ _ _) calls does).trans gives) _
  obtain ⟨go, starve⟩ := loads
  refine ⟨f.args.length + 2, fun n => ?_, fun n hn => ?_⟩
  · have arrives : m.run (n + 1 + f.args.length) f s =
        m.run (n + 1) (f.at f.args.length [] f.args.reverse) s := go (n + 1) (Nat.zero_le _)
    have fuel : n + (f.args.length + 2) = n + 1 + f.args.length + 1 := by omega
    rw [fuel, invoke_body notImport hasBody]
    refine Eq.trans ?_ (ran n)
    rw [bind_apply, bind_apply, ← arrives]
  · cases n with
    | zero => rfl
    | succ n =>
      rw [invoke_body notImport hasBody]
      refine Starved.bind ?_ _
      by_cases short : n < f.args.length
      · exact starve n (by omega)
      · obtain rfl : n = 0 + f.args.length := by omega
        change Starved (m.run (0 + f.args.length) f s)
        rw [go 0 (Nat.le_refl 0)]
        exact starved_run_zero m _ s

/-! ## Before and behind the call -/

/-- The stub's cell holds an address, either already or once the stub's initializer has filled it. -/
inductive Readies (m : Machine) (st : StubScaffold) (s : MachineState) (address : UInt64) :
    MachineState → Prop
  | bound (holds : s.Holds st.cell address) (nonzero : address ≠ 0) : Readies m st s address s
  | loads {initializer : OwnedMethod} {s' : MachineState} (empty : s.Holds st.cell 0)
      (resolves : m.module.resolveMethod? st.initializer.owner st.initializer.name
        st.initializer.params = some initializer)
      (ends : m.Ends initializer [] s (.ok none) s') (holds : s'.Holds st.cell address) :
      Readies m st s address s'

theorem Readies.holds {st : StubScaffold} {address : UInt64} (readies : m.Readies st s address s') :
    s'.Holds st.cell address := by
  cases readies with
  | bound holds nonzero => exact holds
  | loads empty resolves ends holds => exact holds

/-- How a stub ends whose native call has come to something. A result is converted, and then the
copies of strings are given back; they are given back as well behind an exception. -/
inductive Concludes (m : Machine) (slot : ReturnSlot) (tables : List ObjRef) :
    Except Trap (Option Value) → MachineState → Except Trap (Option Value) → MachineState → Prop
  | stopped (e : MachineError) (s : MachineState) :
      Concludes m slot tables (.error (.fatal e)) s (.error (.fatal e)) s
  | threw {object : ObjRef} {s s' : MachineState} {fault : Option MachineError}
      (back : s.GivesBack tables fault s') :
      Concludes m slot tables (.error (.exception object)) s
        (orFault fault (.error (.exception object))) s'
  | unread {v : Option Value} {s s' : MachineState} {e : MachineError}
      (fails : m.unmarshal slot v s = (.error (.fatal e), s')) :
      Concludes m slot tables (.ok v) s (.error (.fatal e)) s'
  | returned {v w : Option Value} {s s₁ s' : MachineState} {fault : Option MachineError}
      (reads : m.unmarshal slot v s = (.ok w, s₁)) (back : s₁.GivesBack tables fault s') :
      Concludes m slot tables (.ok v) s (orFault fault (.ok w)) s'

/-- The body and the thunk of a stub that was bound late are those that were made for it. -/
structure RunsStub (m : Machine) (helper : TypeName) (flags : Int32) (st : StubScaffold)
    (callee : OwnedMethod) : Prop where
  hasHelper : m.HasHelper helper flags
  emittable : StubBody.Emittable st.thunk.owner st
  body : ∃ body, StubBody.compile helper st = .ok body ∧ callee.method.body = some body
  notImport : callee.method.importInfo = none
  returns : callee.method.returnType = st.stub.returns.type
  thunk : ∃ method, st.thunkDef = .ok method ∧ m.module.resolveMethod? st.thunk.owner st.thunk.name
    st.thunk.params = some ⟨st.thunk.owner, method⟩

end Machine

namespace StubBody

open Machine Emitter Locals

variable {m : Machine} {f : Frame} {s s' : MachineState} {e e' e₁ e₂ e₃ : Emitter}
  {locals : List Value} {helper : TypeName} {flags : Int32} {st : StubScaffold}
  {callee : OwnedMethod} {body : Body} {address : UInt64}
  {slots : List (ParamSlot × Option UInt16)}

/-! ## The parts of a body -/

/-- The code that fills the address cell. -/
theorem emitReady_leads {owner : TypeName} (fits : st.Fits owner) (he : e.At 0)
    (hl : e.labels.size + 1 < 2 ^ 32) (emits : emitReady st e = ((), e')) (within : e'.Within f.body)
    (readies : m.Readies st s address s') :
    m.Leads (f.at e.position locals []) s (f.at e'.position locals []) s' := by
  obtain ⟨k, -, eq⟩ := emitReady_eq he hl fits
  cases emits.symm.trans eq
  have code (p : Nat) {i : Instr} (found : ([.ldsfld st.cell, .brtrue (e.label 0),
      .call st.initializer] : List Instr)[p]? = some i) :
      f.body.instrs[e.position + p]? = some i := within.instr found
  have ready : f.body.target? (e.label 0) = some (e.position + 3) := within.label rfl (by omega)
  have type : st.cell.type = .intPtr := by rw [fits.cell]
  rw [position_grow]
  cases readies with
  | bound holds nonzero =>
    have isTrue : (Value.ptr address).isTrue = true := by simpa [Value.isTrue] using nonzero
    exact (Leads.ldsfld (code 0 rfl) (loadStatic_intPtr holds type)).trans
      (Leads.brtrue (code 1 rfl) ready isTrue)
  | loads empty resolves ends holds =>
    have static : st.initializer.hasThis = false := by rw [fits.initializer]; rfl
    have none : st.initializer.params = [] := by rw [fits.initializer]; rfl
    exact ((Leads.ldsfld (code 0 rfl) (loadStatic_intPtr empty type)).trans
      (Leads.brtrue_next (code 1 rfl) rfl)).trans
        (Leads.call [] (code 2 rfl) static (by rw [none]; rfl) resolves ends)

/-- The code of a call has three parts: arguments, the call of the thunk, and the result. -/
structure CallCode (helper : TypeName) (st : StubScaffold) (slots : List (ParamSlot × Option UInt16))
    (body : Body) (e e₁ e₂ e₃ : Emitter) : Prop where
  arguments : (slots.zipIdx.forM fun ((slot, addresses), index) =>
    emitArgument helper slot (UInt16.ofNat index) addresses) e = ((), e₁)
  call : Emit.instrs [.ldsfld st.cell, .call st.thunk] e₁ = ((), e₂)
  result : emitResult st.stub.returns e₂ = ((), e₃)
  rests₁ : e₁.Rests st.stub.params.length
  rests₂ : e₂.Rests (resultHeight st.stub.returns.type)
  within : e.Within body
  within₁ : e₁.Within body
  within₂ : e₂.Within body
  within₃ : e₃.Within body
  labels₂ : e₂.labels.size + 2 < 2 ^ 32
  before : e.position ≤ e₁.position
  behind : e₁.position + 2 ≤ e₃.position
  locals : e₁.locals.size ≤ e₃.locals.size

theorem exists_callCode {owner : TypeName} (hs : Countable owner st) (he : e.Rests 0)
    (params : slots.map Prod.fst = st.stub.params) (made : Made slots)
    (held : Held e.locals.size slots) (hl : e.labels.size + 2 * slots.length + 4 < 2 ^ 32)
    (emits : emitCall helper st slots e = ((), e')) (within : e'.Within body) :
    ∃ e₁ e₂, CallCode helper st slots body e e₁ e₂ e' := by
  have few := hs.few
  have count : slots.length = st.stub.params.length := by rw [← params, List.length_map]
  obtain ⟨e₁, eq₁, lays₁⟩ := emitArguments_lays (n := st.stub.params.length) (i := 0) he helper made
    held (by omega) (by omega) (by omega)
  have labels₁ := lays₁.labels_le
  rw [Nat.zero_add, count] at lays₁
  obtain ⟨k, -, grown⟩ := emitThunkCall_eq hs lays₁.rests.toAt
  obtain ⟨e₂, eq₂, lays₂⟩ := emitThunkCall_lays (n := st.stub.params.length) hs lays₁.rests
  have labels₂ := lays₂.labels_le
  have rests₂ : e₂.Rests (0 + resultHeight st.stub.returns.type) := by
    rw [Nat.zero_add]
    exact lays₂.rests
  obtain ⟨e₃, eq₃, lays₃⟩ :=
    emitResult_lays (n := st.stub.params.length) rests₂ (by omega) (by omega) rfl
  obtain rfl : e' = e₃ := by
    simp only [emitCall, Emit.bind_apply, eq₁, eq₂, eq₃] at emits
    exact (congrArg Prod.snd emits).symm
  have two : e₂.position = e₁.position + 2 := by
    have same : e₂ = _ := congrArg Prod.snd (eq₂.symm.trans grown)
    rw [same, position_grow]
    rfl
  have within₂ := lays₃.within within
  have within₁ := lays₂.within within₂
  exact ⟨e₁, e₂, eq₁, eq₂, eq₃, lays₁.rests, lays₂.rests, lays₁.within within₁, within₁, within₂, within,
    by omega, lays₁.position_le, two ▸ lays₃.position_le,
    Nat.le_trans lays₂.locals_le lays₃.locals_le⟩

/-- With the arguments on the stack, the native call is made, and what it comes to decides how the
stub ends. -/
theorem CallCode.awaits {passed : List Value} {tables : List ObjRef}
    (code : CallCode helper st slots f.body e e₁ e₂ e₃) (stub : m.RunsStub helper flags st callee)
    (holds : s.Holds st.cell address) (count : passed.length = st.stub.params.length)
    (has : s.HasTables tables)
    (behind : ∀ w s', w.isSome = !st.stub.returns.type.isVoid → s'.HasTables tables →
      ∃ fault s'', s'.GivesBack tables fault s'' ∧
        m.Finishes (f.at e₃.position locals (Leads.pushed w [])) s' (orFault fault (.ok w)) s'')
    (unwinds : ∀ s' : MachineState, s'.HasTables tables → ∃ fault s'',
      s'.GivesBack tables fault s'' ∧ m.Unwinds f (e₁.position + 1) locals s' fault s'') :
    m.Awaits (f.at e₁.position locals passed.reverse) s
      (fun n => m.callIndirect (m.world.invoke n) address st.callSite passed s)
      (m.Concludes st.stub.returns tables) := by
  have fits := stub.emittable.fits
  obtain ⟨thunk, thunkMade, resolves⟩ := stub.thunk
  have cellType : st.cell.type = .intPtr := by rw [fits.cell]
  obtain ⟨k, -, eq⟩ := emitThunkCall_eq stub.emittable.countable code.rests₁.toAt
  obtain rfl : e₂ = _ := congrArg Prod.snd (code.call.symm.trans eq)
  have loads : f.body.instrs[e₁.position]? = some (.ldsfld st.cell) := code.within₂.instr (p := 0) rfl
  have calls : f.body.instrs[e₁.position + 1]? = some (.call st.thunk) :=
    code.within₂.instr (p := 1) rfl
  have native : st.callSite.returnType = st.stub.returns.nativeType := by rw [fits.callSite]; rfl
  refine (Leads.ldsfld loads (loadStatic_intPtr holds cellType)).awaits ?_
  have stack : Value.ptr address :: passed.reverse = (passed ++ [Value.ptr address]).reverse ++ [] := by
    simp
  rw [stack]
  refine Awaits.call (passed ++ [.ptr address]) calls ?static ?count resolves
    (thunk_relays fits stub.emittable.few thunkMade count address s) ?goesOn (fun e s' => Concludes.stopped e s') ?throws
  case static => rw [fits.thunk]; rfl
  case count =>
    rw [fits.thunk, fits.callSite]
    simp [MethodRef.static, StubScaffold.callSiteOf, Stub.nativeParamTypes, count]
  case goesOn =>
    intro n v s' called
    have has' : s'.HasTables tables := by
      have kept := has.callIndirect (m := m) (m.world.invoke n) address st.callSite passed
      rwa [called] at kept
    obtain ⟨value, taken⟩ := exists_ofNative called
    rw [native] at taken
    have position : e₁.position + 1 + 1 = (e₁.grow [.ldsfld st.cell, .call st.thunk] [] []
        (resultHeight st.stub.returns.type) k true).position := by
      rw [position_grow]
      rfl
    have turns := emitResult_turns stub.hasHelper code.rests₂ code.labels₂ code.result code.within₃
      stub.emittable.void taken locals s'
    have adds := m.adds_unmarshal taken s'
    rw [← position] at turns
    rcases reads : m.unmarshal st.stub.returns v s' with ⟨r, s₁⟩
    rw [reads] at turns adds
    cases turns with
    | stops finishes => exact ⟨_, s₁, .unread reads, finishes⟩
    | @leads w _ leads =>
      have some : w.isSome = !st.stub.returns.type.isVoid := by
        rw [isSome_of_unmarshal reads, (Module.kind_of_ofNative taken).1, ReturnSlot.nativeType]
        cases void : st.stub.returns.type.isVoid with
        | true => rw [stub.emittable.void void]; exact congrArg (!·) void
        | false => rw [isVoid_nativeType void]
      obtain ⟨fault, s'', back, finishes⟩ := behind w s₁ some (has'.adds adds.1)
      exact ⟨_, s'', .returned reads back, leads.finishes finishes⟩
  case throws =>
    intro n object s' called
    have has' : s'.HasTables tables := by
      have kept := has.callIndirect (m := m) (m.world.invoke n) address st.callSite passed
      rwa [called] at kept
    obtain ⟨fault, s'', back, unwinds⟩ := unwinds s' has'
    exact ⟨fault, s'', .threw back, unwinds⟩

end StubBody

end LateBind
