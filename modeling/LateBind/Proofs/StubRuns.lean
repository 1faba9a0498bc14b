import LateBind.Proofs.StubCalls

/-! # Bodies of stubs that were bound late

A body fills the cell, makes tables for the arrays of strings, copies the strings, and calls. With
tables the call is protected, so that the copies are given back on every way out of it. -/

namespace LateBind

open Exec

namespace Machine

/-- What surrounds the call of a thunk: behind the result and behind an exception the copies are given
back, and the frame ends. -/
structure Surrounds (m : Machine) (f : Frame) (t : TypeRef) (inside behind : Nat)
    (locals : List Value) (tables : List ObjRef) : Prop where
  finishes : ∀ (w : Option Value) (s : MachineState), w.isSome = !t.isVoid → s.HasTables tables →
    ∃ fault s', s.GivesBack tables fault s' ∧
      m.Finishes (f.at behind locals (Leads.pushed w [])) s (orFault fault (.ok w)) s'
  unwinds : ∀ s : MachineState, s.HasTables tables → ∃ fault s', s.GivesBack tables fault s' ∧
    m.Unwinds f inside locals s fault s'

end Machine

namespace StubBody

open Machine Emitter Locals

variable {m : Machine} {f : Frame} {s s₀ s' : MachineState}
  {e a a₁ a₂ b c d e' : Emitter} {locals : List Value} {helper : TypeName} {flags : Int32}
  {st : StubScaffold} {callee : OwnedMethod} {body : Body} {address : UInt64}
  {slots : List (ParamSlot × Option UInt16)} {args : List Value} {ts : List AddressTable}

/-! ## Protected calls -/

/-- A result waits in a local of its own while copies are given back. -/
inductive Waits (body : Body) (t : TypeRef) (e e₁ e₂ e₃ : Emitter) : Prop
  | void (void : t.isVoid = true) (before : e₁.position = e.position)
      (behind : e₃.position = e₂.position)
  | result {index : UInt16} (nonvoid : t.isVoid = false)
      (stores : body.instrs[e.position]? = some (.stloc index))
      (before : e₁.position = e.position + 1)
      (loads : body.instrs[e₂.position]? = some (.ldloc index))
      (behind : e₃.position = e₂.position + 1) (new : e.locals.size ≤ index.toNat)
      (there : index.toNat < body.locals.length)

theorem Waits.position_le {t : TypeRef} (waits : Waits body t b c d e') :
    b.position ≤ c.position := by
  cases waits with
  | void void before behind => omega
  | result nonvoid stores before loads behind new there => omega

theorem Waits.leads {t : TypeRef} (waits : Waits f.body t b c d e') {w : Option Value}
    (fits : w.isSome = !t.isVoid) (count : locals.length = f.body.locals.length) :
    ∃ locals', SameBelow b.locals.size locals locals' ∧
      (∀ s : MachineState, m.Leads (f.at b.position locals (Leads.pushed w [])) s
        (f.at c.position locals' []) s) ∧
      ∀ s : MachineState, m.Leads (f.at d.position locals' []) s
        (f.at e'.position locals' (Leads.pushed w [])) s := by
  cases waits with
  | void void before behind =>
    obtain rfl : w = none := by simpa [void] using fits
    rw [before, behind]
    exact ⟨locals, .refl _ _, fun s => .refl m _ s, fun s => .refl m _ s⟩
  | @result index nonvoid stores before loads behind new there =>
    obtain ⟨v, rfl⟩ : ∃ v, w = some v := Option.isSome_iff_exists.mp (by simpa [nonvoid] using fits)
    rw [before, behind]
    have inside : index.toNat < locals.length := count ▸ there
    exact ⟨locals.set index.toNat v, .set _ new v, fun s => Leads.stloc stores inside,
      fun s => Leads.ldloc loads (List.getElem?_set_self inside)⟩

/-- The code of a protected call. The arguments start behind the copying of strings, and the result
waits while the copies are given back. -/
structure ProtectedCode (helper : TypeName) (st : StubScaffold)
    (slots : List (ParamSlot × Option UInt16)) (body : Body) (e a a₁ a₂ b c d e' : Emitter) :
    Prop where
  opened : e.openTry.2.Rests 0
  openedLabels : e.openTry.2.labels.size = e.labels.size + 1
  openedLocals : e.openTry.2.locals.size = e.locals.size
  copies : (slots.zipIdx.forM fun ((slot, addresses), index) =>
    emitCopies helper slot index addresses) e.openTry.2 = ((), a)
  copied : e.openTry.2.Lays st.stub.params.length 0 0 0 a
  copiedLocals : a.locals.size = e.locals.size
  call : CallCode helper st slots body a a₁ a₂ b
  called : a.locals.size ≤ b.locals.size
  waits : Waits body st.stub.returns.type b c d.closeTry e'
  closing : c.openFinally.Rests 0
  closingLabels : c.openFinally.labels.size + 2 < 2 ^ 32
  closingLocals : b.locals.size ≤ c.openFinally.locals.size
  frees : (slots.forM fun (_, addresses) => emitFrees helper addresses) c.openFinally = ((), d)
  freed : c.openFinally.position ≤ d.position
  region : Protected e c d body
  regions : e'.regions = e.regions.push
    ⟨e.position, c.position + 1, c.position + 1, d.position + 1⟩

/-- The finally part gives the copies back, and the body of a stub has what was made for it. -/
theorem exists_finally {n labels : Nat} (he : e.Rests 0) (helper : TypeName)
    (hl : e.labels.size + labels + 4 < 2 ^ 32) (held : Held c.locals.size slots)
    (lays : e.openTry.2.Lays n 0 0 labels c) : ∃ d,
      (slots.forM fun (_, addresses) => emitFrees helper addresses) c.openFinally = ((), d) ∧
      c.openFinally.Rests 0 ∧ c.openFinally.labels.size + 2 < 2 ^ 32 ∧
      c.openFinally.locals.size = c.locals.size ∧ c.openFinally.position ≤ d.position ∧
      d.closeTry.Rests 0 ∧ c.locals.size ≤ d.closeTry.locals.size ∧ d.regions = c.regions ∧
      ∀ body, d.closeTry.Within body → Protected e c d body := by
  obtain ⟨rests, size, same⟩ := Lays.openFinally he.toAt (by omega) lays
  obtain ⟨d, eq, freed⟩ :=
    emitAllFrees_lays rests (by omega) helper (held.mono (Nat.le_of_eq same.symm)) (by omega)
  obtain ⟨closed, kept⟩ := Lays.protect he.toAt (by omega) lays freed
  have more := freed.locals_le
  have regions : d.regions = c.openFinally.regions := by
    have declares : Emit.Declares (0 * slots.length)
        (slots.forM fun (_, addresses) => emitFrees helper addresses) :=
      Emit.declares_forM fun slot => declares_emitFrees helper slot.2
    have kept := declares.regions c.openFinally
    rwa [eq] at kept
  exact ⟨d, eq, rests, by omega, same, freed.position_le, closed.rests, by omega,
    regions.trans c.same_openFinally.regions, fun body => Lays.protected he.toAt (by omega) lays freed⟩

/-- The try part of a protected call but for the result: the strings are copied, and the thunk is
called. -/
structure TryCode (helper : TypeName) (st : StubScaffold) (slots : List (ParamSlot × Option UInt16))
    (e a b : Emitter) : Prop where
  opened : e.openTry.2.Rests 0
  openedLabels : e.openTry.2.labels.size = e.labels.size + 1
  openedLocals : e.openTry.2.locals.size = e.locals.size
  copies : (slots.zipIdx.forM fun ((slot, addresses), index) =>
    emitCopies helper slot index addresses) e.openTry.2 = ((), a)
  copied : e.openTry.2.Lays st.stub.params.length 0 0 0 a
  copiedLocals : a.locals.size = e.locals.size
  called : emitCall helper st slots a = ((), b)
  calls : a.Lays st.stub.params.length 0 (resultHeight st.stub.returns.type) (2 * slots.length + 2) b
  calledLocals : b.locals.size ≤ e.locals.size + allLocals slots
  regions : b.regions = e.regions

section TryCode

variable {owner : TypeName} (hs : Countable owner st) (he : e.Rests 0)
  (params : slots.map Prod.fst = st.stub.params) (made : Made slots) (held : Held e.locals.size slots)
  (hl : e.labels.size + 2 * slots.length + 8 < 2 ^ 32)

include hs params made held hl

theorem TryCode.exists_callCode (code : TryCode helper st slots e a b) (within : b.Within body) :
    ∃ a₁ a₂, CallCode helper st slots body a a₁ a₂ b := by
  have labels := code.copied.labels_le
  have opened := code.openedLabels
  exact StubBody.exists_callCode hs code.copied.rests params made
    (held.mono code.copiedLocals.ge) (by omega) code.called within

include he

theorem exists_tryCode : ∃ a b, TryCode helper st slots e a b := by
  have count : slots.length = st.stub.params.length := by rw [← params, List.length_map]
  obtain ⟨opened, openedLabels, openedLocals⟩ := Lays.openTry he
  obtain ⟨a, copies, copied⟩ := emitAllCopies_lays (n := st.stub.params.length) (i := 0) opened (by omega)
    helper (held.mono (Nat.le_of_eq openedLocals.symm)) (by omega) (by omega)
  have labels := copied.labels_le
  have declares : Emit.Declares (0 * slots.zipIdx.length) (slots.zipIdx.forM
      fun ((slot, addresses), index) => emitCopies helper slot index addresses) :=
    Emit.declares_forM fun slot => declares_emitCopies helper slot.1.1 slot.2 slot.1.2
  have copiedLocals : a.locals.size = e.locals.size := by
    have kept := declares.locals e.openTry.2
    simp only [copies] at kept
    exact Nat.le_antisymm (by omega) (openedLocals ▸ copied.locals_le)
  have copiedRegions : a.regions = e.regions := by
    have kept := declares.regions e.openTry.2
    rw [copies] at kept
    exact kept.trans e.same_openTry.regions
  obtain ⟨b, called, calls⟩ := emitCall_lays copied.rests helper hs params made
    (held.mono copiedLocals.ge) (by omega)
  refine ⟨a, b, opened, openedLabels, openedLocals, copies, copied, copiedLocals, called, calls,
    ?_, ?_⟩
  · have kept := (declares_emitCall helper st made).locals a
    rw [called, copiedLocals] at kept
    exact kept
  · have kept := (declares_emitCall helper st made).regions a
    rw [called] at kept
    exact kept.trans copiedRegions

/-- Without a result there is nothing that waits. -/
theorem TryCode.protectedCode_void (code : TryCode helper st slots e a b)
    (void : st.stub.returns.type.isVoid = true)
    (emits : emitProtectedCall helper st slots e = ((), e')) (within : e'.Within body) :
    ∃ a₁ a₂ d, ProtectedCode helper st slots body e a a₁ a₂ b b d e' := by
  have calls := code.calls
  rw [show resultHeight st.stub.returns.type = 0 by simp [resultHeight, void]] at calls
  have held' : Held b.locals.size slots := held.mono (code.copiedLocals ▸ calls.locals_le)
  obtain ⟨d, frees, rests, few, same, freed, -, more, regions, region⟩ :=
    exists_finally he helper (by omega) held' (code.copied.trans calls)
  obtain rfl : e' = d.closeTry := by
    simp only [emitProtectedCall, Emit.bind_apply, Emit.beginTry_apply, code.copies, code.called, void,
      if_true, Emit.pure_apply, Emit.beginFinally_apply, frees, Emit.endTry_apply] at emits
    exact (congrArg Prod.snd emits).symm
  have region := region body within
  obtain ⟨a₁, a₂, call⟩ := code.exists_callCode hs params made held hl region.tryPart
  refine ⟨a₁, a₂, d, code.opened, code.openedLabels, code.openedLocals, code.copies, code.copied,
    code.copiedLocals, call, calls.locals_le, .void void rfl rfl, rests, few, same.ge, frees, freed,
    region, ?_⟩
  rw [region.region, regions, code.regions]

/-- A result is stored before the end of the try part and loaded behind the region. -/
theorem TryCode.protectedCode_result (code : TryCode helper st slots e a b)
    (hv : e.locals.size + allLocals slots < 2 ^ 16) (nonvoid : st.stub.returns.type.isVoid = false)
    (emits : emitProtectedCall helper st slots e = ((), e')) (within : e'.Within body) :
    ∃ a₁ a₂ c d, ProtectedCode helper st slots body e a a₁ a₂ b c d e' := by
  have calls := code.calls
  rw [show resultHeight st.stub.returns.type = 1 by simp [resultHeight, nonvoid]] at calls
  have held' : Held b.locals.size slots := held.mono (code.copiedLocals ▸ calls.locals_le)
  have number : (UInt16.ofNat b.locals.size).toNat = b.locals.size :=
    toNat_newLocal (Nat.lt_of_le_of_lt code.calledLocals hv)
  obtain ⟨k, -, stores⟩ := storeResult_eq calls.rests.toAt calls.rests.low st.stub.returns.type
  obtain ⟨c, stored, waits, kept⟩ :=
    storeResult_lays (n := st.stub.params.length) calls.rests st.stub.returns.type
  obtain ⟨d, frees, rests, few, same, freed, closed, more, regions, region⟩ :=
    exists_finally he helper (by omega) (held'.mono waits.locals_le)
      ((code.copied.trans calls).trans waits)
  obtain ⟨k', -, loads⟩ := loadResult_eq closed.toAt (UInt16.ofNat b.locals.size)
  obtain rfl : e' = d.closeTry.push (.ldloc (UInt16.ofNat b.locals.size)) := by
    have index : (b.newLocal st.stub.returns.type false).1 = UInt16.ofNat b.locals.size := rfl
    simp only [emitProtectedCall, Emit.bind_apply, Emit.beginTry_apply, code.copies, code.called,
      nonvoid, Bool.false_eq_true, if_false, Emit.map_apply, Emit.declareLocal_apply, Emit.instr_apply,
      index, stored, Emit.beginFinally_apply, frees, Emit.endTry_apply] at emits
    exact (congrArg Prod.snd emits).symm
  have last := within
  rw [loads] at last
  have region := region body last.of_grow
  have before := region.tryPart
  rw [← stored, stores] at before
  have inside := last.locals
  rw [size_locals_grow, List.length_nil] at inside
  have position : c.position = b.position + 1 := by
    rw [← stored, stores, position_grow]
    rfl
  have waiting : Waits body st.stub.returns.type b c d.closeTry
      (d.closeTry.push (.ldloc (UInt16.ofNat b.locals.size))) := by
    refine .result nonvoid (before.instr (p := 0) rfl) position (last.instr (p := 0) rfl) ?_ number.ge
      (by omega)
    rw [loads, position_grow]
    rfl
  have stays : c.regions = b.regions := by
    rw [← stored]
    exact (same_push _ _).regions
  obtain ⟨a₁, a₂, call⟩ := code.exists_callCode hs params made held hl before.of_grow
  refine ⟨a₁, a₂, c, d, code.opened, code.openedLabels, code.openedLocals, code.copies, code.copied,
    code.copiedLocals, call, calls.locals_le, waiting, rests, few, same ▸ waits.locals_le, frees, freed,
    region, ?_⟩
  rw [(same_push _ _).regions, region.region, regions, stays, code.regions]

theorem exists_protectedCode (hv : e.locals.size + allLocals slots < 2 ^ 16)
    (emits : emitProtectedCall helper st slots e = ((), e')) (within : e'.Within body) :
    ∃ a a₁ a₂ b c d, ProtectedCode helper st slots body e a a₁ a₂ b c d e' := by
  obtain ⟨a, b, code⟩ : ∃ a b, TryCode helper st slots e a b :=
    exists_tryCode hs he params made held hl
  cases void : st.stub.returns.type.isVoid with
  | true =>
    obtain ⟨a₁, a₂, d, protects⟩ :=
      code.protectedCode_void hs he params made held hl void emits within
    exact ⟨a, a₁, a₂, b, b, d, protects⟩
  | false =>
    obtain ⟨a₁, a₂, c, d, protects⟩ :=
      code.protectedCode_result hs he params made held hl hv void emits within
    exact ⟨a, a₁, a₂, b, c, d, protects⟩

end TryCode

section Protected

variable (code : ProtectedCode helper st slots f.body e a a₁ a₂ b c d e')
  (regions : f.body.regions = [⟨e.position, c.position + 1, c.position + 1, d.position + 1⟩])

include code

theorem ProtectedCode.position_le : e.position ≤ a.position := by
  rw [← code.region.start]
  exact code.copied.position_le

/-- Behind the try part the copies are given back. -/
theorem ProtectedCode.cleanup (h' : m.HasHelper helper flags) {fault : Option MachineError}
    (held : Held e.locals.size slots) (tables : Tables m.module s₀ locals slots args ts)
    (back : s.GivesBack (ts.map AddressTable.ref) fault s') :
    m.Cleanup f ⟨e.position, c.position + 1, c.position + 1, d.position + 1⟩ locals s fault locals
      s' := by
  have more : e.locals.size ≤ c.openFinally.locals.size := by
    rw [← code.openedLocals]
    exact Nat.le_trans code.copied.locals_le (Nat.le_trans code.called code.closingLocals)
  have sweeps := emitAllFrees_sweeps h' code.closing (by decide) (Held.mono held more)
    code.closingLabels code.frees code.region.finallyPart tables back []
  rw [code.region.handler] at sweeps
  exact sweeps.cleanup code.region.endfinally

include regions

omit code in
theorem ProtectedCode.around {pc : Nat} (low : e.position ≤ pc) (high : pc ≤ c.position) :
    f.body.regionsAround pc = [⟨e.position, c.position + 1, c.position + 1, d.position + 1⟩] := by
  rw [Body.regionsAround, regions]
  simp [Region.tryContains]
  omega

theorem ProtectedCode.left : f.body.regionsLeft c.position (d.position + 1) =
    [⟨e.position, c.position + 1, c.position + 1, d.position + 1⟩] := by
  have start := code.position_le
  have before := code.call.before
  have behind := code.call.behind
  have waits := code.waits.position_le
  have freed := code.freed
  rw [code.region.handler] at freed
  rw [Body.regionsLeft, regions]
  simp [Region.tryContains]
  omega

/-- On every way out of a protected call the copies are given back. -/
theorem ProtectedCode.surrounds (h' : m.HasHelper helper flags)
    (returns : f.returnType = st.stub.returns.type) (ends : f.body.instrs[e'.position]? = some .ret)
    (count : locals.length = f.body.locals.length) (held : Held e.locals.size slots)
    (tables : Tables m.module s₀ locals slots args ts) :
    m.Surrounds f st.stub.returns.type (a₁.position + 1) b.position locals
      (ts.map AddressTable.ref) where
  finishes w s fits has := by
    obtain ⟨fault, s', back⟩ := MachineState.GivesBack.exists_of_hasTables has
    obtain ⟨locals', same, stores, loads⟩ := code.waits.leads (m := m) fits count
    have more : e.locals.size ≤ b.locals.size := by
      rw [← code.openedLocals]
      exact Nat.le_trans code.copied.locals_le code.called
    have cleanup := code.cleanup h' held (tables.of_same same (Held.mono held more)) back
    refine ⟨fault, s', back, (stores s).finishes ?_⟩
    cases fault with
    | some error =>
      exact Finishes.leave code.region.leave code.region.target (code.left regions) cleanup
    | none =>
      have leaves : m.Leads (f.at c.position _ []) s _ s' :=
        Leads.cleanup code.region.leave code.region.target (code.left regions) cleanup
      rw [← code.region.position] at leaves
      exact leaves.finishes ((loads s').finishes (Finishes.ret ends (by rw [returns]; exact fits)))
  unwinds s has := by
    obtain ⟨fault, s', back⟩ := MachineState.GivesBack.exists_of_hasTables has
    have start := code.position_le
    have before := code.call.before
    have behind := code.call.behind
    have waits := code.waits.position_le
    exact ⟨fault, s', back, .within (ProtectedCode.around regions (by omega) (by omega))
      (code.cleanup h' held tables back)⟩

end Protected

/-! ## Whole bodies -/

theorem Tables.eq_nil {module : Module} (tables : Tables module s₀ locals slots args ts)
    (none : ∀ slot ∈ slots, slot.2 = none) : ts = [] := by
  induction tables with
  | nil => rfl
  | value admits _ ih => exact ih (List.forall_mem_cons.mp none).2
  | table plan has few local_ _ ih => cases none _ List.mem_cons_self

theorem Tables.few {module : Module} (tables : Tables module s₀ locals slots args ts) :
    ∀ t ∈ ts, t.texts.length < 2 ^ 31 := by
  induction tables with
  | nil => exact nofun
  | value admits _ ih => exact ih
  | table plan has few local_ _ ih => exact List.forall_mem_cons.mpr ⟨few, ih⟩

/-- What a body does once it has made tables: the strings are copied, and the call is surrounded by
what gives them back. -/
structure Rest (m : Machine) (f : Frame) (helper : TypeName) (st : StubScaffold)
    (slots : List (ParamSlot × Option UInt16)) (e a a₁ a₂ b : Emitter) : Prop where
  within : e.Within f.body
  call : CallCode helper st slots f.body a a₁ a₂ b
  rests : a.Rests 0
  locals : a.locals.size = e.locals.size
  labels : a.labels.size ≤ e.labels.size + 1
  outside : ∀ pc, pc < e.position → f.body.regionsAround pc = []
  copies : ∀ (locals args : List Value) (ts : List AddressTable) (s₀ s : MachineState),
    Tables m.module s₀ locals slots args ts → s₀.Grows m.module s → s.pins = s₀.pins →
    s₀.NewTables s ts → (∀ (j : Nat) (v : Value), args[j]? = some v → f.args[j]? = some v) →
    m.Leads (f.at e.position locals []) s (f.at a.position locals []) (s.fillAll ts)
  surrounds : ∀ (locals args : List Value) (ts : List AddressTable) (s₀ : MachineState),
    locals.length = f.body.locals.length → Tables m.module s₀ locals slots args ts →
    m.Surrounds f st.stub.returns.type (a₁.position + 1) b.position locals
      (ts.map AddressTable.ref)

theorem exists_rest (stub : m.RunsStub helper flags st callee) (he : e.Rests 0)
    (params : slots.map Prod.fst = st.stub.params) (made : Made slots)
    (held : Held e.locals.size slots) (hl : e.labels.size + 2 * slots.length + 8 < 2 ^ 32)
    (hv : e.locals.size + allLocals slots < 2 ^ 16) (empty : e.regions = #[])
    (emits : (if st.stub.hasStringArrays then emitProtectedCall helper st slots
      else emitCall helper st slots) e = ((), e')) (within : (e'.push .ret).Within f.body)
    (regions : f.body.regions = e'.regions.toList) (returns : f.returnType = st.stub.returns.type) :
    ∃ a a₁ a₂ b, Rest m f helper st slots e a a₁ a₂ b := by
  have hs := stub.emittable.countable
  have few := hs.few
  have count : slots.length = st.stub.params.length := by rw [← params, List.length_map]
  have low := resultHeight_le st.stub.returns.type
  cases strings : st.stub.hasStringArrays with
  | true =>
    rw [strings, if_pos rfl] at emits
    obtain ⟨e₁, emits', lays⟩ := emitProtectedCall_lays he helper hs params made held (by omega)
    obtain rfl := emitted_unique emits' emits
    obtain ⟨within, ends⟩ := within.of_push_ret lays.rests.toAt (by omega)
    obtain ⟨a, a₁, a₂, b, c, d, code⟩ := exists_protectedCode hs he params made held hl hv emits within
    have region : f.body.regions = [⟨e.position, c.position + 1, c.position + 1, d.position + 1⟩] := by
      rw [regions, code.regions, empty]
      rfl
    have labels := code.copied.labels_le
    have openedLabels := code.openedLabels
    refine ⟨a, a₁, a₂, b, lays.within within, code.call, code.copied.rests, code.copiedLocals, by omega,
      fun pc before => by simp [Body.regionsAround, region, Region.tryContains]; omega,
      fun locals args ts s₀ s tables grows pins new given => ?copies,
      fun locals args ts s₀ count tables =>
        code.surrounds region stub.hasHelper returns ends count held tables⟩
    case copies =>
      have copies := emitAllCopies_leads (i := 0) stub.hasHelper (by omega) code.opened (by decide)
        (Held.mono held code.openedLocals.ge) (by omega) code.copies
        code.call.within (fun j v found => by rw [Nat.zero_add]; exact given j v found) tables
        grows pins new.new new.distinct new.fresh []
      rwa [code.region.start] at copies
  | false =>
    rw [strings, if_neg (by decide)] at emits
    obtain ⟨e₁, emits', lays⟩ := emitCall_lays he helper hs params made held (by omega)
    obtain rfl := emitted_unique emits' emits
    obtain ⟨within, ends⟩ := within.of_push_ret lays.rests.toAt (by omega)
    obtain ⟨a₁, a₂, code⟩ := exists_callCode hs he params made held (by omega) emits within
    have region : f.body.regions = [] := by
      have kept := (declares_emitCall helper st made).regions e
      rw [emits] at kept
      rw [regions, kept, empty]
    have none : ∀ slot ∈ slots, slot.2 = none := fun slot mem => by
      have plain : slot.1.plan.isStringArray = false := by
        have all := List.any_eq_false.mp strings slot.1 (params ▸ List.mem_map_of_mem mem)
        simpa using all
      have same := made slot mem
      rw [plain] at same
      simpa using same.symm
    refine ⟨e, a₁, a₂, _, lays.within within, code, he, rfl, Nat.le_add_right _ _,
      fun pc _ => by simp [Body.regionsAround, region], fun locals args ts s₀ s tables _ _ _ _ => ?_,
      fun locals args ts s₀ count tables => ?_⟩
    · rw [tables.eq_nil none]
      exact .refl m _ s
    · rw [tables.eq_nil none]
      exact ⟨fun w s fits _ => ⟨_, s, .nil s, .ret ends (by rw [returns]; exact fits)⟩,
        fun s _ => ⟨_, s, .nil s, .outside (by simp [Body.regionsAround, region])⟩⟩

/-- The code of a body: the cell is filled, tables are made, and the rest follows. -/
structure WholeCode (m : Machine) (f : Frame) (helper : TypeName) (st : StubScaffold)
    (slots : List (ParamSlot × Option UInt16)) (e₁ e₂ a a₁ a₂ b : Emitter) : Prop where
  ready : emitReady st Emitter.empty = ((), e₁)
  position_le : e₁.position ≤ e₂.position
  within : e₁.Within f.body
  rests : e₁.Rests 0
  labels : e₁.labels.size ≤ 1
  locals : e₁.locals.size = 0
  tables : emitSlots st.stub.params.zipIdx e₁ = (slots, e₂)
  params : slots.map Prod.fst = st.stub.params
  made : Made slots
  held : Held e₂.locals.size slots
  labels₂ : e₂.labels.size ≤ 2 * st.stub.params.length + 1
  locals₂ : e₂.locals.size + allLocals slots ≤ 2 * st.stub.params.length
  rest : Rest m f helper st slots e₂ a a₁ a₂ b

theorem exists_wholeCode (stub : m.RunsStub helper flags st callee)
    (compiled : compile helper st = .ok f.body) (returns : f.returnType = st.stub.returns.type) :
    ∃ slots e₁ e₂ a a₁ a₂ b, WholeCode m f helper st slots e₁ e₂ a a₁ a₂ b := by
  have emitted := body_of_compile compiled
  have few := stub.emittable.few
  obtain ⟨e₁, ready, lays₁⟩ := emitReady_lays (n := st.stub.params.length) (e := Emitter.empty)
    Emitter.rests_empty (by decide) stub.emittable.fits
  have labels₁ : e₁.labels.size ≤ 1 := by simpa [Emitter.empty] using lays₁.labels_le
  have locals₁ : e₁.locals.size ≤ 0 := by
    have kept := (declares_emitReady st).locals Emitter.empty
    rwa [ready] at kept
  have regions₁ : e₁.regions = #[] := by
    have kept := (declares_emitReady st).regions Emitter.empty
    rwa [ready] at kept
  have inRange (param) (mem : param ∈ st.stub.params.zipIdx) : param.2 < st.stub.params.length := by
    have inside := (List.mem_zipIdx mem).2.1
    rwa [Nat.zero_add] at inside
  obtain ⟨slots, e₂, slotsMade, params, made, held, lays₂⟩ := emitSlots_lays lays₁.rests
    st.stub.params.zipIdx inRange (by rw [List.length_zipIdx]; omega)
  have labels₂ := lays₂.labels_le
  have locals₂ := locals_emitSlots slotsMade
  rw [List.zipIdx_map_fst] at params
  rw [List.length_zipIdx] at labels₂ locals₂
  have number : slots.length = st.stub.params.length := by rw [← params, List.length_map]
  have regions₂ : e₂.regions = #[] := by
    have kept := (declares_emitSlots st.stub.params.zipIdx).regions e₁
    rw [slotsMade] at kept
    exact kept.trans regions₁
  obtain ⟨e₃, emits⟩ : ∃ e₃, (if st.stub.hasStringArrays then emitProtectedCall helper st slots
      else emitCall helper st slots) e₂ = ((), e₃) := ⟨_, rfl⟩
  have whole : (emit helper st Emitter.empty).2 = e₃.push .ret := by
    rw [emit_apply helper st (by rw [ready]; exact slotsMade), emits]
  have within : (e₃.push .ret).Within f.body := by
    rw [← whole]
    exact Emitter.within_finish emitted
  have regions : f.body.regions = e₃.regions.toList := by
    rw [← (Emitter.same_push e₃ .ret).regions, ← whole]
    exact Emit.regions_of_body emitted
  obtain ⟨a, a₁, a₂, b, rest⟩ := exists_rest stub lays₂.rests params made held (by omega) (by omega)
    regions₂ emits within regions returns
  exact ⟨slots, e₁, e₂, a, a₁, a₂, b, ready, lays₂.position_le, lays₂.within rest.within,
    lays₁.rests, labels₁, by omega, slotsMade, params, made, held, by omega, by omega, rest⟩

end StubBody

/-! ## Calls -/

open Machine StubBody

/-- The arguments of a call, on their way to native code: there are new tables, strings are copied to
them, and all arguments are passed. -/
structure MachineState.Marshals (module : Module) (params : List ParamSlot) (args : List Value)
    (s : MachineState) (ts : List AddressTable) (made passing : MachineState) (passed : List Value) :
    Prop where
  tables : s.NewTables made ts
  grows : s.Grows module made
  pins : made.pins = s.pins
  native : made.native = s.native
  passes : (made.fillAll ts).PassesAll module s.objects.size (params.zip args) passing passed

namespace MachineState.Marshals

variable {module : Module} {params : List ParamSlot} {args passed : List Value}
  {s made passing : MachineState} {ts : List AddressTable}
  (marshals : s.Marshals module params args ts made passing passed)

include marshals

theorem passesAll : s.PassesAll module s.objects.size (params.zip args) passing passed := by
  refine .of_grows (marshals.grows.fillAll marshals.pins marshals.tables.new) ?_ marshals.passes
  rw [fillAll_eq]
  exact marshals.pins

theorem hasTables (few : ∀ t ∈ ts, t.texts.length < 2 ^ 31) :
    passing.HasTables (ts.map AddressTable.ref) := by
  obtain ⟨copied, filled, -⟩ := filled_fillAll marshals.tables.distinct fun t mem =>
    ⟨_, marshals.tables.fresh t mem⟩
  have there : List.Forall₂ (fun t (_ : List UInt64) => (∃ addresses, t.Filled passing addresses) ∧ True)
      ts copied :=
    filled.imp fun t addresses filled => ⟨⟨addresses, marshals.passes.grows.filled filled⟩, trivial⟩
  intro r mem
  obtain ⟨t, there', rfl⟩ := List.mem_map.mp mem
  obtain ⟨addresses, filled⟩ := ((List.forall₂_and_left ts copied).mp there).1 t there'
  exact ⟨_, few t there', addresses, filled.length, filled.isTable⟩

end MachineState.Marshals

namespace Machine

variable {m : Machine} {helper : TypeName} {flags : Int32} {st : StubScaffold} {callee : OwnedMethod}
  {s s₁ : MachineState} {address : UInt64} {args : List Value}

/-- A stub fills its cell, passes the arguments, and waits for what is at the address. -/
theorem RunsStub.awaits (stub : m.RunsStub helper flags st callee)
    (readies : m.Readies st s address s₁)
    (takes : List.Forall₂ (ParamSlot.Takes m.module s₁) st.stub.params args) :
    ∃ ts made passing passed, s₁.Marshals m.module st.stub.params args ts made passing passed ∧
      m.CallAwaits callee args s
        (fun n => m.callIndirect (m.world.invoke n) address st.callSite passed passing)
        (m.Concludes st.stub.returns (ts.map AddressTable.ref)) := by
  obtain ⟨body, compiled, hasBody⟩ := stub.body
  have few := stub.emittable.few
  have hs := stub.emittable.countable
  let f : Frame := .start m.module callee body args
  have count : f.locals.length = f.body.locals.length := List.length_map _
  obtain ⟨slots, e₁, e₂, a, a₁, a₂, b, code⟩ :=
    exists_wholeCode (f := f) stub compiled stub.returns
  have number : slots.length = st.stub.params.length := by rw [← code.params, List.length_map]
  have labels := code.labels
  have labels₂ := code.labels₂
  have locals := code.locals
  have locals₂ := code.locals₂
  have labels₃ := code.rest.labels
  have locals₃ := code.rest.locals
  have ready : m.Leads (f.at 0 f.locals []) s (f.at e₁.position f.locals []) s₁ :=
    emitReady_leads stub.emittable.fits Emitter.rests_empty.toAt (by decide) code.ready code.within readies
  obtain ⟨locals₁, ts, made, makes, same₁, tables, news, grows, pins, native⟩ :=
    emitSlots_leads (i := 0) (by omega) code.rests (by omega) (by omega) code.tables code.rest.within count
      (fun j v found => by rw [Nat.zero_add]; exact found) (.refl s₁) takes
  have count₁ : locals₁.length = f.body.locals.length := same₁.length.trans count
  have copies := code.rest.copies locals₁ args ts s₁ made tables grows pins news fun j v found => found
  have held : Held a.locals.size slots := Held.mono code.held locals₃.ge
  obtain ⟨copied, filled, -⟩ := MachineState.filled_fillAll news.distinct fun t mem =>
    ⟨_, news.fresh t mem⟩
  have all := grows.fillAll pins news.new
  obtain ⟨locals₂, passed, passing, passes, same₂, passesAll⟩ := emitArguments_brings (i := 0) (h := 0)
    stub.hasHelper code.rest.rests code.made held (by omega)
    (by omega) (by omega) (by omega) code.rest.call.arguments code.rest.call.within₁ count₁ all.size
    (fun j v found => by rw [Nat.zero_add]; exact found) (tables.passable all news.new filled)
  rw [code.params] at passesAll
  rw [List.append_nil] at passes
  have marshals : s₁.Marshals m.module st.stub.params args ts made passing passed :=
    ⟨news, grows, pins, native, passesAll⟩
  have surrounds := code.rest.surrounds locals₂ args ts s₁ (same₂.length.trans count₁)
    (tables.of_same same₂ held)
  have lengths : passed.length = st.stub.params.length := by
    rw [← passesAll.crosses.length_eq, List.length_zip, takes.length_eq, Nat.min_self]
  refine ⟨ts, made, passing, passed, marshals, .ofAwaits stub.notImport hasBody ?_⟩
  exact ((ready.trans makes).trans (copies.trans passes)).awaits
    (code.rest.call.awaits stub (readies.holds.of_statics marshals.passesAll.grows.statics) lengths
      (marshals.hasTables tables.few) surrounds.finishes surrounds.unwinds)

/-- When the initializer of a stub throws, the stub throws before anything else is done. -/
theorem RunsStub.fails (stub : m.RunsStub helper flags st callee) (empty : s.Holds st.cell 0)
    {initializer : OwnedMethod} (resolves : m.module.resolveMethod? st.initializer.owner
      st.initializer.name st.initializer.params = some initializer) {object : ObjRef}
    (ends : m.Ends initializer [] s (.error (.exception object)) s₁) :
    m.Ends callee args s (.error (.exception object)) s₁ := by
  obtain ⟨body, compiled, hasBody⟩ := stub.body
  have fits := stub.emittable.fits
  let f : Frame := .start m.module callee body args
  obtain ⟨slots, e₁, e₂, a, a₁, a₂, b, code⟩ :=
    exists_wholeCode (f := f) stub compiled stub.returns
  obtain ⟨k, -, eq⟩ := emitReady_eq Emitter.rests_empty.toAt (by decide) fits
  have within := code.within
  have before := code.position_le
  obtain rfl : e₁ = _ := congrArg Prod.snd (code.ready.symm.trans eq)
  rw [Emitter.position_grow] at before
  have at_ (p : Nat) {i : Instr} (found : ([.ldsfld st.cell, .brtrue (Emitter.empty.label 0),
      .call st.initializer] : List Instr)[p]? = some i) :
      f.body.instrs[p]? = some i := by
    have placed := within.instr found
    rwa [show Emitter.empty.position + p = p from Nat.zero_add p] at placed
  have outside : f.body.regionsAround 2 = [] :=
    code.rest.outside 2 (Nat.lt_of_lt_of_le (by decide : 2 < 0 + 3) before)
  have type : st.cell.type = .intPtr := by rw [fits.cell]
  have static : st.initializer.hasThis = false := by rw [fits.initializer]; rfl
  have none : st.initializer.params = [] := by rw [fits.initializer]; rfl
  have asks : m.Leads (f.at 0 f.locals []) s (f.at 2 f.locals []) s :=
    (Leads.ldsfld (at_ 0 rfl) (loadStatic_intPtr empty type)).trans
      (Leads.brtrue_next (at_ 1 rfl) rfl)
  exact .ofThrows stub.notImport hasBody
    (asks.throws (.call [] (at_ 2 rfl) outside static (by rw [none]; rfl) resolves ends))

/-- With any fuel a call that waits for native code starves, or it has ended as that decides. -/
theorem CallAwaits.cases {native : NativeRun} {endings : Endings}
    (awaits : m.CallAwaits callee args s native endings) (fuel : Nat) :
    Starved (m.invoke fuel callee args s) ∨
      ∃ n r s', m.invoke fuel callee args s = (r, s') ∧ endings (native n).1 (native n).2 r s' := by
  obtain ⟨depth, ends, starves⟩ := awaits
  by_cases short : fuel < depth
  · exact .inl (starves fuel short)
  obtain ⟨n, rfl⟩ : ∃ n, fuel = n + depth := ⟨fuel - depth, by omega⟩
  obtain ⟨r, s', enough, ending, settles, starves⟩ := ends n
  by_cases few : n < enough
  · exact .inl (starves few)
  · exact .inr ⟨n, r, s', settles (Nat.le_of_not_lt few), ending⟩

end Machine

end LateBind
