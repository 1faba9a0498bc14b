import LateBind.Proofs.NativeTables

/-! # The code for arrays of strings

A stub makes a table for each array of strings among its arguments. The strings are copied to the
tables ahead of the call, and behind it the copies are given back. -/

namespace LateBind

open Machine

/-- The values that a slot takes, arrays of strings among them. -/
inductive ParamSlot.Takes (module : Module) (s : MachineState) (slot : ParamSlot) (v : Value) : Prop
  | value (admits : slot.Admits module s v) : slot.Takes module s v
  | strings {encoding : StringEncoding} {texts : List (Option Units)}
      (plan : slot.plan = .stringArray encoding) (has : s.HasTexts v texts)
      (few : texts.length < 2 ^ 31) : slot.Takes module s v

theorem ParamSlot.Admits.plain {module : Module} {s : MachineState} {slot : ParamSlot} {v : Value}
    (admits : slot.Admits module s v) : slot.plan.isStringArray = false := by
  cases plan : slot.plan with
  | stringArray encoding => simp only [Admits, plan] at admits
  | _ => rfl

/-- Values are taken as long as their objects are there. -/
theorem ParamSlot.Takes.mono {module : Module} {s s' : MachineState} {slot : ParamSlot} {v : Value}
    (takes : slot.Takes module s v)
    (kept : ∀ (i : Nat) (o : Object), s.objects[i]? = some o → s'.objects[i]? = some o) :
    slot.Takes module s' v := by
  cases takes with
  | value admits => exact .value (admits.mono kept)
  | strings plan has few => exact .strings plan (has.mono fun i o found _ => kept i o found) few

/-- Nothing has been copied to a table. -/
def AddressTable.Fresh (s : MachineState) (t : AddressTable) : Prop :=
  s.objects[t.ref.index]? = some (.ofAddresses (List.replicate t.texts.length 0))

/-- Tables that were made since. -/
structure MachineState.NewTables (s s' : MachineState) (ts : List AddressTable) : Prop where
  new : ∀ t ∈ ts, s.objects.size ≤ t.ref.index
  distinct : (ts.map fun t => t.ref.index).Nodup
  fresh : ∀ t ∈ ts, t.Fresh s'

namespace StubBody

open Emitter Locals

variable {m : Machine} {f : Frame} {s s₀ : MachineState} {e e' : Emitter} {locals : List Value}

/-- The tables for the arguments of a call: each array of strings has its own, in the local of its
slot. -/
inductive Tables (module : Module) (s : MachineState) (locals : List Value) :
    List (ParamSlot × Option UInt16) → List Value → List AddressTable → Prop
  | nil : Tables module s locals [] [] []
  | value {slot : ParamSlot} {v : Value} {slots : List (ParamSlot × Option UInt16)}
      {args : List Value} {ts : List AddressTable} (admits : slot.Admits module s v)
      (rest : Tables module s locals slots args ts) :
      Tables module s locals ((slot, none) :: slots) (v :: args) ts
  | table {slot : ParamSlot} {table : UInt16} {v : Value} {t : AddressTable}
      {slots : List (ParamSlot × Option UInt16)} {args : List Value} {ts : List AddressTable}
      (plan : slot.plan = .stringArray t.encoding) (has : s.HasTexts v t.texts)
      (few : t.texts.length < 2 ^ 31) (local_ : locals[table.toNat]? = some (.ref t.ref))
      (rest : Tables module s locals slots args ts) :
      Tables module s locals ((slot, some table) :: slots) (v :: args) (t :: ts)

/-! ## Making tables -/

/-- A table is made for an array of strings; null is taken for an array without items. -/
theorem emitAddressArrayFor_leads {i : Nat} (small : i < 2 ^ 16) (he : e.Rests 0)
    (hl : e.labels.size + 2 < 2 ^ 32) (hv : e.locals.size < 2 ^ 16) {slot : ParamSlot} {v : Value}
    {addresses : Option UInt16} (array : slot.plan.isStringArray)
    (emits : emitAddressArrayFor slot i e = (addresses, e')) (within : e'.Within f.body)
    (count : locals.length = f.body.locals.length) (given : f.args[i]? = some v)
    {texts : List (Option Units)} (has : s.HasTexts v texts) (few : texts.length < 2 ^ 31) :
    addresses = some (UInt16.ofNat e.locals.size) ∧ e'.locals.size = e.locals.size + 1 ∧
      ∃ locals', m.Leads (f.at e.position locals []) s (f.at e'.position locals' [])
          (s.withObject (.ofAddresses (List.replicate texts.length 0))) ∧
        SameBelow e.locals.size locals locals' ∧
        locals'[e.locals.size]? = some (.ref ⟨s.objects.size⟩) := by
  obtain ⟨k, -, eq⟩ := emitAddressArrayFor_stringArray he.toAt hl array i
  cases emits.symm.trans eq
  let number : UInt16 := UInt16.ofNat e.locals.size
  have same : number.toNat = e.locals.size := toNat_newLocal hv
  have argument : f.args[(UInt16.ofNat i).toNat]? = some v := by
    rw [UInt16.toNat_ofNat', Nat.mod_eq_of_lt small]
    exact given
  have there : number.toNat < locals.length := by
    have more := within.locals
    rw [size_locals_grow, List.length_singleton] at more
    rw [same]
    omega
  have code (p : Nat) {i' : Instr} (found : ([.ldarg (UInt16.ofNat i), .brtrue (e.label 0), .ldcI4 0,
      .br (e.label 1), .ldarg (UInt16.ofNat i), .ldlen, .convI4, .newarr .intPtr, .stloc number] :
        List Instr)[p]? = some i') : f.body.instrs[e.position + p]? = some i' := within.instr found
  have present : f.body.target? (e.label 0) = some (e.position + 4) := within.label rfl (by omega)
  have sized : f.body.target? (e.label 1) = some (e.position + 7) := within.label rfl (by omega)
  -- Both ways come to the instruction that makes the table, with its length on the stack.
  have length : m.Leads (f.at e.position locals []) s
      (f.at (e.position + 7) locals [.ofPosition texts.length]) s := by
    cases has with
    | null =>
      exact (((Leads.ldarg (code 0 rfl) argument).trans (Leads.brtrue_next (code 1 rfl) rfl)).trans
        (Leads.ldcI4 (code 2 rfl))).trans (Leads.br (code 3 rfl) sized)
    | @array r items _ isArray has =>
      have size : items.size = texts.length := has.length_eq
      rw [← size]
      exact (((Leads.ldarg (code 0 rfl) argument).trans
        (Leads.brtrue (code 1 rfl) present rfl)).trans (Leads.ldarg (code 4 rfl) argument)).trans
          (Leads.length (code 5 rfl) (code 6 rfl) (Exec.arrayItems_apply isArray))
  have empty : Object.array .intPtr (Array.replicate (Int32.ofNat texts.length).toInt.toNat
      (m.module.defaultValue .intPtr)) = .ofAddresses (List.replicate texts.length 0) := by
    rw [Value.toInt_ofPosition few, Int.toNat_natCast, Object.ofAddresses, List.map_replicate,
      List.toArray_replicate]
    rfl
  have makes : m.Leads (f.at (e.position + 7) locals [.ofPosition texts.length]) s
      (f.at (e.position + 8) locals [.ref ⟨s.objects.size⟩])
      (s.withObject (.ofAddresses (List.replicate texts.length 0))) := by
    rw [← empty]
    exact Leads.newarr (code 7 rfl) (Value.not_ofPosition_neg few)
  refine ⟨rfl, by rw [size_locals_grow]; rfl, locals.set number.toNat (.ref ⟨s.objects.size⟩), ?_,
    .set _ same.ge _, by rw [← same]; exact List.getElem?_set_self there⟩
  rw [position_grow]
  exact (length.trans makes).trans (Leads.stloc (code 8 rfl) there)

theorem Tables.of_same {module : Module} {slots : List (ParamSlot × Option UInt16)}
    {args : List Value} {ts : List AddressTable} {n : Nat} {locals' : List Value}
    (tables : Tables module s locals slots args ts) (same : SameBelow n locals locals')
    (held : Held n slots) : Tables module s locals' slots args ts := by
  induction tables with
  | nil => exact .nil
  | value admits _ ih => exact .value admits (ih (List.forall_mem_cons.mp held).2)
  | table plan has few local_ _ ih =>
    obtain ⟨held₁, held⟩ := List.forall_mem_cons.mp held
    exact .table plan has few ((same.below _ (held₁ _ rfl)).trans local_) (ih held)

/-- Tables are made for all arrays of strings among the arguments. -/
theorem emitSlots_leads {i : Nat} {params : List ParamSlot} {args : List Value}
    {slots : List (ParamSlot × Option UInt16)} (small : i + params.length ≤ 2 ^ 16) (he : e.Rests 0)
    (hl : e.labels.size + 2 * params.length + 2 < 2 ^ 32)
    (hv : e.locals.size + params.length ≤ 2 ^ 16)
    (emits : emitSlots (params.zipIdx i) e = (slots, e')) (within : e'.Within f.body)
    (count : locals.length = f.body.locals.length)
    (given : ∀ j v, args[j]? = some v → f.args[i + j]? = some v) (old : s₀.Grows m.module s)
    (takes : List.Forall₂ (ParamSlot.Takes m.module s₀) params args) :
    ∃ locals' ts s', m.Leads (f.at e.position locals []) s (f.at e'.position locals' []) s' ∧
      SameBelow e.locals.size locals locals' ∧
      Tables m.module s₀ locals' slots args ts ∧ s.NewTables s' ts ∧ s.Grows m.module s' ∧
      s'.pins = s.pins ∧ s'.native = s.native := by
  induction params generalizing e i args slots locals s with
  | nil =>
    cases emits
    obtain rfl := List.forall₂_nil_left_iff.mp takes
    exact ⟨locals, [], s, .refl m _ _, .refl _ _, .nil, ⟨nofun, .nil, nofun⟩, .refl s,
      rfl, rfl⟩
  | cons slot params ih =>
    obtain ⟨v, args, takes₁, rest, rfl⟩ := List.forall₂_cons_left_iff.mp takes
    rw [List.length_cons] at small hl hv
    obtain ⟨addresses, e₁, eq₁, -, held₁, lays₁⟩ :=
      emitAddressArrayFor_lays he (by omega) slot (show i < 2 ^ 16 by omega)
    have labels₁ := lays₁.labels_le
    obtain ⟨slots', e₂, eq₂, -, -, held₂, lays₂⟩ := emitSlots_lays (n := 2 ^ 16) lays₁.rests
      (params.zipIdx (i + 1)) (fun param mem => by
        have := (List.mem_zipIdx mem).2.1
        omega) (by rw [List.length_zipIdx]; omega)
    obtain ⟨rfl, rfl⟩ : slots = (slot, addresses) :: slots' ∧ e' = e₂ := by
      have whole : emitSlots ((slot, i) :: params.zipIdx (i + 1)) e =
          ((slot, addresses) :: slots', e₂) := by
        simp only [emitSlots, List.mapM_cons, Emit.bind_apply, Emit.pure_apply, eq₁] at eq₂ ⊢
        rw [eq₂]
      rw [List.zipIdx_cons, whole] at emits
      exact Prod.mk.inj emits.symm
    have given' : ∀ j v, args[j]? = some v → f.args[i + 1 + j]? = some v := fun j v found => by
      rw [Nat.add_right_comm, Nat.add_assoc]
      exact given (j + 1) v found
    cases takes₁ with
    | value admits =>
      have none : emitAddressArrayFor slot i e = (Option.none, e) := by
        simp [emitAddressArrayFor, admits.plain]
      obtain ⟨rfl, rfl⟩ := Prod.mk.inj (eq₁.symm.trans none)
      obtain ⟨locals', ts, s', leads, same, tables, made⟩ :=
        ih (by omega) he (by omega) (by omega) eq₂ count given' old rest
      exact ⟨locals', ts, s', leads, same, .value admits tables, made⟩
    | @strings encoding texts plan has few =>
      have array : slot.plan.isStringArray := by rw [plan]; rfl
      obtain ⟨rfl, one, locals₁, leads₁, same₁, local₁⟩ :=
        emitAddressArrayFor_leads (by omega) he (by omega) (by omega) array eq₁ (lays₂.within within)
          count (given 0 v rfl) (old.hasTexts has) few
      let t : AddressTable := ⟨⟨s.objects.size⟩, encoding, texts⟩
      let o : Object := .ofAddresses (List.replicate texts.length 0)
      have grows₁ : s.Grows m.module (s.withObject o) := .withObject s o
      obtain ⟨locals', ts, s', leads, same, tables, made, grows, pins, native⟩ :=
        ih (by omega) lays₁.rests (by omega) (by omega) eq₂ (same₁.length.trans count) given'
          (old.trans grows₁) rest
      have size : (s.withObject o).objects.size = s.objects.size + 1 := Array.size_push _
      have number := toNat_newLocal (e := e) (by omega)
      have local_ : locals'[(UInt16.ofNat e.locals.size).toNat]? = some (.ref t.ref) := by
        rw [same.below _ (by omega), number]
        exact local₁
      refine ⟨locals', t :: ts, s', leads₁.trans leads, same₁.trans same (by omega),
        .table plan has few local_ tables, ⟨?_, ?_, ?_⟩, grows₁.trans grows, pins, native⟩
      · refine List.forall_mem_cons.mpr ⟨Nat.le_refl _, fun t' mem => ?_⟩
        exact Nat.le_trans (by omega) (made.new t' mem)
      · refine List.nodup_cons.mpr ⟨fun mem => ?_, made.distinct⟩
        obtain ⟨t', mem, same⟩ := List.mem_map.mp mem
        have := made.new t' mem
        rw [size, same] at this
        exact Nat.lt_irrefl _ this
      · refine List.forall_mem_cons.mpr ⟨?_, made.fresh⟩
        exact grows.objects _ _ (MachineState.object_withObject_new s o)

/-! ## Filling them -/

/-- The strings of one array are copied. -/
theorem emitCopies_leads {helper : TypeName} {flags : Int32} (h' : m.HasHelper helper flags) {h i : Nat}
    (small : i < 2 ^ 16) (he : e.At h) (hh : h + 2 < 2 ^ 16) {slot : ParamSlot} {table : UInt16}
    {v : Value} {t : AddressTable} (plan : slot.plan = .stringArray t.encoding)
    (emits : emitCopies helper slot i (some table) e = ((), e')) (within : e'.Within f.body)
    (given : f.args[i]? = some v) (local_ : locals[table.toNat]? = some (.ref t.ref))
    (has : s.HasTexts v t.texts) (few : t.texts.length < 2 ^ 31) (fresh : t.Fresh s)
    (stack : List Value) :
    m.Leads (f.at e.position locals stack) s (f.at e'.position locals stack) (s.fill t) := by
  obtain ⟨k, -, eq⟩ := emitCopies_stringArray he hh helper i table plan
  obtain rfl := emitted_unique emits eq
  have argument : f.args[(UInt16.ofNat i).toNat]? = some v := by
    rw [UInt16.toNat_ofNat', Nat.mod_eq_of_lt small]
    exact given
  have code (p : Nat) {i' : Instr} (found : ([.ldarg (UInt16.ofNat i), .ldloc table,
      .call (Helper.fillAddresses helper t.encoding)] : List Instr)[p]? = some i') :
      f.body.instrs[e.position + p]? = some i' := within.instr found
  have ends : m.Ends ⟨helper, Helper.fillDef t.encoding⟩ [v, .ref t.ref] s (.ok none) (s.fill t) := by
    obtain ⟨r, encoding, texts⟩ := t
    cases has with
    | null =>
      have same : s.fill ⟨r, encoding, []⟩ = s := MachineState.withTable_same fresh
      rw [same]
      exact Helper.fill_ends_null encoding (.ref r) s
    | array isArray has => exact Helper.fill_ends encoding isArray fresh h' has rfl few
  have member : Helper.fillDef t.encoding ∈ Helper.methods helper flags := by
    cases t.encoding <;> simp [Helper.methods, Helper.converters, Helper.fillDef]
  rw [position_grow]
  exact ((Leads.ldarg (code 0 rfl) argument).trans (Leads.ldloc (code 1 rfl) local_)).trans
    (Leads.call [v, .ref t.ref] (code 2 rfl) rfl rfl (h'.resolves member) ends)

/-- A table that another one was filled before is as it was. -/
theorem fresh_fill {t t' : AddressTable} (fresh : t'.Fresh s) (other : t.ref.index ≠ t'.ref.index) :
    t'.Fresh (s.fill t) := (MachineState.object_fill other).trans fresh

/-- The strings of all arrays are copied, those of the first array first. -/
theorem emitAllCopies_leads {helper : TypeName} {flags : Int32} (h' : m.HasHelper helper flags)
    {h i : Nat} {slots : List (ParamSlot × Option UInt16)} {args : List Value}
    {ts : List AddressTable} (small : i + slots.length ≤ 2 ^ 16) (he : e.Rests h)
    (hh : h + 2 < 2 ^ 16) (held : Held e.locals.size slots) (hl : e.labels.size + 2 < 2 ^ 32)
    (emits : ((slots.zipIdx i).forM fun ((slot, addresses), index) =>
      emitCopies helper slot index addresses) e = ((), e'))
    (within : e'.Within f.body) (given : ∀ j v, args[j]? = some v → f.args[i + j]? = some v)
    (tables : Tables m.module s₀ locals slots args ts) (grows : s₀.Grows m.module s)
    (pins : s.pins = s₀.pins) (new : ∀ t ∈ ts, s₀.objects.size ≤ t.ref.index)
    (distinct : (ts.map fun t => t.ref.index).Nodup) (fresh : ∀ t ∈ ts, t.Fresh s)
    (stack : List Value) :
    m.Leads (f.at e.position locals stack) s (f.at e'.position locals stack) (s.fillAll ts) := by
  induction tables generalizing e i s with
  | nil =>
    cases emits
    exact .refl m _ _
  | @value slot v slots args ts admits _ ih =>
    have none : emitCopies helper slot i Option.none e = ((), e) := by
      cases plan : slot.plan <;> simp [emitCopies, plan]
    rw [List.length_cons] at small
    have rest : ((slots.zipIdx (i + 1)).forM fun ((slot, addresses), index) =>
        emitCopies helper slot index addresses) e = ((), e') := by
      rw [List.zipIdx_cons] at emits
      change (emitCopies helper slot i Option.none >>= fun _ =>
        (slots.zipIdx (i + 1)).forM _) e = _ at emits
      rwa [Emit.bind_apply, none] at emits
    exact ih (by omega) he (List.forall_mem_cons.mp held).2 hl rest (fun j v found => by
      rw [Nat.add_right_comm, Nat.add_assoc]
      exact given (j + 1) v found) grows pins new distinct fresh
  | @table slot table v t slots args ts plan has few local_ _ ih =>
    rw [List.length_cons] at small
    obtain ⟨held₁, held₂⟩ := List.forall_mem_cons.mp held
    obtain ⟨new₁, new₂⟩ := List.forall_mem_cons.mp new
    obtain ⟨fresh₁, fresh₂⟩ := List.forall_mem_cons.mp fresh
    obtain ⟨apart, distinct⟩ := List.nodup_cons.mp distinct
    obtain ⟨e₁, eq₁, lays₁⟩ := emitCopies_lays he hh helper slot
      (show i < 2 ^ 16 by omega) held₁
    have labels₁ := lays₁.labels_le
    obtain ⟨e₂, eq₂, lays₂⟩ := emitAllCopies_lays (n := 2 ^ 16) (i := i + 1) lays₁.rests hh helper
      (Held.mono held₂ lays₁.locals_le) (by omega) (by omega)
    obtain rfl : e₂ = e' := by
      have whole := (congrArg Prod.snd emits).symm
      rw [List.zipIdx_cons] at whole
      change e' = ((emitCopies helper slot i (some table) >>= fun _ =>
        (slots.zipIdx (i + 1)).forM _) e).2 at whole
      rw [whole, Emit.bind_apply, eq₁, eq₂]
    have fills := emitCopies_leads h' (by omega) he.toAt hh plan eq₁ (lays₂.within within)
      (given 0 v rfl) local_ (grows.hasTexts has) few fresh₁ stack
    refine fills.trans (ih (by omega) lays₁.rests (Held.mono held₂ lays₁.locals_le) (by omega) eq₂ (fun j v found => by
      rw [Nat.add_right_comm, Nat.add_assoc]
      exact given (j + 1) v found) ?_ ?_ new₂ distinct fun t' mem => ?_)
    · exact grows.fillAll pins (List.forall_mem_singleton.mpr new₁)
    · rw [← pins, MachineState.fill_eq]
      rfl
    · exact fresh_fill (fresh₂ t' mem) fun same => apart (List.mem_map.mpr ⟨t', mem, same.symm⟩)

/-- With the tables filled, all arguments can be passed. -/
theorem Tables.passable {module : Module} {slots : List (ParamSlot × Option UInt16)}
    {args : List Value} {ts : List AddressTable} {copied : List (List UInt64)}
    (tables : Tables module s₀ locals slots args ts) (grows : s₀.Grows module s)
    (new : ∀ t ∈ ts, s₀.objects.size ≤ t.ref.index)
    (filled : List.Forall₂ (fun t addresses => t.Filled s addresses) ts copied) :
    List.Forall₂ (Passable module s₀.objects.size s locals) slots args := by
  induction tables generalizing copied with
  | nil => exact .nil
  | value admits _ ih => exact .cons (.value (admits.mono grows.objects)) (ih new filled)
  | table plan has few local_ _ ih =>
    obtain ⟨addresses, copied, filled₁, rest, rfl⟩ := List.forall₂_cons_left_iff.mp filled
    obtain ⟨new₁, new⟩ := List.forall_mem_cons.mp new
    exact .cons (.table plan (grows.hasTexts has) filled₁ few local_ new₁) (ih new rest)

/-! ## Emptying them -/

/-- Code goes from one place to another with the locals and the stack that it has, or it stops the
program. -/
inductive Sweeps (m : Machine) (f : Frame) (pc pc' : Nat) (locals stack : List Value)
    (s : MachineState) : Option MachineError → MachineState → Prop
  | leads {s' : MachineState} (leads : m.Leads (f.at pc locals stack) s (f.at pc' locals stack) s') :
      Sweeps m f pc pc' locals stack s none s'
  | stops {e : MachineError} {s' : MachineState}
      (finishes : m.Finishes (f.at pc locals stack) s (.error (.fatal e)) s') :
      Sweeps m f pc pc' locals stack s (some e) s'

theorem Sweeps.of_leads {pc pc₁ pc' : Nat} {stack : List Value} {s' s'' : MachineState}
    {fault : Option MachineError} (leads : m.Leads (f.at pc locals stack) s (f.at pc₁ locals stack) s')
    (sweeps : Sweeps m f pc₁ pc' locals stack s' fault s'') :
    Sweeps m f pc pc' locals stack s fault s'' := by
  cases sweeps with
  | leads rest => exact .leads (leads.trans rest)
  | stops finishes => exact .stops (leads.finishes finishes)

/-- A finally part that sweeps cleans up. -/
theorem Sweeps.cleanup {pc' : Nat} {region : Region} {s' : MachineState} {fault : Option MachineError}
    (sweeps : Sweeps m f region.finallyStart pc' locals [] s fault s')
    (ends : f.body.instrs[pc']? = some .endfinally) : m.Cleanup f region locals s fault locals s' := by
  cases sweeps with
  | leads leads => exact .passes leads ends
  | stops finishes => exact .stops finishes

/-- The copies in one table are given back. -/
theorem emitFrees_sweeps {helper : TypeName} {flags : Int32} (h' : m.HasHelper helper flags) {h : Nat}
    (he : e.At h) (hh : h + 2 < 2 ^ 16) {table : UInt16} {r : ObjRef} {addresses : List UInt64}
    (emits : emitFrees helper (some table) e = ((), e')) (within : e'.Within f.body)
    (local_ : locals[table.toNat]? = some (.ref r))
    (isTable : s.objects[r.index]? = some (.ofAddresses addresses)) (few : addresses.length < 2 ^ 31)
    (stack : List Value) :
    Sweeps m f e.position e'.position locals stack s (s.native.heap.clear addresses).2.2
      (s.withTable r (s.native.heap.clear addresses).1 (s.native.heap.clear addresses).2.1) := by
  obtain ⟨k, -, eq⟩ := emitFrees_some he hh helper table
  obtain rfl := emitted_unique emits eq
  have code (p : Nat) {i' : Instr} (found : ([.ldloc table, .call (Helper.freeAddresses helper)] :
      List Instr)[p]? = some i') : f.body.instrs[e.position + p]? = some i' := within.instr found
  have member : Helper.freeDef ∈ Helper.methods helper flags := by
    simp [Helper.methods, Helper.converters, Helper.freeDef]
  have loads : m.Leads (f.at e.position locals stack) s
      (f.at (e.position + 1) locals (.ref r :: stack)) s := Leads.ldloc (code 0 rfl) local_
  have ends := Helper.free_clears isTable h' few
  rw [position_grow]
  cases fault : (s.native.heap.clear addresses).2.2 with
  | none =>
    rw [fault] at ends
    exact .leads (loads.trans (Leads.call [.ref r] (code 1 rfl) rfl rfl (h'.resolves member) ends))
  | some e =>
    rw [fault] at ends
    exact .stops <| loads.finishes <|
      Finishes.call [.ref r] (code 1 rfl) rfl rfl (h'.resolves member) ends

/-- The copies in all tables are given back, those in the first table first. -/
theorem emitAllFrees_sweeps {helper : TypeName} {flags : Int32} (h' : m.HasHelper helper flags)
    {h : Nat} {slots : List (ParamSlot × Option UInt16)} {args : List Value} {ts : List AddressTable}
    {s' : MachineState} {fault : Option MachineError} (he : e.Rests h) (hh : h + 2 < 2 ^ 16)
    (held : Held e.locals.size slots) (hl : e.labels.size + 2 < 2 ^ 32)
    (emits : (slots.forM fun (_, addresses) => emitFrees helper addresses) e = ((), e'))
    (within : e'.Within f.body) (tables : Tables m.module s₀ locals slots args ts)
    (back : s.GivesBack (ts.map AddressTable.ref) fault s') (stack : List Value) :
    Sweeps m f e.position e'.position locals stack s fault s' := by
  induction tables generalizing e s with
  | nil =>
    cases emits
    cases back
    exact .leads (.refl m _ _)
  | value admits _ ih => exact ih he (List.forall_mem_cons.mp held).2 hl emits back
  | @table slot table v t slots args ts plan has few local_ _ ih =>
    obtain ⟨held₁, held₂⟩ := List.forall_mem_cons.mp held
    obtain ⟨e₁, eq₁, lays₁⟩ := emitFrees_lays (n := 0) he hh helper held₁
    have labels₁ := lays₁.labels_le
    have held₂ := Held.mono held₂ lays₁.locals_le
    obtain ⟨e₂, eq₂, lays₂⟩ := emitAllFrees_lays (n := 0) lays₁.rests hh helper held₂ (by omega)
    obtain rfl : e' = e₂ := by
      have whole := (congrArg Prod.snd emits).symm
      change e' = ((emitFrees helper (some table) >>= fun _ =>
        slots.forM fun (_, addresses) => emitFrees helper addresses) e).2 at whole
      rw [whole, Emit.bind_apply, eq₁, eq₂]
    have within₁ := lays₂.within within
    cases back with
    | cons isTable few' all rest =>
      have first := emitFrees_sweeps h' he.toAt hh eq₁ within₁ local_ isTable few' stack
      rw [all] at first
      cases first with
      | leads leads => exact .of_leads leads (ih lays₁.rests held₂ (by omega) eq₂ rest)
    | stops isTable few' fails =>
      have first := emitFrees_sweeps h' he.toAt hh eq₁ within₁ local_ isTable few' stack
      rw [fails] at first
      cases first with
      | stops finishes => exact .stops finishes

end StubBody

end LateBind
