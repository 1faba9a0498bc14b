import LateBind.Proofs.Declarations
import LateBind.Proofs.Marshalling
import LateBind.Proofs.PlacedCode

/-! # The code for arguments

The code for an argument puts on the stack what stands for it in native code. -/

namespace LateBind

open Machine

theorem Value.isTrue_ofPosition {n : Nat} (some : 0 < n) (small : n < 2 ^ 31) :
    (ofPosition n).isTrue = true := by
  have nonzero : Int32.ofNat n ≠ 0 := by
    intro zero
    have same := congrArg Int32.toInt zero
    rw [toInt_ofPosition small] at same
    exact absurd same (by simp; omega)
  simp [ofPosition, isTrue, nonzero]

/-- A number is above zero without its sign when it is not zero. -/
theorem Int32.zero_lt_word_iff (n : Int32) : 0 < n.toUInt32.toUInt64 ↔ n ≠ 0 := by
  rw [UInt64.lt_iff_toNat_lt, UInt32.toNat_toUInt64]
  constructor
  · rintro some rfl
    exact absurd some (by decide)
  · intro nonzero
    refine Nat.pos_of_ne_zero fun zero => nonzero ?_
    have word : n.toUInt32 = 0 := UInt32.toNat_inj.mp zero
    rw [← Int32.toInt32_toUInt32 n, word]
    rfl

/-- The locals below a number are what they were. -/
structure Locals.SameBelow (n : Nat) (locals locals' : List Value) : Prop where
  length : locals'.length = locals.length
  below : ∀ i, i < n → locals'[i]? = locals[i]?

namespace Locals.SameBelow

variable {n n' : Nat} {locals locals' locals'' : List Value}

theorem refl (n : Nat) (locals : List Value) : SameBelow n locals locals := ⟨rfl, fun _ _ => rfl⟩

theorem trans (first : SameBelow n locals locals') (second : SameBelow n' locals' locals'')
    (le : n ≤ n') : SameBelow n locals locals'' :=
  ⟨second.length.trans first.length,
    fun i hi => (second.below i (Nat.lt_of_lt_of_le hi le)).trans (first.below i hi)⟩

theorem set (locals : List Value) {i : Nat} (le : n ≤ i) (v : Value) :
    SameBelow n locals (locals.set i v) :=
  ⟨List.length_set, fun _ hi => List.getElem?_set_ne (by omega)⟩

end Locals.SameBelow

/-- Code that puts a value on the stack. It writes to no locals but its own. -/
def Machine.Brings (m : Machine) (f : Frame) (e e' : Emitter) (locals stack : List Value)
    (s : MachineState) (P : MachineState → Value → Prop) : Prop :=
  ∃ locals' v s', m.Leads (f.at e.position locals stack) s
      (f.at e'.position locals' (v :: stack)) s' ∧
    Locals.SameBelow e.locals.size locals locals' ∧ P s' v

namespace StubBody

open Emitter Locals

variable {m : Machine} {f : Frame} {s : MachineState} {e e' : Emitter} {h : Nat}
  {locals stack : List Value} {v : Value}

theorem emitted_unique {x : Emitter → Unit × Emitter} {e₁ e₂ : Emitter} (emits : x e = ((), e₁))
    (emits' : x e = ((), e₂)) : e₁ = e₂ := congrArg Prod.snd (emits.symm.trans emits')

/-- The number of a new local. -/
theorem toNat_newLocal (hv : e.locals.size < 2 ^ 16) :
    (UInt16.ofNat e.locals.size).toNat = e.locals.size := by
  rw [UInt16.toNat_ofNat', Nat.mod_eq_of_lt hv]

/-- An array is pinned. -/
theorem emitPinnedArray_brings (he : e.At h) (hh : h + 2 < 2 ^ 16) (hl : e.labels.size + 2 < 2 ^ 32)
    (hv : e.locals.size < 2 ^ 16)
    {load : Instr} (plain : load.isPlain) (pops : load.pops = 0) (pushes : load.pushes = 1)
    {element : TypeRef} (emits : emitPinnedArray load element e = ((), e'))
    (within : e'.Within f.body) (count : locals.length = f.body.locals.length)
    (loads : ∀ pc stack, f.body.instrs[pc]? = some load →
      m.Leads (f.at pc locals stack) s (f.at (pc + 1) locals (v :: stack)) s)
    (admits : v = .null ∨ ∃ (r : ObjRef) (element : _) (items : _), v = .ref r ∧
      s.objects[r.index]? = some (.array element items) ∧ items.size < 2 ^ 31 ∧
        (0 < items.size → ∃ bytes, (PinSource.elements r 0).Images m.module s.objects bytes)) :
    m.Brings f e e' locals stack s fun s' passed => s.Grows m.module s' ∧ s'.PinnedArray v passed ∧
      ∀ p ∈ s'.pins, p ∈ s.pins ∨ ∃ r, v = .ref r ∧ p.source = .elements r 0 := by
  obtain ⟨k, -, eq⟩ := emitPinnedArray_eq he hh hl plain pops pushes element
  obtain rfl := emitted_unique emits eq
  let pin : UInt16 := UInt16.ofNat e.locals.size
  have code (p : Nat) {i : Instr} (found : (pinnedArrayCode e load element pin)[p]? = some i) :
      f.body.instrs[e.position + p]? = some i := within.instr found
  have noItems : f.body.target? (e.label 0) = some (e.position + 13) :=
    within.label rfl (by omega)
  have done : f.body.target? (e.label 1) = some (e.position + 15) :=
    within.label rfl (by omega)
  have there : pin.toNat < locals.length := by
    have more := within.locals
    rw [size_locals_grow, List.length_singleton] at more
    rw [toNat_newLocal hv]
    omega
  have zero : m.Leads (f.at (e.position + 13) locals stack) s
      (f.at (e.position + 15) locals (.ptr 0 :: stack)) s :=
    (Leads.ldcI4 (code 13 rfl)).trans (Leads.convU (code 14 rfl) rfl)
  obtain rfl | ⟨r, element', items, rfl, isArray, few, images⟩ := admits
  · refine ⟨locals, .ptr 0, s, ?_, .refl _ _, .refl s, .null, fun _ => .inl⟩
    rw [position_grow]
    exact ((loads _ _ (code 0 rfl)).trans (Leads.brfalse (code 1 rfl) noItems rfl)).trans zero
  have asks : m.Leads (f.at e.position locals stack) s
      (f.at (e.position + 5) locals (.ofPosition items.size :: stack)) s :=
    (((loads _ _ (code 0 rfl)).trans (Leads.brfalse_next (code 1 rfl) rfl)).trans
      (loads _ _ (code 2 rfl))).trans
        (Leads.length (code 3 rfl) (code 4 rfl) (Exec.arrayItems_apply isArray))
  by_cases none : items.size = 0
  · refine ⟨locals, .ptr 0, s, ?_, .refl _ _, .refl s, .empty isArray none, fun _ => .inl⟩
    rw [position_grow]
    rw [none] at asks
    exact (asks.trans (Leads.brfalse (code 5 rfl) noItems rfl)).trans zero
  have some : 0 < items.size := Nat.pos_of_ne_zero none
  obtain ⟨bytes, images⟩ := images some
  obtain ⟨block, s', pins, grows, pinned, only⟩ := pin_grows images
  have address : m.pinAddress (.element r 0) s = (.ok block, s') := pins
  have slot : Exec.slot (.ref r) 0 s = (.ok (r, 0), s) := Exec.slot_apply isArray some (by decide)
  refine ⟨locals.set pin.toNat (.address (.element r 0)), .ptr block, s', ?_,
    .set _ (toNat_newLocal hv).ge _, grows, .items (grows.objects _ _ isArray) some pinned,
    fun p hp => (only p hp).imp_right fun source => ⟨r, rfl, source⟩⟩
  rw [position_grow]
  have takes : m.Leads (f.at (e.position + 5) locals (.ofPosition items.size :: stack)) s
      (f.at (e.position + 9) locals (.address (.element r 0) :: stack)) s :=
    (((Leads.brfalse_next (code 5 rfl) (Value.isTrue_ofPosition some few)).trans
      (loads _ _ (code 6 rfl))).trans (Leads.ldcI4 (code 7 rfl))).trans
        (Leads.ldelema (code 8 rfl) slot)
  have keeps : m.Leads (f.at (e.position + 9) locals (.address (.element r 0) :: stack)) s
      (f.at (e.position + 15) (locals.set pin.toNat (.address (.element r 0))) (.ptr block :: stack))
      s' :=
    (((Leads.stloc (code 9 rfl) there).trans
      (Leads.ldloc (code 10 rfl) (List.getElem?_set_self there))).trans
        (Leads.convI_address (code 11 rfl) address)).trans (Leads.br (code 12 rfl) done)
  exact (asks.trans takes).trans keeps

/-! ## Arguments -/

section Arguments

variable {helper helper' : TypeName} {flags : Int32} {slot : ParamSlot} {index : UInt16}
  {addresses : Option UInt16} {old : Nat}
  (he : e.At h) (hh : h + 2 < 2 ^ 16)
  (emits : emitArgument helper slot index addresses e = ((), e')) (within : e'.Within f.body)
  (arg : f.args[index.toNat]? = some v)

include he hh emits within arg

theorem emitArgument_brings_direct (plan : slot.plan = .direct) :
    m.Brings f e e' locals stack s (s.Passes m.module old slot.plan v) := by
  obtain ⟨k, -, eq⟩ := emitArgument_direct he hh helper index addresses plan
  obtain rfl := emitted_unique emits eq
  rw [plan]
  refine ⟨locals, v, s, ?_, .refl _ _, .refl s, .direct v, fun _ => .inl⟩
  rw [position_grow]
  exact Leads.ldarg (within.instr (p := 0) rfl) arg

theorem emitArgument_brings_boolean {width : BoolWidth} (plan : slot.plan = .boolean width)
    {n : Int32} (isInt : v = .i32 n) :
    m.Brings f e e' locals stack s (s.Passes m.module old slot.plan v) := by
  obtain ⟨k, -, eq⟩ := emitArgument_boolean he hh helper index addresses plan
  obtain rfl := emitted_unique emits eq
  subst isInt
  rw [plan]
  refine ⟨locals, .ofBool (n ≠ 0), s, ?_, .refl _ _, .refl s, .boolean width n, fun _ => .inl⟩
  have code (p : Nat) {i : Instr} (found : ([.ldarg index, .ldcI4 0, .cgtUn] ++
      if width = .byte then [.convU1] else [])[p]? = some i) :
      f.body.instrs[e.position + p]? = some i := within.instr found
  have compares : m.Leads (f.at e.position locals stack) s
      (f.at (e.position + 3) locals (.ofBool (n ≠ 0) :: stack)) s := by
    have truth : decide (0 < n.toUInt32.toUInt64) = decide (n ≠ 0) :=
      decide_eq_decide.mpr (Int32.zero_lt_word_iff n)
    rw [← truth]
    exact ((Leads.ldarg (code 0 rfl) arg).trans (Leads.ldcI4 (code 1 rfl))).trans
      (Leads.cgtUn (code 2 rfl) rfl rfl)
  rw [position_grow]
  cases width with
  | int32 => exact compares
  | byte =>
    have narrowed (b : Bool) : Value.i32
        ((if b then 1 else 0 : Int32).toUInt32.toUInt64 &&& 0xFF).toUInt32.toInt32 = .ofBool b := by
      cases b <;> rfl
    have narrows : m.Leads (f.at (e.position + 3) locals (.ofBool (n ≠ 0) :: stack)) s
        (f.at (e.position + 4) locals (.i32 _ :: stack)) s := Leads.convU1 (code 3 rfl) rfl
    rw [narrowed] at narrows
    exact compares.trans narrows

theorem emitArgument_brings_byRef (hv : e.locals.size < 2 ^ 16)
    (count : locals.length = f.body.locals.length) (plan : slot.plan = .byRef) {a : Address}
    {bytes : Bytes} (isAddress : v = .address a) (images : a.source.Images m.module s.objects bytes) :
    m.Brings f e e' locals stack s (s.Passes m.module old slot.plan v) := by
  obtain ⟨k, -, eq⟩ := emitArgument_byRef he hh helper index addresses plan
  obtain rfl := emitted_unique emits eq
  subst isAddress
  rw [plan]
  obtain ⟨block, s', pins, grows, pinned, only⟩ := pin_grows images
  rw [← pinAddress_eq] at pins
  have there : (UInt16.ofNat e.locals.size).toNat < locals.length := by
    have more := within.locals
    rw [size_locals_grow, List.length_singleton] at more
    rw [toNat_newLocal hv]
    omega
  refine ⟨locals.set (UInt16.ofNat e.locals.size).toNat (.address a), .ptr block, s', ?_,
    .set _ (toNat_newLocal hv).ge _, grows, .byRef pinned, fun p hp => (only p hp).imp_right fun source => ?_⟩
  · rw [position_grow]
    exact (((Leads.ldarg (within.instr (p := 0) rfl) arg).trans
      (Leads.stloc (within.instr (p := 1) rfl) there)).trans
        (Leads.ldloc (within.instr (p := 2) rfl) (List.getElem?_set_self there))).trans
          (Leads.convI_address (within.instr (p := 3) rfl) pins)
  · exact .inl (congrArg some source.symm)

theorem emitArgument_brings_blittableArray (hl : e.labels.size + 2 < 2 ^ 32)
    (hv : e.locals.size < 2 ^ 16) (count : locals.length = f.body.locals.length)
    (plan : slot.plan = .blittableArray) (admits : slot.Admits m.module s v) :
    m.Brings f e e' locals stack s (s.Passes m.module old slot.plan v) := by
  obtain ⟨element, emits⟩ : ∃ element, emitPinnedArray (.ldarg index) element e = ((), e') := by
    simp only [emitArgument, plan] at emits
    exact ⟨_, emits⟩
  simp only [ParamSlot.Admits, plan] at admits
  obtain ⟨locals', w, s', leads, same, grows, pinned, only⟩ :=
    emitPinnedArray_brings he hh hl hv rfl rfl rfl emits within count
      (fun _ _ code => Leads.ldarg code arg) admits
  rw [plan]
  refine ⟨locals', w, s', leads, same, grows, .blittableArray pinned, fun p hp => ?_⟩
  refine (only p hp).imp_right ?_
  rintro ⟨r, rfl, source⟩
  exact .inl (congrArg some source.symm)

theorem emitArgument_brings_unicodeString (h' : m.HasHelper helper' flags)
    (hl : e.labels.size + 2 < 2 ^ 32) (hv : e.locals.size < 2 ^ 16)
    (count : locals.length = f.body.locals.length) (plan : slot.plan = .unicodeString)
    (admits : slot.Admits m.module s v) :
    m.Brings f e e' locals stack s (s.Passes m.module old slot.plan v) := by
  obtain ⟨k, -, eq⟩ := emitArgument_unicodeString he hh hl helper index addresses plan
  obtain rfl := emitted_unique emits eq
  simp only [ParamSlot.Admits, plan] at admits
  rw [plan]
  let pin : UInt16 := UInt16.ofNat e.locals.size
  have code (p : Nat) {i : Instr} (found : ([.ldarg index, .stloc pin, .ldloc pin, .convI, .dup,
      .brfalse (e.label 0), .call Framework.offsetToStringData, .add] : List Instr)[p]? = some i) :
      f.body.instrs[e.position + p]? = some i := within.instr found
  have null : f.body.target? (e.label 0) = some (e.position + 8) := within.label rfl (by omega)
  have there : pin.toNat < locals.length := by
    have more := within.locals
    rw [size_locals_grow, List.length_singleton] at more
    rw [toNat_newLocal hv]
    omega
  have loads : m.Leads (f.at e.position locals stack) s
      (f.at (e.position + 3) (locals.set pin.toNat v) (v :: stack)) s :=
    ((Leads.ldarg (code 0 rfl) arg).trans (Leads.stloc (code 1 rfl) there)).trans
      (Leads.ldloc (code 2 rfl) (List.getElem?_set_self there))
  have zero (s : MachineState) : m.Leads
      (f.at (e.position + 4) (locals.set pin.toNat v) (.ptr 0 :: stack)) s
      (f.at (e.position + 8) (locals.set pin.toNat v) (.ptr 0 :: stack)) s :=
    (Leads.dup (code 4 rfl)).trans (Leads.brfalse (code 5 rfl) null rfl)
  obtain rfl | ⟨r, units, rfl, text⟩ := admits
  · refine ⟨locals.set pin.toNat .null, .ptr 0, s, ?_, .set _ (toNat_newLocal hv).ge _, .refl s,
      .noUnicode, fun _ => .inl⟩
    rw [position_grow]
    exact (loads.trans (Leads.convI_null (code 3 rfl))).trans (zero s)
  obtain ⟨block, s', pins, grows, pinned, only⟩ := pin_grows (m := m) (.str text)
  rw [← pinString_apply text] at pins
  refine ⟨locals.set pin.toNat (.ref r), _, s', ?_, .set _ (toNat_newLocal hv).ge _, grows,
    .unicode (grows.objects _ _ text) pinned,
    fun p hp => (only p hp).imp_right fun source => .inl (congrArg some source.symm)⟩
  rw [position_grow]
  refine (loads.trans (Leads.convI_string (code 3 rfl) pins)).trans ?_
  by_cases none : block = 0
  · rw [if_pos none, none]
    exact zero s'
  · have nonzero : (Value.ptr block).isTrue = true := by simpa [Value.isTrue] using none
    have offset : RuntimeMember.offsetToStringData.call m.world.catalog.platform [] s' =
        (.ok (some (.i32 8)), s') := rfl
    rw [if_neg none]
    exact (((Leads.dup (code 4 rfl)).trans (Leads.brfalse_next (code 5 rfl) nonzero)).trans
      (Leads.callRuntime [] (code 6 rfl) rfl (h'.missing .offsetToStringData) rfl offset)).trans
        (Leads.add (code 7 rfl) rfl)

theorem emitArgument_brings_delegate (h' : m.HasHelper helper' flags)
    (hl : e.labels.size + 2 < 2 ^ 32) (plan : slot.plan = .delegate)
    (admits : slot.Admits m.module s v) :
    m.Brings f e e' locals stack s (s.Passes m.module old slot.plan v) := by
  obtain ⟨k, -, eq⟩ := emitArgument_delegate he hh hl helper index addresses plan
  obtain rfl := emitted_unique emits eq
  simp only [ParamSlot.Admits, plan] at admits
  rw [plan]
  have code (p : Nat) {i : Instr} (found : ([.ldarg index, .brtrue (e.label 0), .ldcI4 0, .convU,
      .br (e.label 1), .ldarg index, .call Framework.functionPointerForDelegate] :
        List Instr)[p]? = some i) :
      f.body.instrs[e.position + p]? = some i := within.instr found
  have present : f.body.target? (e.label 0) = some (e.position + 5) := within.label rfl (by omega)
  have done : f.body.target? (e.label 1) = some (e.position + 7) := within.label rfl (by omega)
  obtain rfl | ⟨r, t, target, rfl, isDelegate⟩ := admits
  · refine ⟨locals, .ptr 0, s, ?_, .refl _ _, .refl s, .noDelegate, fun _ => .inl⟩
    rw [position_grow]
    exact ((((Leads.ldarg (code 0 rfl) arg).trans (Leads.brtrue_next (code 1 rfl) rfl)).trans
      (Leads.ldcI4 (code 2 rfl))).trans (Leads.convU (code 3 rfl) rfl)).trans
        (Leads.br (code 4 rfl) done)
  · refine ⟨locals, .ptr target, s, ?_, .refl _ _, .refl s, .delegate isDelegate, fun _ => .inl⟩
    have entry : RuntimeMember.functionPointerForDelegate.call m.world.catalog.platform [.ref r] s =
        (.ok (some (.ptr target)), s) := by
      simp [RuntimeMember.call, RuntimeMember.delegateTarget, isDelegate]
    rw [position_grow]
    exact (((Leads.ldarg (code 0 rfl) arg).trans (Leads.brtrue (code 1 rfl) present rfl)).trans
      (Leads.ldarg (code 5 rfl) arg)).trans
        (Leads.callRuntime [.ref r] (code 6 rfl) rfl (h'.missing .functionPointerForDelegate) rfl entry)

theorem emitArgument_brings_ansiString {flags : Int32} (h' : m.HasHelper helper flags)
    (hl : e.labels.size + 2 < 2 ^ 32) (hv : e.locals.size + 2 ≤ 2 ^ 16)
    (count : locals.length = f.body.locals.length) (new : old ≤ s.objects.size)
    (plan : slot.plan = .ansiString) (admits : slot.Admits m.module s v) :
    m.Brings f e e' locals stack s (s.Passes m.module old slot.plan v) := by
  let bytes : UInt16 := UInt16.ofNat e.locals.size
  obtain ⟨k, -, eq⟩ := emitAnsiBytes_eq he hh helper index
  obtain ⟨e₁, made⟩ : ∃ e₁, e₁ = e.grow [.ldarg index, .call (Helper.ansiBytes helper), .stloc bytes]
    [] [⟨.vector .u8, false⟩] h k true := ⟨_, rfl⟩
  have he₁ : e₁.At h := by
    rw [made]
    exact at_grow
  have emits₁ : emitPinnedArray (.ldloc bytes) .u8 e₁ = ((), e') := by
    rw [← emits, made]
    have number : (e.newLocal (.vector .u8) false).1 = bytes := rfl
    simp only [emitArgument, plan, Emit.bind_apply, Emit.declareLocal_apply, number, bytes, eq]
  have size : e₁.locals.size = e.locals.size + 1 := by
    rw [made, size_locals_grow, List.length_singleton]
  have labels : e₁.labels.size = e.labels.size := by
    rw [made, size_labels_grow, List.length_nil, Nat.add_zero]
  have within₁ : e₁.Within f.body := by
    obtain ⟨k', -, eq'⟩ := emitPinnedArray_eq he₁ hh (by omega)
      (show (Instr.ldloc bytes).isPlain = true from rfl) rfl rfl .u8
    obtain rfl := emitted_unique emits₁ eq'
    exact within.of_grow
  have there : bytes.toNat < locals.length := by
    have more := within₁.locals
    rw [toNat_newLocal (by omega)]
    omega
  have code (p : Nat) {i : Instr} (found : ([.ldarg index, .call (Helper.ansiBytes helper),
      .stloc bytes] : List Instr)[p]? = some i) : f.body.instrs[e.position + p]? = some i := by
    rw [made] at within₁
    exact within₁.instr found
  have leads {w : Value} {s₁ : MachineState}
      (ends : m.Ends ⟨helper, Helper.ansiBytesDef⟩ [v] s (.ok (some w)) s₁) :
      m.Leads (f.at e.position locals stack) s
        (f.at e₁.position (locals.set bytes.toNat w) stack) s₁ := by
    have member : Helper.ansiBytesDef ∈ Helper.methods helper flags := by
      simp [Helper.methods, Helper.converters, Helper.ansiBytesDef]
    have resolves := h'.resolves member
    rw [made, position_grow]
    exact ((Leads.ldarg (code 0 rfl) arg).trans
      (Leads.call [v] (code 1 rfl) rfl rfl resolves ends)).trans (Leads.stloc (code 2 rfl) there)
  have stored (w : Value) : SameBelow e.locals.size locals (locals.set bytes.toNat w) :=
    .set _ (toNat_newLocal (by omega)).ge w
  have loads {w : Value} {s₁ : MachineState} (pc : Nat) (stack : List Value)
      (found : f.body.instrs[pc]? = some (.ldloc bytes)) :
      m.Leads (f.at pc (locals.set bytes.toNat w) stack) s₁
        (f.at (pc + 1) (locals.set bytes.toNat w) (w :: stack)) s₁ :=
    Leads.ldloc found (List.getElem?_set_self there)
  have pins {w : Value} {s₁ : MachineState} :=
    @emitPinnedArray_brings m f s₁ _ _ _ _ stack _ he₁ hh (by omega) (by omega) _ rfl rfl rfl _ emits₁
      within (List.length_set.trans count) (loads (w := w))
  simp only [ParamSlot.Admits, plan] at admits
  rw [plan]
  obtain rfl | ⟨r, units, rfl, text, short⟩ := admits
  · obtain ⟨locals', w, s', leads', same, grows, pinned, only⟩ := @pins .null s (.inl rfl)
    cases pinned
    refine ⟨locals', .ptr 0, s', (leads (Helper.ansiBytes_ends_null s)).trans leads',
      (stored _).trans same (by omega), grows, .noAnsi, fun p hp => (only p hp).imp_right ?_⟩
    rintro ⟨r, isRef, -⟩
    cases isRef
  · let copy : Object := .ofBytes (Latin1.lowBytes units ++ [0])
    have isBytes := MachineState.object_withObject_new s copy
    have images := images_ofBytes (m := m.module) isBytes (by simp)
    have few : (Latin1.lowBytes units ++ [0]).length < 2 ^ 31 := by simp; omega
    obtain ⟨locals', w, s', leads', same', grows, pinned, only⟩ :=
      @pins _ (s.withObject copy) (.inr ⟨_, _, _, rfl, isBytes, by simpa using few,
        fun _ => ⟨_, images⟩⟩)
    have grows' := (MachineState.Grows.withObject s copy).trans grows
    cases pinned with
    | empty isArray none =>
      have same := (grows.objects _ _ isBytes).symm.trans isArray
      simp only [copy, Object.ofBytes, Option.some.injEq, Object.array.injEq] at same
      obtain ⟨-, rfl⟩ := same
      simp at none
    | items isArray some pinned =>
      refine ⟨locals', _, s', (leads (Helper.ansiBytes_ends h' text short)).trans leads',
        (stored _).trans same' (by omega), grows', .ansi (grows'.objects _ _ text)
          (grows.objects _ _ isBytes) pinned, fun p hp => (only p hp).imp_right ?_⟩
      rintro ⟨r', isRef, source⟩
      cases isRef
      exact .inr ⟨_, new, source⟩

omit arg in
/-- The strings of an array have been copied to a table, and the table is passed. -/
theorem emitArgument_brings_stringArray (hl : e.labels.size + 2 < 2 ^ 32)
    (hv : e.locals.size < 2 ^ 16) (count : locals.length = f.body.locals.length) {table : UInt16}
    (there : addresses = some table) {t : AddressTable} {copied : List UInt64}
    (plan : slot.plan = .stringArray t.encoding) (has : s.HasTexts v t.texts)
    (filled : t.Filled s copied) (few : t.texts.length < 2 ^ 31)
    (local_ : locals[table.toNat]? = some (.ref t.ref)) (new : old ≤ t.ref.index) :
    m.Brings f e e' locals stack s (s.Passes m.module old slot.plan v) := by
  subst there
  have emits' : emitPinnedArray (.ldloc table) .intPtr e = ((), e') := by
    simpa only [emitArgument, plan] using emits
  have short : (copied.map Value.ptr).toArray.size < 2 ^ 31 := by simpa [filled.length] using few
  have images (some : 0 < (copied.map Value.ptr).toArray.size) :=
    (images_ofAddresses filled.isTable (by simpa using some) :
      PinSource.Images m.module _ _ _)
  obtain ⟨locals', w, s', leads, same, grows, pinned, only⟩ :=
    emitPinnedArray_brings he hh hl hv rfl rfl rfl emits' within count
      (fun _ _ code => Leads.ldloc code local_)
      (.inr ⟨t.ref, _, _, rfl, filled.isTable, short, fun some => ⟨_, images some⟩⟩)
  rw [plan]
  refine ⟨locals', w, s', leads, same, grows,
    .strings (grows.hasTexts has) (grows.filled filled) pinned, fun p hp => ?_⟩
  refine (only p hp).imp_right ?_
  rintro ⟨r, isTable, source⟩
  cases isTable
  exact .inr ⟨_, new, source⟩

end Arguments

/-- What the code for an argument finds: a value that the slot takes, or, for an array of strings, a
table with the copies in a local. -/
inductive Passable (module : Module) (old : Nat) (s : MachineState) (locals : List Value) :
    ParamSlot × Option UInt16 → Value → Prop
  | value {slot : ParamSlot} {v : Value} (admits : slot.Admits module s v) :
      Passable module old s locals (slot, none) v
  | table {slot : ParamSlot} {table : UInt16} {v : Value} {t : AddressTable} {copied : List UInt64}
      (plan : slot.plan = .stringArray t.encoding) (has : s.HasTexts v t.texts)
      (filled : t.Filled s copied) (few : t.texts.length < 2 ^ 31)
      (local_ : locals[table.toNat]? = some (.ref t.ref)) (new : old ≤ t.ref.index) :
      Passable module old s locals (slot, some table) v

theorem Passable.mono {module : Module} {old n : Nat} {s s' : MachineState}
    {locals locals' : List Value} {slot : ParamSlot × Option UInt16}
    (passable : Passable module old s locals slot v) (grows : s.Grows module s')
    (same : SameBelow n locals locals') (below : ∀ a ∈ slot.2, a.toNat < n) :
    Passable module old s' locals' slot v := by
  cases passable with
  | value admits => exact .value (admits.mono grows.objects)
  | table plan has filled few local_ new =>
    exact .table plan (grows.hasTexts has) (grows.filled filled) few
      ((same.below _ (below _ rfl)).trans local_) new

theorem Passable.mono_all {module : Module} {old n : Nat} {s s' : MachineState}
    {locals locals' : List Value} {slots : List (ParamSlot × Option UInt16)} {args : List Value}
    (passable : List.Forall₂ (Passable module old s locals) slots args) (grows : s.Grows module s')
    (same : SameBelow n locals locals') (held : Held n slots) :
    List.Forall₂ (Passable module old s' locals') slots args := by
  induction passable with
  | nil => exact .nil
  | cons first _ ih =>
    obtain ⟨held₁, held⟩ := List.forall_mem_cons.mp held
    exact .cons (first.mono grows same held₁) (ih held)

/-- Every argument is passed that its code finds so. -/
theorem emitArgument_brings {helper : TypeName} {flags : Int32} {slot : ParamSlot} {index : UInt16}
    {addresses : Option UInt16} {old : Nat} (he : e.At h) (hh : h + 2 < 2 ^ 16)
    (emits : emitArgument helper slot index addresses e = ((), e')) (within : e'.Within f.body)
    (arg : f.args[index.toNat]? = some v) (h' : m.HasHelper helper flags)
    (hl : e.labels.size + 2 < 2 ^ 32) (hv : e.locals.size + localsFor addresses ≤ 2 ^ 16)
    (count : locals.length = f.body.locals.length) (new : old ≤ s.objects.size)
    (passable : Passable m.module old s locals (slot, addresses) v) :
    m.Brings f e e' locals stack s (s.Passes m.module old slot.plan v) := by
  have some : 0 < localsFor addresses := by
    cases addresses <;> exact Nat.succ_pos _
  have hv' : e.locals.size < 2 ^ 16 := by omega
  cases passable with
  | table plan has filled few local_ new =>
    exact emitArgument_brings_stringArray he hh emits within hl hv' count rfl plan has filled few
      local_ new
  | value admits =>
    cases plan : slot.plan with
    | direct =>
      rw [← plan]
      exact emitArgument_brings_direct he hh emits within arg plan
    | boolean width =>
      have isInt := admits
      simp only [ParamSlot.Admits, plan] at isInt
      obtain ⟨n, isInt⟩ := isInt
      rw [← plan]
      exact emitArgument_brings_boolean he hh emits within arg plan isInt
    | byRef =>
      have images := admits
      simp only [ParamSlot.Admits, plan] at images
      obtain ⟨a, bytes, isAddress, images⟩ := images
      rw [← plan]
      exact emitArgument_brings_byRef he hh emits within arg hv' count plan isAddress images
    | blittableArray =>
      rw [← plan]
      exact emitArgument_brings_blittableArray he hh emits within arg hl hv' count plan admits
    | unicodeString =>
      rw [← plan]
      exact emitArgument_brings_unicodeString he hh emits within arg h' hl hv' count plan admits
    | ansiString =>
      rw [← plan]
      exact emitArgument_brings_ansiString he hh emits within arg h' hl hv count new plan admits
    | delegate =>
      rw [← plan]
      exact emitArgument_brings_delegate he hh emits within arg h' hl plan admits
    | stringArray encoding =>
      simp only [ParamSlot.Admits, plan] at admits

/-- All arguments are passed, the first one first. -/
theorem emitArguments_brings {helper : TypeName} {flags : Int32} (h' : m.HasHelper helper flags)
    {old i : Nat} {slots : List (ParamSlot × Option UInt16)} {args : List Value} (he : e.Rests h)
    (made : Made slots) (held : Held e.locals.size slots) (hi : i + slots.length < 2 ^ 16)
    (hh : h + slots.length + 2 < 2 ^ 16) (hl : e.labels.size + 2 * slots.length + 2 < 2 ^ 32)
    (hv : e.locals.size + allLocals slots ≤ 2 ^ 16)
    (emits : ((slots.zipIdx i).forM fun ((slot, addresses), index) =>
      emitArgument helper slot (UInt16.ofNat index) addresses) e = ((), e'))
    (within : e'.Within f.body) (count : locals.length = f.body.locals.length)
    (new : old ≤ s.objects.size) (given : ∀ j v, args[j]? = some v → f.args[i + j]? = some v)
    (passable : List.Forall₂ (Passable m.module old s locals) slots args) :
    ∃ locals' passed s', m.Leads (f.at e.position locals stack) s
        (f.at e'.position locals' (passed.reverse ++ stack)) s' ∧
      SameBelow e.locals.size locals locals' ∧
      s.PassesAll m.module old ((slots.map Prod.fst).zip args) s' passed := by
  induction slots generalizing e h i args locals stack s with
  | nil =>
    cases emits
    exact ⟨locals, [], s, .refl m _ _, .refl _ _, .nil s⟩
  | cons slot slots ih =>
    obtain ⟨slot, addresses⟩ := slot
    obtain ⟨v, args, passable₁, rest, rfl⟩ := List.forall₂_cons_left_iff.mp passable
    simp only [List.length_cons, allLocals, List.map_cons, List.sum_cons] at hi hh hl hv
    obtain ⟨made₁, made⟩ := List.forall_mem_cons.mp made
    obtain ⟨held₁, held'⟩ := List.forall_mem_cons.mp held
    have number : (UInt16.ofNat i).toNat = i := by
      rw [UInt16.toNat_ofNat', Nat.mod_eq_of_lt (by omega)]
    obtain ⟨e₁, eq₁, lays₁⟩ := emitArgument_lays (n := 2 ^ 16) he (by omega) (by omega) helper
      (UInt16.toNat_lt (UInt16.ofNat i)) made₁ held₁
    have labels₁ := lays₁.labels_le
    have locals₁ : _ ≤ e.locals.size + localsFor addresses :=
      (declares_emitArgument_made helper (UInt16.ofNat i) made₁).locals e
    have room : e.locals.size + localsFor addresses ≤ 2 ^ 16 := by omega
    simp only [eq₁] at locals₁
    have held₂ : Held e₁.locals.size slots := Held.mono held' lays₁.locals_le
    obtain ⟨e₂, eq₂, lays₂⟩ := emitArguments_lays (n := 2 ^ 16) (i := i + 1) lays₁.rests helper made
      held₂ (by omega) (by omega) (by omega)
    obtain rfl : e₂ = e' := by
      have whole := (congrArg Prod.snd emits).symm
      rw [List.zipIdx_cons] at whole
      change e' = ((emitArgument helper slot (UInt16.ofNat i) addresses >>= fun _ =>
        (slots.zipIdx (i + 1)).forM _) e).2 at whole
      rw [whole, Emit.bind_apply, eq₁, eq₂]
    obtain ⟨locals₁, w, s₁, leads₁, same₁, passes₁⟩ := emitArgument_brings he.toAt
      (by omega) eq₁ (lays₂.within within) (by rw [number]; exact given 0 v rfl) h' (by omega)
      room count new passable₁
    have left : e₁.locals.size + allLocals slots ≤ 2 ^ 16 := by
      rw [allLocals]
      omega
    obtain ⟨locals₂, passed, s₂, leads₂, same₂, passes₂⟩ := ih lays₁.rests made held₂ (by omega)
      (by omega) (by omega) left eq₂ (same₁.length.trans count)
      (Nat.le_trans new passes₁.grows.size)
      (fun j v found => by
        rw [Nat.add_right_comm, Nat.add_assoc]
        exact given (j + 1) v found)
      (Passable.mono_all rest passes₁.grows same₁ held')
    refine ⟨locals₂, w :: passed, s₂, ?_, same₁.trans same₂ lays₁.locals_le, .cons passes₁ passes₂⟩
    rw [List.reverse_cons, List.append_assoc]
    exact leads₁.trans leads₂

end StubBody

end LateBind
