import LateBind.ImportTable
import LateBind.Proofs.AddressTables
import LateBind.Proofs.AnsiText

/-! # Arguments on their way to native code

What stands for an argument in native code is made from new objects and new pins; nothing that was
there before changes. -/

namespace LateBind

open Machine

/-! ## Growth -/

/-- Blocks were added above all that there were. -/
def Heap.Above (h h' : Heap) : Prop :=
  ∃ made, h'.blocks = made ++ h.blocks ∧ ∀ b ∈ made, h.next ≤ b.start.toNat

namespace Heap.Above

variable {h h' h'' : Heap}

theorem refl (h : Heap) : h.Above h := ⟨[], rfl, by simp⟩

theorem trans (first : h.Above h') (second : h'.Above h'') (next : h.next ≤ h'.next) :
    h.Above h'' := by
  obtain ⟨made, blocks, above⟩ := first
  obtain ⟨made', blocks', above'⟩ := second
  refine ⟨made' ++ made, by rw [blocks', blocks, List.append_assoc], fun b hb => ?_⟩
  rcases List.mem_append.mp hb with hb | hb
  · exact Nat.le_trans next (above' b hb)
  · exact above b hb

theorem add (fits : h.next < 2 ^ 64) {block : Block} (fresh : block.start = h.nextAddress) :
    h.Above (h.add block).2 := by
  refine ⟨[block], rfl, fun b hb => ?_⟩
  rw [List.mem_singleton.mp hb, fresh, toNat_nextAddress fits]

theorem copyAll {copies : List (Option Bytes)} (fits : (h.copyAll copies).2.next ≤ 2 ^ 64) :
    h.Above (h.copyAll copies).2 := by
  induction copies generalizing h with
  | nil => exact .refl h
  | cons c rest ih =>
    have small := Nat.le_trans (next_le_copyAll (h.copy c).2 rest) fits
    refine trans ?_ (ih fits) (h.next_le_copy c)
    cases c with
    | none => exact .refl h
    | some bytes => exact .add (next_lt_of_copy small) rfl

end Heap.Above

/-- Every copy that is pinned is up to date. -/
def MachineState.PinsHold (module : Module) (s : MachineState) : Prop :=
  ∀ p ∈ s.pins, ∃ bytes, p.source.Images module s.objects bytes ∧ s.native.heap.Stores p.block bytes

/-- The state with objects, pins and blocks added. As long as addresses do not run out, blocks hold
what they held. -/
structure MachineState.Grows (module : Module) (s s' : MachineState) : Prop where
  objects : ∀ (i : Nat) (o : Object), s.objects[i]? = some o → s'.objects[i]? = some o
  pins : ∀ p ∈ s.pins, p ∈ s'.pins
  statics : s'.statics = s.statics
  native : s'.native = { s.native with heap := s'.native.heap }
  next : s.native.heap.next ≤ s'.native.heap.next
  stores : s'.native.heap.next ≤ 2 ^ 64 → ∀ start bytes, s.native.heap.Stores start bytes →
    s'.native.heap.Stores start bytes
  above : s'.native.heap.next ≤ 2 ^ 64 → s.native.heap.Above s'.native.heap
  sound : s'.native.heap.next ≤ 2 ^ 64 → s.PinsSound module → s'.PinsSound module
  pinsHold : s'.native.heap.next ≤ 2 ^ 64 → s.PinsHold module → s'.PinsHold module

namespace MachineState.Grows

variable {module : Module} {s s' s'' : MachineState}

theorem refl (s : MachineState) : s.Grows module s :=
  ⟨fun _ _ => id, fun _ => id, rfl, rfl, Nat.le_refl _, fun _ _ _ => id, fun _ => .refl _, fun _ => id,
    fun _ => id⟩

theorem trans (first : s.Grows module s') (second : s'.Grows module s'') : s.Grows module s'' where
  objects i o found := second.objects i o (first.objects i o found)
  pins p hp := second.pins p (first.pins p hp)
  statics := second.statics.trans first.statics
  native := by rw [second.native, first.native]
  next := Nat.le_trans first.next second.next
  stores fits start bytes stores :=
    second.stores fits start bytes (first.stores (Nat.le_trans second.next fits) start bytes stores)
  above fits := (first.above (Nat.le_trans second.next fits)).trans (second.above fits) first.next
  sound fits sound := second.sound fits (first.sound (Nat.le_trans second.next fits) sound)
  pinsHold fits hold := second.pinsHold fits (first.pinsHold (Nat.le_trans second.next fits) hold)

theorem withObject (s : MachineState) (o : Object) : s.Grows module (s.withObject o) where
  objects _ _ found := object_withObject found o
  pins _ hp := hp
  statics := rfl
  native := rfl
  next := Nat.le_refl _
  stores _ _ _ stores := stores
  above _ := .refl _
  sound _ sound := sound.withObject o
  pinsHold _ hold p hp := by
    obtain ⟨bytes, images, stores⟩ := hold p hp
    exact ⟨bytes, images.mono fun _ _ found => object_withObject found o, stores⟩

theorem withPin {source : PinSource} {bytes : Bytes} (fresh : ∀ p ∈ s.pins, p.source ≠ source)
    (images : source.Images module s.objects bytes) : s.Grows module (s.withPin source bytes) where
  objects _ _ found := found
  pins _ hp := List.mem_append_left _ hp
  statics := rfl
  native := rfl
  next := Nat.le_trans (Nat.le_add_right _ _) (s.native.heap.next_lt_add _).le
  stores fits _ _ stores := stores.add
    (Nat.lt_of_lt_of_le (Nat.lt_of_le_of_lt (Nat.le_add_right _ _) (s.native.heap.next_lt_add _))
      fits) rfl
  above fits := .add (Nat.lt_of_lt_of_le
    (Nat.lt_of_le_of_lt (Nat.le_add_right _ _) (s.native.heap.next_lt_add _)) fits) rfl
  sound fits sound := sound.withPin fresh images fits
  pinsHold fits hold p hp := by
    have below : s.native.heap.next < 2 ^ 64 := Nat.lt_of_lt_of_le
      (Nat.lt_of_le_of_lt (Nat.le_add_right _ _) (s.native.heap.next_lt_add _)) fits
    rcases List.mem_append.mp hp with hp | hp
    · obtain ⟨bytes', images', stores⟩ := hold p hp
      exact ⟨bytes', images', stores.add below rfl⟩
    · rw [List.mem_singleton.mp hp]
      have stores := Heap.stores_add below
        (show (Block.ofBytes s.native.heap.nextAddress bytes .pinned).start = _ from rfl)
      rw [Block.bytes_ofBytes] at stores
      exact ⟨bytes, images, stores⟩

theorem size (grows : s.Grows module s') : s.objects.size ≤ s'.objects.size := by
  by_contra fewer
  have last : s'.objects.size < s.objects.size := Nat.lt_of_not_le fewer
  have found := grows.objects _ _ (Array.getElem?_eq_getElem last)
  rw [Array.getElem?_eq_none (Nat.le_refl _)] at found
  cases found

end MachineState.Grows

/-- New tables are filled. -/
theorem MachineState.Grows.fillAll {module : Module} {s s' : MachineState} {ts : List AddressTable}
    (grows : s.Grows module s') (pins : s'.pins = s.pins)
    (new : ∀ t ∈ ts, s.objects.size ≤ t.ref.index) : s.Grows module (s'.fillAll ts) := by
  have objects : ∀ (i : Nat) (o : Object), s.objects[i]? = some o →
      (s'.fillAll ts).objects[i]? = some o := by
    intro i o found
    have inside := (Array.getElem?_eq_some_iff.mp found).1
    rw [object_fillAll fun t mem same => by have := new t mem; omega]
    exact grows.objects i o found
  have next : s'.native.heap.next ≤ (s'.fillAll ts).native.heap.next := by
    rw [heap_fillAll]
    exact Heap.next_le_copyAll _ _
  have stores (fits : (s'.fillAll ts).native.heap.next ≤ 2 ^ 64) (start : UInt64) (bytes : Bytes)
      (stores : s.native.heap.Stores start bytes) :
      (s'.fillAll ts).native.heap.Stores start bytes := by
    have old := grows.stores (Nat.le_trans next fits) start bytes stores
    rw [heap_fillAll] at fits ⊢
    exact old.copyAll fits
  have same : (s'.fillAll ts).pins = s.pins := by rw [fillAll_eq, ← pins]
  exact
    { objects
      pins := fun p hp => same ▸ hp
      statics := by rw [fillAll_eq, ← grows.statics]
      native := by rw [fillAll_eq, grows.native]
      next := Nat.le_trans grows.next next
      stores
      above := fun fits => by
        refine (grows.above (Nat.le_trans next fits)).trans ?_ grows.next
        rw [heap_fillAll] at fits ⊢
        exact .copyAll fits
      sound := fun fits sound =>
        { held := fun p hp => by
            obtain ⟨bytes, old, images, held, length⟩ := sound.held p (same ▸ hp)
            exact ⟨bytes, old, images.mono objects, stores fits _ _ held, length⟩
          blocks := same ▸ sound.blocks
          sources := same ▸ sound.sources
          fits }
      pinsHold := fun fits hold p hp => by
        obtain ⟨bytes, images, held⟩ := hold p (same ▸ hp)
        exact ⟨bytes, images.mono objects, stores fits _ _ held⟩ }

/-- What a managed pointer pins. -/
def Address.source : Address → PinSource
  | .element array index => .elements array index
  | .boxed box => .boxed box

namespace Machine

variable {m : Machine} {s : MachineState} {source : PinSource} {bytes : Bytes}

/-- What can be copied can be pinned. -/
theorem pin_grows (images : source.Images m.module s.objects bytes) :
    ∃ block s', m.pin source s = (.ok block, s') ∧ s.Grows m.module s' ∧
      ⟨block, source⟩ ∈ s'.pins ∧ ∀ p ∈ s'.pins, p ∈ s.pins ∨ p.source = source := by
  cases found : s.pins.find? (·.source == source) with
  | none =>
    have fresh : ∀ p ∈ s.pins, p.source ≠ source := by
      intro p hp same
      exact List.find?_eq_none.mp found p hp (by simp [same])
    refine ⟨_, _, pin_new fresh images, .withPin fresh images,
      List.mem_append_right _ (List.mem_singleton_self _), fun p hp => ?_⟩
    refine (List.mem_append.mp hp).imp_right fun new => ?_
    rw [List.mem_singleton.mp new]
  | some p =>
    have same : p.source = source := by simpa using List.find?_some found
    subst same
    exact ⟨_, _, pin_old found, .refl s, List.mem_of_find?_eq_some found, fun _ => .inl⟩

theorem pinAddress_eq (m : Machine) (a : Address) : m.pinAddress a = m.pin a.source := by
  cases a <;> rfl

theorem pinString_apply {r : ObjRef} {units : Units} (text : s.objects[r.index]? = some (.str units)) :
    m.pinString r s = m.pin (.str r) s := by
  simp [pinString, Exec.object_apply text]

end Machine

/-- The copy of an address array is its words. -/
theorem images_ofAddresses {module : Module} {objects : Array Object} {r : ObjRef}
    {addresses : List UInt64} (isTable : objects[r.index]? = some (.ofAddresses addresses))
    (some : 0 < addresses.length) :
    PinSource.Images module objects (.elements r 0) (addresses.map Bytes.ofWord).flatten := by
  refine .elements isTable (by simpa using some) ⟨rfl, rfl⟩ ?_
  rw [List.drop_zero, List.forall₂_map_left_iff, List.forall₂_map_right_iff, List.forall₂_same]
  exact fun a _ => rfl

/-! ## Arguments -/

/-- What native code gets the address of. -/
def SlotPlan.source? : SlotPlan → Value → Option PinSource
  | .byRef, .address a => some a.source
  | .blittableArray, .ref r => some (.elements r 0)
  | .unicodeString, .ref r => some (.str r)
  | _, _ => none

/-- The values that a slot takes. Arrays of strings are not among them. -/
def ParamSlot.Admits (module : Module) (s : MachineState) (slot : ParamSlot) (v : Value) : Prop :=
  match slot.plan with
  | .direct => ∃ n, module.toNative slot.type v = .ok n
  | .boolean _ => ∃ n, v = .i32 n
  | .byRef => ∃ (a : Address) (bytes : _), v = .address a ∧ a.source.Images module s.objects bytes
  | .blittableArray => v = .null ∨ ∃ (r : ObjRef) (element : _) (items : _), v = .ref r ∧
      s.objects[r.index]? = some (.array element items) ∧ items.size < 2 ^ 31 ∧
        (0 < items.size → ∃ bytes, (PinSource.elements r 0).Images module s.objects bytes)
  | .unicodeString => v = .null ∨ ∃ (r : ObjRef) (units : _), v = .ref r ∧
      s.objects[r.index]? = some (.str units)
  | .ansiString => v = .null ∨ ∃ (r : ObjRef) (units : _), v = .ref r ∧
      s.objects[r.index]? = some (.str units) ∧ units.length < 2 ^ 31 - 1
  | .delegate => v = .null ∨ ∃ (r : ObjRef) (t : _) (target : _), v = .ref r ∧
      s.objects[r.index]? = some (.delegate t target)
  | .stringArray _ => False

/-- Values can be passed as long as their objects are there. -/
theorem ParamSlot.Admits.mono {module : Module} {s s' : MachineState} {slot : ParamSlot} {v : Value}
    (admits : slot.Admits module s v)
    (kept : ∀ (i : Nat) (o : Object), s.objects[i]? = some o → s'.objects[i]? = some o) :
    slot.Admits module s' v := by
  unfold Admits at admits ⊢
  split at admits
  case h_1 => exact admits
  case h_2 => exact admits
  case h_3 =>
    obtain ⟨a, bytes, rfl, images⟩ := admits
    exact ⟨a, bytes, rfl, images.mono kept⟩
  case h_4 =>
    refine admits.imp_right ?_
    rintro ⟨r, element, items, rfl, isArray, few, images⟩
    refine ⟨r, element, items, rfl, kept _ _ isArray, few, fun some => ?_⟩
    obtain ⟨bytes, images⟩ := images some
    exact ⟨bytes, images.mono kept⟩
  case h_5 =>
    refine admits.imp_right ?_
    rintro ⟨r, units, rfl, text⟩
    exact ⟨r, units, rfl, kept _ _ text⟩
  case h_6 =>
    refine admits.imp_right ?_
    rintro ⟨r, units, rfl, text, short⟩
    exact ⟨r, units, rfl, kept _ _ text, short⟩
  case h_7 =>
    refine admits.imp_right ?_
    rintro ⟨r, t, target, rfl, isDelegate⟩
    exact ⟨r, t, target, rfl, kept _ _ isDelegate⟩
  case h_8 => exact admits

/-- An array, and what stands for it in native code: the address of its copy, or zero when it has no
items. -/
inductive MachineState.PinnedArray (s : MachineState) : Value → Value → Prop
  | null : s.PinnedArray .null (.ptr 0)
  | empty {r : ObjRef} {element : TypeRef} {items : Array Value}
      (isArray : s.objects[r.index]? = some (.array element items)) (none : items.size = 0) :
      s.PinnedArray (.ref r) (.ptr 0)
  | items {r : ObjRef} {element : TypeRef} {items : Array Value} {block : UInt64}
      (isArray : s.objects[r.index]? = some (.array element items)) (some : 0 < items.size)
      (pinned : ⟨block, .elements r 0⟩ ∈ s.pins) : s.PinnedArray (.ref r) (.ptr block)

/-- An argument, and what stands for it in native code. -/
inductive MachineState.Crosses (s : MachineState) : SlotPlan → Value → Value → Prop
  | direct (v : Value) : s.Crosses .direct v v
  | boolean (width : BoolWidth) (n : Int32) :
      s.Crosses (.boolean width) (.i32 n) (.ofBool (n ≠ 0))
  | byRef {a : Address} {block : UInt64} (pinned : ⟨block, a.source⟩ ∈ s.pins) :
      s.Crosses .byRef (.address a) (.ptr block)
  | blittableArray {v passed : Value} (pinned : s.PinnedArray v passed) :
      s.Crosses .blittableArray v passed
  | noUnicode : s.Crosses .unicodeString .null (.ptr 0)
  | unicode {r : ObjRef} {units : Units} {block : UInt64}
      (text : s.objects[r.index]? = some (.str units)) (pinned : ⟨block, .str r⟩ ∈ s.pins) :
      s.Crosses .unicodeString (.ref r) (.ptr (if block = 0 then 0 else block + 8))
  | noAnsi : s.Crosses .ansiString .null (.ptr 0)
  | ansi {r copy : ObjRef} {units : Units} {block : UInt64}
      (text : s.objects[r.index]? = some (.str units))
      (bytes : s.objects[copy.index]? = some (.ofBytes (Latin1.lowBytes units ++ [0])))
      (pinned : ⟨block, .elements copy 0⟩ ∈ s.pins) :
      s.Crosses .ansiString (.ref r) (.ptr block)
  | strings {v passed : Value} {t : AddressTable} {addresses : List UInt64} (has : s.HasTexts v t.texts)
      (filled : t.Filled s addresses) (pinned : s.PinnedArray (.ref t.ref) passed) :
      s.Crosses (.stringArray t.encoding) v passed
  | noDelegate : s.Crosses .delegate .null (.ptr 0)
  | delegate {r : ObjRef} {t : TypeRef} {target : UInt64}
      (isDelegate : s.objects[r.index]? = some (.delegate t target)) :
      s.Crosses .delegate (.ref r) (.ptr target)

namespace MachineState.Grows

variable {module : Module} {s s' : MachineState}

theorem pinnedArray (grows : s.Grows module s') {v passed : Value} (pinned : s.PinnedArray v passed) :
    s'.PinnedArray v passed := by
  cases pinned with
  | null => exact .null
  | empty isArray none => exact .empty (grows.objects _ _ isArray) none
  | items isArray some pinned => exact .items (grows.objects _ _ isArray) some (grows.pins _ pinned)

theorem filled (grows : s.Grows module s') {t : AddressTable} {addresses : List UInt64}
    (filled : t.Filled s addresses) : t.Filled s' addresses where
  isTable := grows.objects _ _ filled.isTable
  length := filled.length
  holds fits := (filled.holds (Nat.le_trans grows.next fits)).imp fun _ _ holds =>
    holds.mono (grows.stores fits)

theorem hasTexts (grows : s.Grows module s') {v : Value} {texts : List (Option Units)}
    (has : s.HasTexts v texts) : s'.HasTexts v texts :=
  has.mono fun i o found _ => grows.objects i o found

theorem crosses (grows : s.Grows module s') {plan : SlotPlan} {v passed : Value}
    (crosses : s.Crosses plan v passed) : s'.Crosses plan v passed := by
  cases crosses with
  | direct => exact .direct v
  | boolean width n => exact .boolean width n
  | byRef pinned => exact .byRef (grows.pins _ pinned)
  | blittableArray pinned => exact .blittableArray (grows.pinnedArray pinned)
  | noUnicode => exact .noUnicode
  | unicode text pinned => exact .unicode (grows.objects _ _ text) (grows.pins _ pinned)
  | noAnsi => exact .noAnsi
  | ansi text bytes pinned =>
    exact .ansi (grows.objects _ _ text) (grows.objects _ _ bytes) (grows.pins _ pinned)
  | strings has filled pinned =>
    exact .strings (grows.hasTexts has) (grows.filled filled) (grows.pinnedArray pinned)
  | noDelegate => exact .noDelegate
  | delegate isDelegate => exact .delegate (grows.objects _ _ isDelegate)

end MachineState.Grows

/-- What crosses has a form for native code. -/
theorem MachineState.Crosses.toNative {module : Module} {s s' : MachineState} {slot : ParamSlot}
    {v passed : Value} (crosses : s'.Crosses slot.plan v passed)
    (admits : slot.plan.isStringArray = false → slot.Admits module s v) :
    ∃ n, module.toNative slot.nativeType passed = .ok n := by
  unfold ParamSlot.Admits at admits
  unfold ParamSlot.nativeType
  generalize slot.plan = plan at crosses admits
  cases crosses with
  | direct => exact admits rfl
  | boolean width n =>
    cases width with
    | int32 => exact ⟨_, rfl⟩
    | byte => exact ⟨_, rfl⟩
  | blittableArray pinned => cases pinned <;> exact ⟨_, rfl⟩
  | strings _ _ pinned => cases pinned <;> exact ⟨_, rfl⟩
  | _ => exact ⟨_, rfl⟩

/-- A pin that was made for an argument: of the object that it leads to, or of an array that was not
among the first objects. -/
def PinSource.MadeFor (old : Nat) (plan : SlotPlan) (v : Value) (source : PinSource) : Prop :=
  plan.source? v = some source ∨ ∃ r : ObjRef, old ≤ r.index ∧ source = .elements r 0

/-- An argument has been passed. -/
structure MachineState.Passes (module : Module) (old : Nat) (s : MachineState) (plan : SlotPlan)
    (v : Value) (s' : MachineState) (passed : Value) : Prop where
  grows : s.Grows module s'
  crosses : s'.Crosses plan v passed
  pins : ∀ p ∈ s'.pins, p ∈ s.pins ∨ p.source.MadeFor old plan v

/-- Arguments have been passed, one after the other. -/
structure MachineState.PassesAll (module : Module) (old : Nat) (s : MachineState)
    (arguments : List (ParamSlot × Value)) (s' : MachineState) (passed : List Value) : Prop where
  grows : s.Grows module s'
  crosses : List.Forall₂ (fun x w => s'.Crosses x.1.plan x.2 w) arguments passed
  pins : ∀ p ∈ s'.pins, p ∈ s.pins ∨ ∃ x ∈ arguments, p.source.MadeFor old x.1.plan x.2

namespace MachineState.PassesAll

variable {module : Module} {old : Nat} {s s' s'' : MachineState} {x : ParamSlot × Value}
  {arguments : List (ParamSlot × Value)} {w : Value} {passed : List Value}

theorem nil (s : MachineState) : s.PassesAll module old [] s [] :=
  ⟨.refl s, .nil, fun _ => .inl⟩

theorem cons (first : s.Passes module old x.1.plan x.2 s' w)
    (rest : s'.PassesAll module old arguments s'' passed) :
    s.PassesAll module old (x :: arguments) s'' (w :: passed) where
  grows := first.grows.trans rest.grows
  crosses := .cons (rest.grows.crosses first.crosses) rest.crosses
  pins p hp := by
    rcases rest.pins p hp with before | ⟨y, hy, made⟩
    · exact (first.pins p before).imp_right fun made => ⟨x, List.mem_cons_self, made⟩
    · exact .inr ⟨y, List.mem_cons_of_mem _ hy, made⟩

/-- What was added before arguments were passed is not theirs. -/
theorem of_grows (grows : s.Grows module s') (pins : s'.pins = s.pins)
    (passes : s'.PassesAll module old arguments s'' passed) :
    s.PassesAll module old arguments s'' passed :=
  ⟨grows.trans passes.grows, passes.crosses, fun p hp => pins ▸ passes.pins p hp⟩

end MachineState.PassesAll

/-- An argument, and what native code is given for it. -/
def MachineState.Hands (module : Module) (s : MachineState) (x : ParamSlot × Value)
    (n : NativeValue) : Prop :=
  ∃ passed, s.Crosses x.1.plan x.2 passed ∧ module.toNative x.1.nativeType passed = .ok n

/-- All that crosses has a form for native code. -/
theorem MachineState.exists_hands {module : Module} {s s' : MachineState}
    {arguments : List (ParamSlot × Value)} {passed : List Value}
    (crosses : List.Forall₂ (fun x w => s'.Crosses x.1.plan x.2 w) arguments passed)
    (admits : ∀ x ∈ arguments, x.1.plan.isStringArray = false → x.1.Admits module s x.2) :
    ∃ natives, ((arguments.map fun x => x.1.nativeType).zip passed).mapM
        (fun (t, v) => module.toNative t v) = .ok natives ∧
      List.Forall₂ (s'.Hands module) arguments natives := by
  simp only [mapM_eq_ok_iff]
  induction crosses with
  | nil => exact ⟨[], .nil, .nil⟩
  | cons first _ ih =>
    obtain ⟨admits₁, admits⟩ := List.forall_mem_cons.mp admits
    obtain ⟨n, converts⟩ := first.toNative admits₁
    obtain ⟨natives, all, hands⟩ := ih admits
    exact ⟨n :: natives, .cons converts all, .cons ⟨_, first, converts⟩ hands⟩

end LateBind
