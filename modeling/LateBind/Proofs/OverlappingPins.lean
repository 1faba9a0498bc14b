import LateBind.Proofs.PinnedData

/-! # Several copies of one item

An array that is pinned from several places on has an own copy for each of them, so that one item
lies in several blocks. After a native call the last copy that holds an item decides what the item
is: what the function wrote to it there stays, and what it wrote to another copy of it is lost. -/

namespace LateBind

open Machine

/-- One of the pieces of the same width that bytes consist of. -/
def Bytes.chunk (width i : Nat) (bytes : Bytes) : Bytes := (bytes.drop (i * width)).take width

theorem Bytes.chunk_flatten {width i : Nat} {pieces : List Bytes} {piece : Bytes}
    (even : ∀ p ∈ pieces, p.length = width) (found : pieces[i]? = some piece) :
    chunk width i pieces.flatten = piece := by
  induction pieces generalizing i with
  | nil => cases found
  | cons first rest ih =>
    have length : first.length = width := even first List.mem_cons_self
    cases i with
    | zero =>
      cases found
      simp [chunk, ← length]
    | succ i =>
      rw [List.getElem?_cons_succ] at found
      rw [← ih (fun p hp => even p (List.mem_cons_of_mem _ hp)) found]
      have skip : (i + 1) * width = first.length + i * width := by rw [length, Nat.succ_mul, Nat.add_comm]
      rw [chunk, chunk, List.flatten_cons, skip, List.drop_append, List.drop_of_length_le (by omega),
        List.nil_append, Nat.add_sub_cancel_left]

/-- A copy holds the bytes of each item in its place. -/
theorem PinSource.Images.encode_chunk {module : Module} {objects : Array Object} {r : ObjRef}
    {k i width : Nat} {element : TypeRef} {items : Array Value} {bytes : Bytes} {v : Value}
    (images : (PinSource.elements r k).Images module objects bytes)
    (isArray : objects[r.index]? = some (.array element items))
    (size : module.size element = .ok width) (le : k ≤ i) (found : items[i]? = some v) :
    module.encode element v = .ok (bytes.chunk width (i - k)) := by
  cases images with
  | @elements _ _ _ _ _ pieces isArray' _ _ encodes =>
    cases isArray.symm.trans isArray'
    have even : ∀ p ∈ pieces, p.length = width := by
      intro p hp
      obtain ⟨j, hj, rfl⟩ := List.getElem_of_mem hp
      have length := Module.length_of_encode (encodes.get (encodes.length_eq ▸ hj) hj)
      rw [size] at length
      exact (Except.ok.inj length).symm
    have at_ : (items.toList.drop k)[i - k]? = some v := by
      rw [List.getElem?_drop, Nat.add_sub_cancel' le, Array.getElem?_toList, found]
    obtain ⟨hi, rfl⟩ := List.getElem?_eq_some_iff.mp at_
    have hi' : i - k < pieces.length := encodes.length_eq ▸ hi
    rw [Bytes.chunk_flatten even (List.getElem?_eq_getElem hi')]
    exact encodes.get hi hi'

/-- A copy of items is as long as they are together. -/
theorem PinSource.Images.length_elements {module : Module} {objects : Array Object} {r : ObjRef}
    {k : Nat} {element : TypeRef} {items : Array Value} {bytes : Bytes}
    (images : (PinSource.elements r k).Images module objects bytes)
    (isArray : objects[r.index]? = some (.array element items)) :
    ∃ width, module.size element = .ok width ∧ bytes.length = width * (items.size - k) := by
  generalize count : bytes.length = n
  have spans := count ▸ images.spans
  cases spans with
  | elements isArray' _ lays =>
    cases isArray.symm.trans isArray'
    exact ⟨_, lays.size, rfl⟩

namespace Machine

variable {m : Machine} {s : MachineState}

/-- No other pin has the block of a pin. -/
theorem block_ne_of_pins {module : Module} {before after : List Pin} {q : Pin}
    (sound : s.PinsSound module) (pins : s.pins = before ++ q :: after) :
    ∀ p ∈ before ++ after, p.block ≠ q.block := by
  have blocks := sound.blocks
  rw [pins, List.pairwise_append, List.pairwise_cons] at blocks
  obtain ⟨-, ⟨behind, -⟩, ahead⟩ := blocks
  intro p hp
  rcases List.mem_append.mp hp with hp | hp
  · exact ahead p hp q List.mem_cons_self
  · exact (behind p hp).symm

/-- The last copy that holds an item decides what the item is after a native call that frees no
block. The copies lie apart, so a function that writes to an earlier one only leaves the item as it
was. -/
theorem callPinned_last_pin {before after : List Pin} {q : Pin} {r : ObjRef} {k : Nat}
    {element : TypeRef} {items : Array Value} (sound : s.PinsSound m.module)
    (pins : s.pins = before ++ q :: after) (source : q.source = .elements r k)
    (isArray : s.objects[r.index]? = some (.array element items))
    (call : NativeCall) (address : UInt64) (args : List NativeValue) :
    (∀ p ∈ before ++ after, p.block ≠ q.block) ∧
    ∃ heap width was, heap.next = s.native.heap.next ∧
      (∀ p ∈ s.pins, ∀ bytes, p.source.Images m.module s.objects bytes →
        heap.Stores p.block bytes) ∧
      m.module.size element = .ok width ∧ q.source.Images m.module s.objects was ∧
      (let ended := call address args (s.withHeap heap).native
      heap.Keeps ended.2.heap → ended.2.heap.next ≤ 2 ^ 64 →
        ∃ objects items' data,
          m.callPinned call address args s =
            (.ok ended.1, { s with native := ended.2, objects }) ∧
          objects[r.index]? = some (.array element items') ∧ items'.size = items.size ∧
          ended.2.heap.Stores q.block data ∧
          ∀ i v, k ≤ i → items[i]? = some v → (∀ p ∈ after, ¬p.Covers r i) →
            m.module.encode element v = .ok (was.chunk width (i - k)) ∧
            ∃ v', items'[i]? = some v' ∧
              m.module.decode element (data.chunk width (i - k)) = .ok v' ∧
              (data.chunk width (i - k) = was.chunk width (i - k) →
                (∃ bytes, m.module.decode element bytes = .ok v) →
                m.module.represent element ≠ .primitive .f32 → v' = v)) := by
  have mem : q ∈ s.pins := by simp [pins]
  obtain ⟨was, -, images, -⟩ := sound.held q mem
  obtain ⟨heap, -, next, fresh, takes⟩ := callPinned_takes_back sound call address args
  have copied := images
  rw [source] at images
  obtain ⟨width, size, total⟩ := images.length_elements isArray
  refine ⟨block_ne_of_pins sound pins, heap, width, was, next, fresh, size, copied, fun keeps fits => ?_⟩
  obtain ⟨objects, called, back⟩ := takes keeps fits
  obtain ⟨items', isArray', taken⟩ := back.array r element items isArray
  obtain ⟨data, holds, length⟩ := keeps _ _ (fresh q mem was copied)
  refine ⟨objects, items', data, called, isArray', taken.size, holds, ?_⟩
  intro i v le found last
  have encodes := images.encode_chunk isArray size le found
  have inside : i < items.size := (Array.getElem?_eq_some_iff.mp found).1
  obtain ⟨width', data', v', size', read, decodes, at_⟩ :=
    taken.read before q after k i pins source le inside last
  cases size.symm.trans size'
  have whole := holds.read?_start fits
  rw [length, total, read] at whole
  cases whole
  rw [← Module.decode_take size (Nat.le_refl width)] at decodes
  refine ⟨encodes, v', at_, decodes, fun unwritten ⟨bytes, valid⟩ exact => ?_⟩
  have back := Module.decode_of_encode_of_decode valid size exact encodes
  rw [← unwritten] at back
  cases decodes.symm.trans back
  rfl

/-- A session with an array of two numbers. -/
def twoNumbers : MachineState := ⟨.start, [], #[.array .i32 #[.i32 1, .i32 2]], []⟩

/-- The array is pinned as a whole, and then from its second item on. -/
def pinnedTwice : MachineState :=
  (twoNumbers.withPin (.elements ⟨0⟩ 0) [1, 0, 0, 0, 2, 0, 0, 0]).withPin (.elements ⟨0⟩ 1)
    [2, 0, 0, 0]

/-- A function that puts seven into the second item of the array at an address. -/
def putSeven : NativeCall := fun address _ => do
  Native.write address [1, 0, 0, 0, 7, 0, 0, 0]
  return .void

theorem images_numbers (module : Module) {objects : Array Object}
    (isArray : objects[0]? = some (.array .i32 #[.i32 1, .i32 2])) :
    (PinSource.elements ⟨0⟩ 0).Images module objects [1, 0, 0, 0, 2, 0, 0, 0] ∧
      (PinSource.elements ⟨0⟩ 1).Images module objects [2, 0, 0, 0] := by
  let items : Array Value := #[.i32 1, .i32 2]
  let Encodes (v : Value) (piece : Bytes) : Prop := module.encode .i32 v = .ok piece
  have lays : module.LaysOut .i32 4 := ⟨rfl, rfl⟩
  have one : Encodes (.i32 1) [1, 0, 0, 0] := rfl
  have two : List.Forall₂ Encodes [.i32 2] [[2, 0, 0, 0]] := .cons rfl .nil
  have first : 0 < items.size := by decide
  have second : 1 < items.size := by decide
  exact ⟨.elements isArray first lays (.cons one two), .elements isArray second lays two⟩

theorem pinsSound_pinnedTwice (module : Module) : pinnedTwice.PinsSound module := by
  have none : twoNumbers.PinsSound module := ⟨nofun, .nil, .nil, by decide⟩
  have first := none.withPin nofun (images_numbers module rfl).1 (by decide)
  exact first.withPin (by decide) (images_numbers module rfl).2 (by decide)

/-- Seven was put into the first copy only, and the second item is still two. -/
theorem callPinned_last_pin_twice :
    let m : Machine := ⟨Module.empty "numbers" Uuid.zero, .empty .linux⟩
    pinnedTwice.PinsSound m.module ∧
    ∃ native objects items', m.callPinned putSeven 0x100000 [] pinnedTwice =
        (.ok (.ok .void), { pinnedTwice with native, objects }) ∧
      objects[0]? = some (.array .i32 items') ∧ items'[1]? = some (.i32 2) := by
  intro m
  have sound := pinsSound_pinnedTwice m.module
  have pins : pinnedTwice.pins =
      [⟨0x100000, .elements ⟨0⟩ 0⟩] ++ ⟨0x100050, .elements ⟨0⟩ 1⟩ :: [] := rfl
  obtain ⟨apart, heap, width, was, next, fresh, size, images, takes⟩ :=
    callPinned_last_pin sound pins rfl rfl putSeven 0x100000 []
  have first := fresh ⟨0x100000, .elements ⟨0⟩ 0⟩ (by decide) _ (images_numbers m.module rfl).1
  have second := fresh ⟨0x100050, .elements ⟨0⟩ 1⟩ (by decide) _ images
  have length : ([1, 0, 0, 0, 7, 0, 0, 0] : Bytes).length =
      ([1, 0, 0, 0, 2, 0, 0, 0] : Bytes).length := rfl
  obtain ⟨heap', written, next', -, others⟩ := first.write? (next ▸ by decide) length
  have ended : putSeven 0x100000 [] (pinnedTwice.withHeap heap).native =
      (.ok .void, { (pinnedTwice.withHeap heap).native with heap := heap' }) := by
    rw [putSeven, Native.bind_apply, Native.write_apply written]
    rfl
  rw [ended] at takes
  obtain ⟨objects, items', data, called, isArray, -, holds, each⟩ :=
    takes (Heap.keeps_write written) (next'.trans next ▸ by decide)
  obtain ⟨-, v', at_, -, unwritten⟩ := each 1 (.i32 2) (by decide) rfl nofun
  cases holds.unique (others _ _ (by decide) second)
  obtain rfl := unwritten rfl ⟨[2, 0, 0, 0], rfl⟩ (by decide)
  exact ⟨sound, _, objects, items', called, isArray, at_⟩

end Machine

end LateBind
