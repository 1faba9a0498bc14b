import LateBind.Native.Heap
import Mathlib.Algebra.Group.Nat.Defs

/-! # What native memory holds

The latest block is found whatever came before it. An older block is found as long as all later ones
lie above it, which they do until addresses run out. -/

namespace LateBind

namespace Block

@[simp]
theorem length_bytes (b : Block) : b.bytes.length = b.size := length_read b 0 b.size

theorem bytes_write (b : Block) {data : Bytes} (inside : data.length ≤ b.size) :
    (b.write 0 data).bytes = data ++ b.bytes.drop data.length := by
  apply List.ext_getElem?
  intro i
  have size : (b.write 0 data).size = b.size := rfl
  rw [bytes, read, size, List.getElem?_map, List.getElem?_append, bytes, read, List.getElem?_drop,
    List.getElem?_map]
  by_cases low : i < data.length
  · rw [if_pos low, List.getElem?_range' (by omega), Option.map_some, Nat.zero_add, Nat.one_mul,
      byte_write, if_pos (by omega), Nat.sub_zero, List.getElem?_eq_getElem low]
    rfl
  · rw [if_neg low, Nat.add_sub_cancel' (by omega)]
    by_cases high : i < b.size
    · rw [List.getElem?_range' high, Option.map_some, Option.map_some, Nat.zero_add, Nat.one_mul,
        byte_write, if_neg (by omega)]
    · rw [List.getElem?_eq_none (by simpa using high)]
      rfl

@[simp]
theorem bytes_zeros (start : UInt64) (size : Nat) (kind : BlockKind) :
    (zeros start size kind).bytes = List.replicate size 0 := by
  apply List.ext_getElem
  · simp [zeros]
  · intro i _ _
    simp [bytes, read, byte, zeros]

@[simp]
theorem bytes_ofBytes (start : UInt64) (data : Bytes) (kind : BlockKind) :
    (ofBytes start data kind).bytes = data := by
  rw [ofBytes, bytes_write _ (show data.length ≤ (zeros start data.length kind).size from Nat.le_refl _),
    bytes_zeros]
  simp

end Block

namespace Heap

variable {h : Heap} {start other : UInt64} {bytes data : Bytes}

/-! ## The latest block -/

/-- The latest block starts at an address and holds the given bytes. -/
def Latest (h : Heap) (start : UInt64) (bytes : Bytes) : Prop :=
  ∃ b earlier, h.blocks = b :: earlier ∧ b.start = start ∧ b.bytes = bytes

theorem latest_allocBytes (h : Heap) (bytes : Bytes) (kind : BlockKind) :
    (h.allocBytes bytes kind).2.Latest h.nextAddress bytes :=
  ⟨_, h.blocks, rfl, rfl, Block.bytes_ofBytes _ _ _⟩

theorem latest_alloc (h : Heap) (size : Nat) (kind : BlockKind) :
    (h.alloc size kind).2.Latest h.nextAddress (List.replicate size 0) :=
  ⟨_, h.blocks, rfl, rfl, Block.bytes_zeros _ _ _⟩

namespace Latest

theorem locate? (latest : h.Latest start bytes) {length : Nat} (inside : length ≤ bytes.length) :
    ∃ b earlier, h.blocks = b :: earlier ∧ b.start = start ∧ b.bytes = bytes ∧
      h.locate? start length = some (b, 0) := by
  obtain ⟨b, earlier, blocks, rfl, rfl⟩ := latest
  rw [Block.length_bytes] at inside
  exact ⟨b, earlier, blocks, rfl, rfl, by simp [Heap.locate?, blocks, inside]⟩

theorem readToEnd? (latest : h.Latest start bytes) : h.readToEnd? start = some bytes := by
  obtain ⟨b, earlier, -, -, rfl, located⟩ := latest.locate? (Nat.zero_le _)
  rw [Heap.readToEnd?, located]
  rfl

theorem write? (latest : h.Latest start bytes) (inside : data.length ≤ bytes.length) :
    ∃ h', h.write? start data = some h' ∧ h'.Latest start (data ++ bytes.drop data.length) := by
  obtain ⟨b, earlier, blocks, rfl, rfl, located⟩ := latest.locate? inside
  rw [Block.length_bytes] at inside
  let replace (c : Block) : Block := if c.start = b.start then c.write 0 data else c
  refine ⟨{ h with blocks := h.blocks.map replace }, by rw [Heap.write?, located]; rfl,
    b.write 0 data, earlier.map replace, ?_, rfl, b.bytes_write inside⟩
  simp only [blocks, List.map_cons, replace, if_true]

theorem free (latest : h.Latest start bytes) : ∃ h', h.free start = .ok h' := by
  obtain ⟨b, earlier, blocks, rfl, -⟩ := latest
  apply Exists.intro
  simp only [Heap.free, blockAt?, blocks, List.find?_cons, beq_self_eq_true]
  rfl

end Latest

/-! ## Older blocks -/

/-- A block at an address holds the given bytes, and all later ones lie above it. -/
def Stores (h : Heap) (start : UInt64) (bytes : Bytes) : Prop :=
  ∃ later b earlier, h.blocks = later ++ b :: earlier ∧ b.start = start ∧ b.bytes = bytes ∧
    (∀ c ∈ later, start.toNat + bytes.length < c.start.toNat) ∧
    start.toNat + bytes.length < h.next

theorem toNat_nextAddress (fits : h.next < 2 ^ 64) : h.nextAddress.toNat = h.next := by
  rw [nextAddress, UInt64.toNat_ofNat', Nat.mod_eq_of_lt fits]

theorem next_lt_add (h : Heap) (block : Block) : h.next + block.size < (h.add block).2.next := by
  simp only [add, room, gap]
  omega

theorem stores_add (fits : h.next < 2 ^ 64) {block : Block} (fresh : block.start = h.nextAddress) :
    (h.add block).2.Stores h.nextAddress block.bytes := by
  refine ⟨[], block, h.blocks, rfl, fresh, rfl, by simp, ?_⟩
  rw [toNat_nextAddress fits, Block.length_bytes]
  exact h.next_lt_add block

namespace Stores

theorem add (stores : h.Stores start bytes) (fits : h.next < 2 ^ 64) {block : Block}
    (fresh : block.start = h.nextAddress) : (h.add block).2.Stores start bytes := by
  obtain ⟨later, b, earlier, blocks, rfl, rfl, above, below⟩ := stores
  refine ⟨block :: later, b, earlier, ?_, rfl, rfl, ?_, ?_⟩
  · rw [Heap.add, blocks]
    rfl
  · intro c hc
    rcases List.mem_cons.mp hc with rfl | hc
    · rw [fresh, toNat_nextAddress fits]
      exact below
    · exact above c hc
  · have := h.next_lt_add block
    omega

theorem locate? (stores : h.Stores start bytes) (fits : h.next ≤ 2 ^ 64) {offset length : Nat}
    (inside : offset + length ≤ bytes.length) :
    ∃ b, h.locate? (start + UInt64.ofNat offset) length = some (b, offset) ∧ b.start = start ∧
      b.bytes = bytes := by
  obtain ⟨later, b, earlier, blocks, rfl, rfl, above, below⟩ := stores
  have address : (b.start + UInt64.ofNat offset).toNat = b.start.toNat + offset := by
    rw [UInt64.toNat_add, UInt64.toNat_ofNat', Nat.mod_eq_of_lt (a := offset) (by omega),
      Nat.mod_eq_of_lt (by omega)]
  have skipped : later.find? (·.start ≤ b.start + UInt64.ofNat offset) = none := by
    rw [List.find?_eq_none]
    intro c hc
    have := above c hc
    simp only [decide_eq_true_eq, UInt64.le_iff_toNat_le, address]
    omega
  have found : h.blocks.find? (·.start ≤ b.start + UInt64.ofNat offset) = some b := by
    rw [blocks, List.find?_append, skipped, List.find?_cons_of_pos]
    · rfl
    · rw [decide_eq_true_eq, UInt64.le_iff_toNat_le, address]
      omega
  have place : (b.start + UInt64.ofNat offset - b.start).toNat = offset := by
    rw [UInt64.add_comm, UInt64.add_sub_cancel, UInt64.toNat_ofNat', Nat.mod_eq_of_lt (by omega)]
  rw [Block.length_bytes] at inside
  refine ⟨b, ?_, rfl, rfl⟩
  rw [Heap.locate?, found]
  simp only [place, inside, if_true]

/-- What a range of the block holds. -/
theorem read? (stores : h.Stores start bytes) (fits : h.next ≤ 2 ^ 64) {offset length : Nat}
    (inside : offset + length ≤ bytes.length) :
    h.read? (start + UInt64.ofNat offset) length = some ((bytes.drop offset).take length) := by
  obtain ⟨b, located, -, rfl⟩ := stores.locate? fits inside
  rw [Block.length_bytes] at inside
  rw [Heap.read?, located, Option.map_some]
  exact congrArg some (Block.read_eq_bytes b inside)

/-- All that the block holds. -/
theorem read?_start (stores : h.Stores start bytes) (fits : h.next ≤ 2 ^ 64) :
    h.read? start bytes.length = some bytes := by
  have read : h.read? (start + UInt64.ofNat 0) bytes.length =
      some ((bytes.drop 0).take bytes.length) := stores.read? fits (by omega)
  simpa using read

theorem blockAt? (stores : h.Stores start bytes) :
    ∃ b, h.blockAt? start = some b ∧ b.bytes = bytes := by
  obtain ⟨later, b, earlier, blocks, rfl, rfl, above, -⟩ := stores
  refine ⟨b, ?_, rfl⟩
  have skipped : later.find? (·.start == b.start) = none := by
    rw [List.find?_eq_none]
    intro c hc same
    have := above c hc
    rw [beq_iff_eq.mp same] at this
    omega
  rw [Heap.blockAt?, blocks, List.find?_append, skipped, List.find?_cons_of_pos (by simp)]
  rfl

theorem unique {bytes' : Bytes} (stores : h.Stores start bytes) (stores' : h.Stores start bytes') :
    bytes = bytes' := by
  obtain ⟨b, found, rfl⟩ := stores.blockAt?
  obtain ⟨b', found', rfl⟩ := stores'.blockAt?
  rw [found] at found'
  cases found'
  rfl

/-- A block is written as a whole, and no other block changes. -/
theorem write? (stores : h.Stores start bytes) (fits : h.next ≤ 2 ^ 64)
    (length : data.length = bytes.length) :
    ∃ h', h.write? start data = some h' ∧ h'.next = h.next ∧ h'.Stores start data ∧
      ∀ other bytes', other ≠ start → h.Stores other bytes' → h'.Stores other bytes' := by
  obtain ⟨located, found, at_, -⟩ : ∃ b, h.locate? (start + UInt64.ofNat 0) data.length =
      some (b, 0) ∧ b.start = start ∧ b.bytes = bytes := stores.locate? fits (by omega)
  rw [show start + UInt64.ofNat 0 = start from UInt64.add_zero start] at found
  let replace (b : Block) : Block := if b.start = start then b.write 0 data else b
  have start_replace (b : Block) : (replace b).start = b.start := by
    unfold replace
    split <;> rfl
  have above {later : List Block} {limit : Nat} (lower : ∀ c ∈ later, limit < c.start.toNat) :
      ∀ c ∈ later.map replace, limit < c.start.toNat := by
    intro c hc
    obtain ⟨c, hc', rfl⟩ := List.mem_map.mp hc
    rw [start_replace]
    exact lower c hc'
  refine ⟨{ h with blocks := h.blocks.map replace }, ?_, rfl, ?_, ?_⟩
  · rw [Heap.write?, found]
    simp only [Option.map_some, at_]
    rfl
  · obtain ⟨later, b, earlier, blocks, rfl, rfl, lower, below⟩ := stores
    rw [Block.length_bytes] at length
    refine ⟨later.map replace, b.write 0 data, earlier.map replace, ?_, rfl, ?_, ?_, ?_⟩
    · rw [blocks, List.map_append, List.map_cons]
      simp only [replace, if_true]
    · rw [b.bytes_write (by omega), List.drop_of_length_le (by simp [length]), List.append_nil]
    · rw [length, ← Block.length_bytes]
      exact above lower
    · rw [length, ← Block.length_bytes]
      exact below
  · rintro other bytes' differ ⟨later, b, earlier, blocks, rfl, rfl, lower, below⟩
    refine ⟨later.map replace, b, earlier.map replace, ?_, rfl, rfl, above lower, below⟩
    rw [blocks, List.map_append, List.map_cons]
    simp only [replace, differ, if_false]

end Stores

end Heap

end LateBind
