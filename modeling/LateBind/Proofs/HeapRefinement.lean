import LateBind.Proofs.AbstractMemory
import LateBind.Proofs.Memory
import LateBind.Proofs.Texts

/-! # Native memory refines memory without a layout

A block is found from the nearest start at or below an address. That it is the right one rests on the
gaps between blocks, over all that was ever allocated and freed. -/

namespace LateBind

/-! ## Strings in bytes -/

theorem Heap.untilZero?_eq_some_iff {α : Type} [BEq α] [LawfulBEq α] {zero : α} {items s : List α} :
    untilZero? zero items = some s ↔ zero ∉ s ∧ s ++ [zero] <+: items := by
  induction items generalizing s with
  | nil => simp [untilZero?]
  | cons x rest ih =>
    by_cases first : x = zero
    · subst first
      cases s <;> simp [untilZero?]
      grind
    · have skip : untilZero? zero (x :: rest) = (untilZero? zero rest).map (x :: ·) := by
        have differ : zero ≠ x := Ne.symm first
        by_cases found : zero ∈ rest <;> simp [untilZero?, found, first, differ]
      rw [skip, Option.map_eq_some_iff]
      cases s with
      | nil => simp [Ne.symm first]
      | cons y s =>
        simp only [List.cons.injEq, List.cons_append, List.cons_prefix_cons, List.mem_cons, not_or]
        constructor
        · rintro ⟨s', found, rfl, rfl⟩
          exact ⟨⟨Ne.symm first, (ih.mp found).1⟩, rfl, (ih.mp found).2⟩
        · rintro ⟨⟨-, free⟩, rfl, ends⟩
          exact ⟨s, ih.mpr ⟨free, ends⟩, rfl, rfl⟩

theorem Bytes.ofUnits_prefix_iff {u : Units} {bytes : Bytes} :
    ofUnits u <+: bytes ↔ u <+: bytes.toUnits := by
  induction u generalizing bytes with
  | nil => simp [ofUnits]
  | cons x u ih =>
    have cut : ofUnits (x :: u) = UInt8.ofNat x.toNat :: UInt8.ofNat (x.toNat / 256) :: ofUnits u := rfl
    have unit (low high : UInt8) : (UInt8.ofNat x.toNat = low ∧ UInt8.ofNat (x.toNat / 256) = high) ↔
        x = UInt16.ofNat (low.toNat + 256 * high.toNat) := by
      have := x.toNat_lt
      have := low.toNat_lt
      have := high.toNat_lt
      simp only [← UInt8.toNat_inj, ← UInt16.toNat_inj, UInt8.toNat_ofNat', UInt16.toNat_ofNat']
      omega
    rcases bytes with _ | ⟨low, _ | ⟨high, rest⟩⟩
    · simp [cut, toUnits]
    · simp [cut, toUnits]
    · rw [cut, toUnits, List.cons_prefix_cons, List.cons_prefix_cons, List.cons_prefix_cons, ih,
        ← and_assoc, unit]

namespace Memory

variable {m : Memory}

theorem prefix_bytes_iff {address length : Nat} {s : Bytes} :
    s <+: m.bytes address length ↔ s.length ≤ length ∧ m.bytes address s.length = s := by
  have begins {n : Nat} (fits : n ≤ length) :
      (m.bytes address length).take n = m.bytes address n := by
    obtain ⟨rest, rfl⟩ := Nat.exists_eq_add_of_le fits
    rw [bytes, ← List.range'_append_1, List.map_append, List.take_left' (by simp), bytes]
  constructor
  · intro starts
    have fits : s.length ≤ length := by simpa [bytes] using starts.length_le
    exact ⟨fits, by rw [← begins fits, ← List.prefix_iff_eq_take.mp starts]⟩
  · rintro ⟨fits, same⟩
    rw [← same, ← begins fits]
    exact List.take_prefix _ _

/-- Of a stretch that an address is in, the ranges from that address on lie in no other one. -/
theorem Separated.holds_iff (separated : m.Separated) {e : Stretch} (he : e ∈ m.live) {address : Nat}
    (inside : e.Contains address 0) {length : Nat} :
    m.Holds address length ↔ address + length ≤ e.finish := by
  constructor
  · rintro ⟨f, hf, holds⟩
    by_cases same : e = f
    · exact same ▸ holds.2
    · exact absurd holds ((separated.apart (List.mem_append_left _ he) (List.mem_append_left _ hf)
        same).not_contains inside length)
  · exact fun fits => ⟨e, he, inside.1, fits⟩

theorem Separated.hasString_iff (separated : m.Separated) {e : Stretch} (he : e ∈ m.live)
    {address : Nat} (inside : e.Contains address 0) {s : Bytes} :
    m.HasString address s ↔
      Heap.untilZero? 0 (m.bytes address (e.finish - address)) = some s := by
  have start := inside.2
  rw [Heap.untilZero?_eq_some_iff, prefix_bytes_iff, HasString, separated.holds_iff he inside,
    List.length_append, List.length_singleton,
    show address + (s.length + 1) ≤ e.finish ↔ s.length + 1 ≤ e.finish - address by omega]

theorem Separated.hasUnits_iff (separated : m.Separated) {e : Stretch} (he : e ∈ m.live)
    {address : Nat} (inside : e.Contains address 0) {u : Units} :
    m.HasUnits address u ↔
      Heap.untilZero? 0 (m.bytes address (e.finish - address)).toUnits = some u := by
  have start := inside.2
  rw [Heap.untilZero?_eq_some_iff, ← Bytes.ofUnits_prefix_iff, prefix_bytes_iff, HasUnits,
    separated.holds_iff he inside, Bytes.length_ofUnits, List.length_append, List.length_singleton,
    show address + 2 * (u.length + 1) ≤ e.finish ↔ 2 * (u.length + 1) ≤ e.finish - address by omega]

end Memory

def Block.stretch (b : Block) : Stretch := ⟨b.start.toNat, b.size, b.kind⟩

namespace Heap

/-- The answer to an access, which fails outside live blocks. -/
def answerAccess {α : Type} (address : UInt64) (answer : α → Answer) : Option α → Answer
  | some a => answer a
  | none => .failed (.invalidAddress address)

/-- The answer to a call, and the heap after it. -/
def perform (h : Heap) : Call → Answer × Heap
  | .alloc size kind =>
    let (address, h') := h.alloc size kind
    (.address address, h')
  | .allocBytes bytes kind =>
    let (address, h') := h.allocBytes bytes kind
    (.address address, h')
  | .free a =>
    match h.free a with
    | .ok h' => (.done, h')
    | .error .freedBefore => (.failed (.doubleFree a), h)
    | .error .noBlock => (.failed (.invalidFree a), h)
  | .read a length => (answerAccess a .bytes (h.read? a length), h)
  | .write a bytes =>
    (answerAccess a (fun _ => .done) (h.write? a bytes), (h.write? a bytes).getD h)
  | .readToEnd a => (answerAccess a .bytes (h.readToEnd? a), h)
  | .readByteString a => (answerAccess a .bytes (h.readByteString? a), h)
  | .readUnits a => (answerAccess a .units (h.readUnits? a), h)

/-- The answers to calls in order, and the heap after the last one. -/
def run (h : Heap) : List Call → List Answer × Heap
  | [] => ([], h)
  | c :: rest =>
    let (answer, h') := h.perform c
    let (answers, last) := h'.run rest
    (answer :: answers, last)

/-- No call makes a block whose end has no address any more. -/
def Addressable (h : Heap) : List Call → Prop
  | [] => True
  | c :: rest => (∀ size ∈ c.size?, h.next + size < 2 ^ 64) ∧ (h.perform c).2.Addressable rest

instance Addressable.decidable : (h : Heap) → (calls : List Call) → Decidable (h.Addressable calls)
  | _, [] => .isTrue trivial
  | h, c :: rest =>
    have := decidable (h.perform c).2 rest
    inferInstanceAs (Decidable (_ ∧ _))

/-- The blocks of a heap are the live stretches of a memory and hold its bytes; later ones lie above. -/
structure Implements (h : Heap) (m : Memory) : Prop where
  live : h.blocks.map Block.stretch = m.live
  freed : h.freed.map UInt64.toNat = m.freed.map Stretch.start
  bytes : ∀ b ∈ h.blocks, ∀ i < b.size, b.byte i = m.byte (b.start.toNat + i)
  falling : m.live.Pairwise fun later earlier => earlier.finish + gap ≤ later.start
  below : ∀ e ∈ m.live ++ m.freed, e.finish + gap ≤ h.next
  counted : h.stats.hglobalFrees + h.stats.liveHGlobal = h.stats.hglobalAllocs

theorem implements_empty : empty.Implements .empty where
  live := rfl
  freed := rfl
  bytes := by simp [empty]
  falling := .nil
  below := by simp [Memory.empty]
  counted := rfl

variable {h h' : Heap} {m : Memory} {a : UInt64} {b : Block} {n offset : Nat}

/-! ## Finding blocks -/

theorem of_locate? (located : h.locate? a n = some (b, offset)) :
    b ∈ h.blocks ∧ b.stretch.Contains a.toNat n ∧ offset = a.toNat - b.start.toNat := by
  rw [locate?] at located
  split at located
  · next block found =>
    have below : block.start ≤ a := by simpa using List.find?_some found
    have distance := UInt64.toNat_sub_of_le a block.start below
    have order := UInt64.le_iff_toNat_le.mp below
    simp only [distance] at located
    split at located
    · next fits =>
      cases located
      refine ⟨List.mem_of_find?_eq_some found, ⟨order, ?_⟩, rfl⟩
      simp only [Block.stretch, Stretch.finish]
      omega
    · cases located
  · cases located

namespace Implements

theorem mem_live (implements : h.Implements m) (hb : b ∈ h.blocks) : b.stretch ∈ m.live :=
  implements.live ▸ List.mem_map_of_mem hb

theorem exists_block (implements : h.Implements m) {e : Stretch} (he : e ∈ m.live) :
    ∃ b ∈ h.blocks, b.stretch = e :=
  List.mem_map.mp (implements.live ▸ he)

/-- Later blocks lie above a block and earlier ones below it. -/
theorem around (implements : h.Implements m) (hb : b ∈ h.blocks) :
    ∃ later earlier, h.blocks = later ++ b :: earlier ∧
      (∀ c ∈ later, b.stretch.finish + gap ≤ c.stretch.start) ∧
      ∀ c ∈ earlier, c.stretch.finish + gap ≤ b.stretch.start := by
  have falling := implements.falling
  rw [← implements.live, List.pairwise_map] at falling
  obtain ⟨later, earlier, blocks⟩ := List.append_of_mem hb
  rw [blocks, List.pairwise_append, List.pairwise_cons] at falling
  exact ⟨later, earlier, blocks, fun c hc => falling.2.2 c hc b List.mem_cons_self, falling.2.1.1⟩

/-- Blocks above the one that has a range start behind all of it. -/
theorem locate?_eq_some (implements : h.Implements m) (hb : b ∈ h.blocks)
    (inside : b.stretch.Contains a.toNat n) : h.locate? a n = some (b, a.toNat - b.start.toNat) := by
  obtain ⟨later, earlier, blocks, above, -⟩ := implements.around hb
  simp only [Stretch.Contains, Stretch.finish, Block.stretch, gap] at inside above
  have skipped : later.find? (·.start ≤ a) = none := by
    rw [List.find?_eq_none]
    intro c hc
    have := above c hc
    simp only [decide_eq_true_eq, UInt64.le_iff_toNat_le]
    omega
  have order : b.start ≤ a := UInt64.le_iff_toNat_le.mpr inside.1
  have found : h.blocks.find? (·.start ≤ a) = some b := by
    rw [blocks, List.find?_append, skipped, List.find?_cons_of_pos (by simpa using order)]
    rfl
  have distance := UInt64.toNat_sub_of_le a b.start order
  simp only [locate?, found, distance]
  rw [if_pos (by omega)]

/-- A range is found exactly where it lies in a live stretch. -/
theorem locate?_cases (implements : h.Implements m) (a : UInt64) (n : Nat) :
    (∃ b ∈ h.blocks, b.stretch.Contains a.toNat n ∧
      h.locate? a n = some (b, a.toNat - b.start.toNat)) ∨
      (¬ m.Holds a.toNat n ∧ h.locate? a n = none) := by
  by_cases holds : m.Holds a.toNat n
  · obtain ⟨e, he, inside⟩ := holds
    obtain ⟨b, hb, rfl⟩ := implements.exists_block he
    exact .inl ⟨b, hb, inside, implements.locate?_eq_some hb inside⟩
  · refine .inr ⟨holds, ?_⟩
    cases located : h.locate? a n with
    | none => rfl
    | some found =>
      obtain ⟨hb, inside, -⟩ := of_locate? located
      exact absurd ⟨_, implements.mem_live hb, inside⟩ holds

theorem read_eq (implements : h.Implements m) (hb : b ∈ h.blocks)
    (inside : b.stretch.Contains a.toNat n) :
    b.read (a.toNat - b.start.toNat) n = m.bytes a.toNat n := by
  simp only [Stretch.Contains, Stretch.finish, Block.stretch] at inside
  apply List.ext_getElem
  · simp [Memory.bytes]
  · intro i low _
    rw [Block.length_read] at low
    simp only [Block.read, Memory.bytes, List.getElem_map, List.getElem_range', Nat.one_mul]
    rw [implements.bytes b hb _ (by omega)]
    congr 1
    omega

/-! ## Calls one by one -/

/-- A new block lies behind the gap of every other one. -/
theorem add (implements : h.Implements m) (block : Block) (start : block.start = h.nextAddress)
    (within : h.next + block.size < 2 ^ 64) :
    m.Fresh block.stretch ∧ (h.add block).2.Implements (m.take block.stretch block.bytes) := by
  have first : block.stretch.start = h.next :=
    (congrArg UInt64.toNat start).trans (toNat_nextAddress (by omega))
  have fresh : m.Fresh block.stretch := fun e he => .inr (first ▸ implements.below e he)
  refine ⟨fresh, congrArg (block.stretch :: ·) implements.live, implements.freed, ?bytes, ?falling,
    ?below, ?counted⟩
  case bytes =>
    intro b hb i low
    rw [Memory.take, Memory.byte_put]
    rcases List.mem_cons.mp hb with rfl | hb
    · have held : b.bytes[i]? = some (b.byte i) := by
        simp [Block.bytes, Block.read, List.getElem?_range' low]
      rw [Block.length_bytes, if_pos (by simp only [Block.stretch]; omega),
        show b.start.toNat + i - b.stretch.start = i from Nat.add_sub_cancel_left .., held]
      rfl
    · have apart := fresh _ (List.mem_append_left _ (implements.mem_live hb))
      rw [implements.bytes b hb i low, if_neg]
      simp only [Stretch.Apart, Stretch.finish, Block.stretch, gap, Block.length_bytes] at apart ⊢
      omega
  case falling =>
    refine List.pairwise_cons.mpr ⟨fun e he => ?_, implements.falling⟩
    exact first ▸ implements.below e (List.mem_append_left _ he)
  case below =>
    have larger : h.next + block.size + gap ≤ (h.add block).2.next := by
      simp only [Heap.add, room]
      omega
    intro e he
    rcases List.mem_cons.mp he with rfl | he
    · rw [Stretch.finish, first]
      exact larger
    · have := implements.below e he
      omega
  case counted =>
    have counted := implements.counted
    by_cases managed : block.kind = .hglobal <;>
      simp [Heap.add, stats, managed] at counted ⊢
    · omega
    · exact counted

/-- Filtering by the start takes out one block. -/
theorem filter_start (implements : h.Implements m) (hb : b ∈ h.blocks) :
    ∃ later earlier, h.blocks = later ++ b :: earlier ∧ b.stretch ∉ later.map Block.stretch ∧
      h.blocks.filter (·.start != b.start) = later ++ earlier := by
  obtain ⟨later, earlier, blocks, above, below⟩ := implements.around hb
  simp only [Stretch.finish, Block.stretch, gap] at above below
  have keep {cs : List Block} (other : ∀ c ∈ cs, c.start.toNat ≠ b.start.toNat) :
      cs.filter (·.start != b.start) = cs := by
    rw [List.filter_eq_self]
    intro c hc
    simpa using fun same => other c hc (congrArg UInt64.toNat same)
  have later_ne : ∀ c ∈ later, c.start.toNat ≠ b.start.toNat := by
    intro c hc
    have := above c hc
    omega
  refine ⟨later, earlier, blocks, ?_, ?_⟩
  · rintro twin
    obtain ⟨c, hc, same⟩ := List.mem_map.mp twin
    exact later_ne c hc (congrArg Stretch.start same)
  · rw [blocks, List.filter_append, List.filter_cons_of_neg (by simp), keep later_ne, keep]
    intro c hc
    have := below c hc
    omega

theorem free_ok (implements : h.Implements m) (freed : h.free a = .ok h') :
    ∃ e ∈ m.live, e.start = a.toNat ∧ h'.Implements (m.release e) := by
  unfold Heap.free at freed
  split at freed
  · next block found =>
    cases freed
    have hb : block ∈ h.blocks := List.mem_of_find?_eq_some found
    obtain rfl : block.start = a := by simpa using List.find?_some found
    obtain ⟨later, earlier, blocks, unique, rest⟩ := implements.filter_start hb
    refine ⟨block.stretch, implements.mem_live hb, rfl, ?live, ?freed, ?bytes, ?falling, ?below,
      ?counted⟩
    case live =>
      rw [rest, Memory.release, ← implements.live, blocks, List.map_append, List.map_append,
        List.map_cons, List.erase_append_right _ unique, List.erase_cons_head]
    case freed => exact congrArg (block.start.toNat :: ·) implements.freed
    case bytes => exact fun b hb => implements.bytes b (List.mem_filter.mp hb).1
    case falling => exact implements.falling.sublist List.erase_sublist
    case below =>
      have moved := Memory.perm_release (implements.mem_live hb)
      exact fun e he => implements.below e (moved.mem_iff.mp he)
    case counted =>
      have counted := implements.counted
      rw [stats, blocks] at counted
      rw [stats, rest]
      by_cases managed : block.kind = .hglobal <;> simp [managed] at counted ⊢ <;> omega
  · cases freed

theorem free_error (implements : h.Implements m) {fault : FreeFault}
    (refused : h.free a = .error fault) : (∀ e ∈ m.live, e.start ≠ a.toNat) ∧
      (fault = .freedBefore ∧ (∃ e ∈ m.freed, e.start = a.toNat) ∨
        fault = .noBlock ∧ ∀ e ∈ m.freed, e.start ≠ a.toNat) := by
  unfold Heap.free at refused
  split at refused
  · cases refused
  · next missing =>
    cases refused
    have known : a ∈ h.freed ↔ ∃ e ∈ m.freed, e.start = a.toNat := by
      rw [← List.mem_map, ← implements.freed, List.mem_map]
      exact ⟨fun before => ⟨a, before, rfl⟩, fun ⟨_, before, same⟩ => UInt64.toNat_inj.mp same ▸ before⟩
    refine ⟨fun e he same => ?_, ?_⟩
    · obtain ⟨b, hb, rfl⟩ := implements.exists_block he
      have := List.find?_eq_none.mp missing b hb
      simp only [beq_iff_eq, ← UInt64.toNat_inj] at this
      exact this same
    · by_cases before : a ∈ h.freed
      · exact .inl ⟨if_pos before, known.mp before⟩
      · exact .inr ⟨if_neg before, fun e he same => before (known.mpr ⟨e, he, same⟩)⟩

/-- A write changes its block only; the others are apart from its range. -/
theorem write (implements : h.Implements m) (separated : m.Separated) (hb : b ∈ h.blocks)
    {bytes : Bytes} (inside : b.stretch.Contains a.toNat bytes.length) :
    Implements { h with blocks := h.blocks.map fun c =>
      if c.start = b.start then c.write (a.toNat - b.start.toNat) bytes else c }
      (m.put a.toNat bytes) := by
  have stretch (c : Block) : (if c.start = b.start then c.write (a.toNat - b.start.toNat) bytes
      else c).stretch = c.stretch := by
    split <;> rfl
  refine ⟨?live, implements.freed, ?bytes, implements.falling, implements.below, ?counted⟩
  case live =>
    rw [List.map_map]
    exact (List.map_congr_left fun c _ => stretch c).trans implements.live
  case bytes =>
    intro c' hc' i low
    obtain ⟨c, hc, rfl⟩ := List.mem_map.mp hc'
    have low : i < c.size := lt_of_lt_of_eq low (congrArg Stretch.size (stretch c))
    have start := congrArg Stretch.start (stretch c)
    simp only [Block.stretch] at start
    simp only [Stretch.Contains, Stretch.finish, Block.stretch] at inside
    rw [Memory.byte_put, start]
    by_cases same : c.start = b.start
    · have place : i - (a.toNat - b.start.toNat) = b.start.toNat + i - a.toNat := by omega
      have range : (a.toNat - b.start.toNat ≤ i ∧ i < a.toNat - b.start.toNat + bytes.length) ↔
          (a.toNat ≤ b.start.toNat + i ∧ b.start.toNat + i < a.toNat + bytes.length) := by omega
      rw [if_pos same, Block.byte_write, implements.bytes c hc i low, same]
      simp only [place, range]
    · have apart := separated.apart (List.mem_append_left _ (implements.mem_live hc))
        (List.mem_append_left _ (implements.mem_live hb))
        fun eq => same (UInt64.toNat_inj.mp (congrArg Stretch.start eq))
      simp only [Stretch.Apart, Stretch.finish, Block.stretch, gap] at apart
      rw [if_neg same, if_neg (by omega), implements.bytes c hc i low]
  case counted =>
    have counted := implements.counted
    have kind (c : Block) := congrArg Stretch.kind (stretch c)
    simp only [Block.stretch] at kind
    simp only [stats, List.filter_map, List.length_map, Function.comp_def, kind] at counted ⊢
    exact counted

theorem readToEnd_cases (implements : h.Implements m) (a : UInt64) :
    (∃ e ∈ m.live, e.Contains a.toNat 0 ∧
      h.readToEnd? a = some (m.bytes a.toNat (e.finish - a.toNat))) ∨
      (¬ m.Holds a.toNat 0 ∧ h.readToEnd? a = none) := by
  rcases implements.locate?_cases a 0 with ⟨b, hb, inside, located⟩ | ⟨outside, located⟩
  · have rest : b.size - (a.toNat - b.start.toNat) = b.stretch.finish - a.toNat := by
      simp only [Stretch.Contains, Stretch.finish, Block.stretch] at inside ⊢
      omega
    have whole : b.stretch.Contains a.toNat (b.stretch.finish - a.toNat) :=
      ⟨inside.1, Nat.le_of_eq (Nat.add_sub_of_le inside.2)⟩
    refine .inl ⟨b.stretch, implements.mem_live hb, inside, ?_⟩
    rw [readToEnd?, located, ← implements.read_eq hb whole, ← rest]
    rfl
  · exact .inr ⟨outside, by rw [readToEnd?, located, Option.map_none]⟩

/-- Every call is answered as memory without a layout may answer it. -/
theorem perform (implements : h.Implements m) (separated : m.Separated) (c : Call)
    (within : ∀ size ∈ c.size?, h.next + size < 2 ^ 64) :
    ∃ m', m.Does c (h.perform c).1 m' ∧ (h.perform c).2.Implements m' := by
  cases c with
  | alloc size kind =>
    obtain ⟨fresh, after⟩ := implements.add (.zeros h.nextAddress size kind) rfl
      (within size rfl)
    rw [Block.bytes_zeros] at after
    exact ⟨_, .alloc fresh, after⟩
  | allocBytes bytes kind =>
    obtain ⟨fresh, after⟩ := implements.add (.ofBytes h.nextAddress bytes kind) rfl
      (within bytes.length rfl)
    rw [Block.bytes_ofBytes] at after
    exact ⟨_, .allocBytes fresh, after⟩
  | free a =>
    simp only [Heap.perform]
    cases freed : h.free a with
    | ok h' =>
      obtain ⟨e, he, start, after⟩ := implements.free_ok freed
      exact ⟨_, .free he start, after⟩
    | error fault =>
      obtain ⟨none_live, ⟨rfl, e, he, start⟩ | ⟨rfl, none_freed⟩⟩ := implements.free_error freed
      · exact ⟨m, .freeAgain he start, implements⟩
      · exact ⟨m, .freeUnknown (by simpa [or_imp, forall_and] using ⟨none_live, none_freed⟩),
          implements⟩
  | read a n =>
    rcases implements.locate?_cases a n with ⟨b, hb, inside, located⟩ | ⟨outside, located⟩
    · simp only [Heap.perform, read?, located, Option.map_some, answerAccess,
        implements.read_eq hb inside]
      exact ⟨m, .read ⟨_, implements.mem_live hb, inside⟩, implements⟩
    · simp only [Heap.perform, read?, located, Option.map_none, answerAccess]
      exact ⟨m, .readOutside outside, implements⟩
  | write a bytes =>
    rcases implements.locate?_cases a bytes.length with
      ⟨b, hb, inside, located⟩ | ⟨outside, located⟩
    · simp only [Heap.perform, write?, located, Option.map_some, answerAccess]
      exact ⟨_, .write ⟨_, implements.mem_live hb, inside⟩, implements.write separated hb inside⟩
    · simp only [Heap.perform, write?, located, Option.map_none, answerAccess]
      exact ⟨m, .writeOutside outside, implements⟩
  | readToEnd a =>
    rcases implements.readToEnd_cases a with ⟨e, he, inside, read⟩ | ⟨outside, read⟩
    · simp only [Heap.perform, read, answerAccess]
      exact ⟨m, .readToEnd he inside, implements⟩
    · simp only [Heap.perform, read, answerAccess]
      exact ⟨m, .readToEndOutside outside, implements⟩
  | readByteString a =>
    rcases implements.readToEnd_cases a with ⟨e, he, inside, read⟩ | ⟨outside, read⟩
    · have string (s : Bytes) := separated.hasString_iff he inside (s := s)
      simp only [Heap.perform, readByteString?, read, Option.bind_some]
      cases found : untilZero? 0 (m.bytes a.toNat (e.finish - a.toNat)) with
      | some s => exact ⟨m, .readByteString ((string s).mpr found), implements⟩
      | none =>
        rw [found] at string
        refine ⟨m, .noByteString fun s has => ?_, implements⟩
        cases (string s).mp has
    · simp only [Heap.perform, readByteString?, read, Option.bind_none, answerAccess]
      exact ⟨m, .noByteString fun s has => outside (has.2.1.le (Nat.zero_le _)), implements⟩
  | readUnits a =>
    rcases implements.readToEnd_cases a with ⟨e, he, inside, read⟩ | ⟨outside, read⟩
    · have units (u : Units) := separated.hasUnits_iff he inside (u := u)
      simp only [Heap.perform, readUnits?, read, Option.bind_some]
      cases found : untilZero? 0 (m.bytes a.toNat (e.finish - a.toNat)).toUnits with
      | some u => exact ⟨m, .readUnits ((units u).mpr found), implements⟩
      | none =>
        rw [found] at units
        refine ⟨m, .noUnits fun u has => ?_, implements⟩
        cases (units u).mp has
    · simp only [Heap.perform, readUnits?, read, Option.bind_none, answerAccess]
      exact ⟨m, .noUnits fun u has => outside (has.2.1.le (Nat.zero_le _)), implements⟩

end Implements

/-! ## Calls in a row -/

/-- Any calls are answered as memory without a layout may answer them. -/
theorem Implements.run (implements : h.Implements m) (separated : m.Separated) {calls : List Call}
    (within : h.Addressable calls) :
    ∃ m', m.Runs calls (h.run calls).1 m' ∧ (h.run calls).2.Implements m' ∧ m'.Separated := by
  induction calls generalizing h m with
  | nil => exact ⟨m, .nil, implements, separated⟩
  | cons c rest ih =>
    obtain ⟨m₁, does, after⟩ := implements.perform separated c within.1
    obtain ⟨m₂, runs, last⟩ := ih after (does.separated separated) within.2
    exact ⟨m₂, .cons does runs, last⟩

theorem address?_answerAccess {α : Type} (a : UInt64) {answer : α → Answer}
    (none_of : ∀ x, (answer x).address? = none) (result : Option α) :
    (answerAccess a answer result).address? = none := by
  cases result with
  | none => rfl
  | some x => exact none_of x

/-- A call that makes a block answers the next address. -/
theorem address?_perform (h : Heap) (c : Call) :
    (h.perform c).1.address? = c.size?.map fun _ => h.nextAddress := by
  cases c with
  | alloc | allocBytes => rfl
  | free a =>
    simp only [perform]
    split <;> rfl
  | _ => exact address?_answerAccess _ (fun _ => rfl) _

theorem next_write {bytes : Bytes} (written : h.write? a bytes = some h') : h'.next = h.next := by
  obtain ⟨_, -, rfl⟩ := Option.map_eq_some_iff.mp written
  rfl

theorem next_free (freed : h.free a = .ok h') : h'.next = h.next := by
  unfold free at freed
  split at freed <;> cases freed
  rfl

theorem next_perform (h : Heap) (c : Call) :
    (h.perform c).2.next = h.next + c.size?.elim 0 fun size => room size + gap := by
  cases c with
  | alloc | allocBytes => exact Nat.add_assoc ..
  | free a =>
    cases freed : h.free a with
    | ok h' => simp [perform, freed, Call.size?, next_free freed]
    | error fault => cases fault <;> simp [perform, freed, Call.size?]
  | write a bytes =>
    cases written : h.write? a bytes with
    | none => simp [perform, written, Call.size?]
    | some h' => simp [perform, written, Call.size?, next_write written]
  | _ => rfl

/-- Addresses are handed out in rising order. -/
theorem addresses_run {calls : List Call} (within : h.Addressable calls) :
    ((h.run calls).1.filterMap Answer.address?).Pairwise (· < ·) ∧
      ∀ a ∈ (h.run calls).1.filterMap Answer.address?, h.next ≤ a.toNat := by
  induction calls generalizing h with
  | nil => exact ⟨.nil, by simp [run]⟩
  | cons c rest ih =>
    obtain ⟨rising, above⟩ := ih within.2
    have next := h.next_perform c
    simp only [run, List.filterMap_cons, address?_perform]
    cases size : c.size? with
    | none =>
      rw [size, Option.elim_none, Nat.add_zero] at next
      rw [next] at above
      exact ⟨rising, above⟩
    | some size' =>
      have fits := within.1 size' size
      have first : h.nextAddress.toNat = h.next := toNat_nextAddress (by omega)
      rw [size, Option.elim_some, gap] at next
      constructor
      · refine List.pairwise_cons.mpr ⟨fun a ha => UInt64.lt_iff_toNat_lt.mpr ?_, rising⟩
        have := above a ha
        simp only [first]
        omega
      · intro a ha
        rcases List.mem_cons.mp ha with rfl | ha
        · exact Nat.le_of_eq first.symm
        · have := above a ha
          omega

/-- A call that fails changes nothing. -/
theorem perform_of_failed {c : Call} {e : MachineError} (failed : (h.perform c).1 = .failed e) :
    (h.perform c).2 = h := by
  cases c with
  | alloc | allocBytes => cases failed
  | free a =>
    cases freed : h.free a with
    | ok h' => simp [perform, freed] at failed
    | error fault => cases fault <;> simp [perform, freed]
  | write a bytes =>
    cases written : h.write? a bytes with
    | none => simp [perform, written]
    | some h' => simp [perform, written, answerAccess] at failed
  | _ => rfl

/-- Native memory refines memory without a layout: every call of a run is answered as `Memory.Does`
allows, by live blocks that keep their gaps to all blocks ever made. No address is handed out twice,
pointers into freed blocks stay invalid, what fails changes nothing, and each managed block is counted
once made and once freed. -/
theorem run_refines_memory (calls : List Call) (within : Addressable .empty calls) :
    ∃ m : Memory, Memory.empty.Runs calls (empty.run calls).1 m ∧
      (empty.run calls).2.Implements m ∧ m.Separated ∧
      ((empty.run calls).1.filterMap Answer.address?).Nodup ∧
      (∀ e ∈ m.freed, ∀ a : UInt64, e.Contains a.toNat 0 → ∀ c : Call, c.pointer? = some a →
        ((empty.run calls).2.perform c).1 = .failed (.invalidAddress a)) ∧
      (∀ a : UInt64,
        (((empty.run calls).2.perform (.free a)).1 = .done ↔ ∃ e ∈ m.live, e.start = a.toNat) ∧
        (((empty.run calls).2.perform (.free a)).1 = .failed (.doubleFree a) ↔
          ∃ e ∈ m.freed, e.start = a.toNat) ∧
        (((empty.run calls).2.perform (.free a)).1 = .failed (.invalidFree a) ↔
          ∀ e ∈ m.live ++ m.freed, e.start ≠ a.toNat)) ∧
      (∀ (c : Call) (e : MachineError), ((empty.run calls).2.perform c).1 = .failed e →
        ((empty.run calls).2.perform c).2 = (empty.run calls).2) := by
  obtain ⟨m, runs, implements, separated⟩ := implements_empty.run .nil within
  refine ⟨m, runs, implements, separated, (addresses_run within).1.imp fun lt => ?_, ?_, ?_,
    fun c e failed => perform_of_failed failed⟩
  · exact fun same => UInt64.lt_irrefl _ (same ▸ lt)
  · intro e he a inside c through
    have sizeless : c.size? = none := by cases c <;> first | rfl | cases through
    obtain ⟨m', does, -⟩ := implements.perform separated c (by simp [sizeless])
    exact does.stale separated he inside through
  · intro a
    obtain ⟨m', does, -⟩ := implements.perform separated (.free a) (by simp [Call.size?])
    exact does.free_iff separated

/-- A string is read until its block is freed, and an empty block has its end to itself. -/
theorem run_refines_memory_string :
    let calls : List Call := [.allocBytes [104, 105, 0] .hglobal, .alloc 0 .temp,
      .write 0x100001 [111], .readByteString 0x100000, .read 0x100050 0, .free 0x100000,
      .readByteString 0x100000, .free 0x100000]
    (empty.run calls).1 = [.address 0x100000, .address 0x100050, .done, .bytes [104, 111], .bytes [],
      .done, .failed (.invalidAddress 0x100000), .failed (.doubleFree 0x100000)] ∧
    ∃ m : Memory, Memory.empty.Runs calls (empty.run calls).1 m ∧ (empty.run calls).2.Implements m ∧
      m.Separated := by
  intro calls
  obtain ⟨m, runs, implements, separated, -⟩ := run_refines_memory calls (by decide)
  exact ⟨by decide, m, runs, implements, separated⟩

end Heap

end LateBind
