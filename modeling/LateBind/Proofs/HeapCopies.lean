import LateBind.Proofs.HeapRefinement
import LateBind.Proofs.ImportTable
import Mathlib.Algebra.GroupWithZero.Nat

/-! # Copies that are made and given back

Managed code makes blocks in a row and later frees them. The blocks are new and apart, and when all
of them are freed the live blocks are those of before. -/

namespace LateBind

namespace Heap

/-! ## Making copies -/

/-- A managed block with some bytes; where there are none there is no block, and the address is
zero. -/
def copy (h : Heap) : Option Bytes → UInt64 × Heap
  | none => (0, h)
  | some bytes => h.allocBytes bytes .hglobal

/-- What copies take of the address space. -/
def spaceFor (copies : List (Option Bytes)) : Nat :=
  (copies.map fun c => c.elim 0 fun bytes => room bytes.length + gap).sum

theorem spaceFor_append (copies copies' : List (Option Bytes)) :
    spaceFor (copies ++ copies') = spaceFor copies + spaceFor copies' := by
  simp [spaceFor]

theorem length_lt_spaceFor (bytes : Bytes) : bytes.length < spaceFor [some bytes] := by
  simp only [spaceFor, List.map_singleton, List.sum_singleton, Option.elim_some, room, gap]
  omega

/-- All blocks that were ever made lie below the next one, and none lies at zero. -/
structure Rises (h : Heap) : Prop where
  positive : 0 < h.next
  blocks : ∀ b ∈ h.blocks, b.start.toNat < h.next
  freed : ∀ a ∈ h.freed, a.toNat < h.next

theorem next_le_run (h : Heap) (calls : List Call) : h.next ≤ (h.run calls).2.next := by
  induction calls generalizing h with
  | nil => exact Nat.le_refl _
  | cons c rest ih =>
    refine Nat.le_trans ?_ (ih (h.perform c).2)
    rw [next_perform]
    exact Nat.le_add_right _ _

/-- So it is in a heap that has come from calls. -/
theorem rises_run {calls : List Call} (within : empty.Addressable calls) :
    (empty.run calls).2.Rises := by
  obtain ⟨m, -, implements, -⟩ := implements_empty.run .nil within
  have below (e : Stretch) (he : e ∈ m.live ++ m.freed) : e.start < (empty.run calls).2.next := by
    have := implements.below e he
    simp only [Stretch.finish, gap] at this
    omega
  refine ⟨?_, fun b hb => below _ (List.mem_append_left _ (implements.mem_live hb)), fun a ha => ?_⟩
  · exact Nat.lt_of_lt_of_le (by decide) (next_le_run empty calls)
  · have known : a.toNat ∈ m.freed.map Stretch.start :=
      implements.freed ▸ List.mem_map_of_mem ha
    obtain ⟨e, he, same⟩ := List.mem_map.mp known
    exact same ▸ below e (List.mem_append_right _ he)

theorem Rises.add {h : Heap} (rises : h.Rises) {b : Block} (start : b.start = h.nextAddress)
    (fits : h.next + b.size < 2 ^ 64) : (h.add b).2.Rises := by
  have more := h.next_lt_add b
  have first : b.start.toNat = h.next := by rw [start, toNat_nextAddress (by omega)]
  refine ⟨by omega, fun c hc => ?_, fun a ha => ?_⟩
  · rcases List.mem_cons.mp hc with rfl | hc
    · omega
    · have := rises.blocks c hc
      omega
  · have := rises.freed a ha
    omega

theorem blockAt?_eq_none {h : Heap} {a : UInt64} :
    h.blockAt? a = none ↔ ∀ b ∈ h.blocks, b.start ≠ a := by
  simp [blockAt?, List.find?_eq_none]

theorem blockAt?_add_self (h : Heap) (b : Block) : (h.add b).2.blockAt? b.start = some b := by
  rw [blockAt?]
  exact List.find?_cons_of_pos (beq_self_eq_true b.start)

theorem blockAt?_add_of_ne (h : Heap) {b : Block} {a : UInt64} (other : b.start ≠ a) :
    (h.add b).2.blockAt? a = h.blockAt? a := by
  rw [blockAt?, blockAt?]
  exact List.find?_cons_of_neg (by simpa using other)

/-- The next block is none of these. -/
theorem Rises.ne_nextAddress {h : Heap} (rises : h.Rises) (fits : h.next < 2 ^ 64) {a : UInt64}
    {b : Block} (found : h.blockAt? a = some b) : a ≠ h.nextAddress := by
  rintro rfl
  have start : b.start = h.nextAddress := by simpa using List.find?_some found
  have below := rises.blocks b (List.mem_of_find?_eq_some found)
  rw [start, toNat_nextAddress fits] at below
  exact Nat.lt_irrefl _ below

/-- Whether there is a copy at an address. -/
def IsCopy (h : Heap) : Option Bytes → UInt64 → Prop
  | none, a => a = 0
  | some bytes, a => a ≠ 0 ∧ ∃ b, h.blockAt? a = some b ∧ b.kind = .hglobal ∧ b.bytes = bytes

theorem IsCopy.allocBytes {h : Heap} (rises : h.Rises) (fits : h.next < 2 ^ 64)
    {c : Option Bytes} {a : UInt64} (copied : h.IsCopy c a) (bytes : Bytes) (kind : BlockKind) :
    (h.allocBytes bytes kind).2.IsCopy c a := by
  cases c with
  | none => exact copied
  | some bytes' =>
    obtain ⟨nonzero, b, found, is⟩ := copied
    have other := (rises.ne_nextAddress fits found).symm
    exact ⟨nonzero, b, (blockAt?_add_of_ne h other).trans found, is⟩

/-- What copies leave in memory. -/
structure HasCopies (before : Heap) (copies : List (Option Bytes)) (addresses : List UInt64)
    (after : Heap) : Prop where
  /-- Every copy is a managed block that starts at its address and holds just its bytes. -/
  each : List.Forall₂ after.IsCopy copies addresses
  /-- No block is the copy of two. -/
  distinct : (addresses.filter (· ≠ 0)).Nodup
  /-- There was no block at these addresses, live or freed. -/
  fresh : ∀ a ∈ addresses, a ≠ 0 → before.blockAt? a = none ∧ a ∉ before.freed
  /-- The copies are all that is new. -/
  blocks : ∃ made, after.blocks = made ++ before.blocks ∧
    made.map Block.start = (addresses.filter (· ≠ 0)).reverse
  freed : after.freed = before.freed
  hglobalFrees : after.hglobalFrees = before.hglobalFrees
  next : after.next = before.next + spaceFor copies

theorem HasCopies.nil (h : Heap) : h.HasCopies [] [] h :=
  ⟨.nil, .nil, nofun, ⟨[], rfl, rfl⟩, rfl, rfl, rfl⟩

namespace HasCopies

variable {before after : Heap} {copies : List (Option Bytes)} {addresses : List UInt64}

/-- Every copy is a live block. -/
theorem exists_blockAt? (has : before.HasCopies copies addresses after) :
    ∀ a ∈ addresses, a ≠ 0 → ∃ b, after.blockAt? a = some b ∧ b.kind = .hglobal := by
  intro a ha nonzero
  obtain ⟨copy, -, at_⟩ := List.exists_left_of_forall₂ has.each ha
  cases copy with
  | none => exact absurd at_ nonzero
  | some bytes =>
    obtain ⟨-, b, found, managed, -⟩ := at_
    exact ⟨b, found, managed⟩

theorem copy_none (has : before.HasCopies copies addresses after) :
    before.HasCopies (copies ++ [none]) (addresses ++ [0]) after := by
  have same : (addresses ++ [0]).filter (· ≠ 0) = addresses.filter (· ≠ 0) := by simp
  refine ⟨List.rel_append has.each (.cons rfl .nil), same ▸ has.distinct, fun a ha nonzero => ?_,
    same ▸ has.blocks, has.freed, has.hglobalFrees, ?_⟩
  · rcases List.mem_append.mp ha with ha | ha
    · exact has.fresh a ha nonzero
    · exact absurd (List.mem_singleton.mp ha) nonzero
  · rw [spaceFor_append]
    exact has.next

/-- The next block lies above all that there were. -/
theorem copy_some (has : before.HasCopies copies addresses after) (rises : after.Rises)
    {bytes : Bytes} (fits : after.next + bytes.length < 2 ^ 64) :
    before.HasCopies (copies ++ [some bytes]) (addresses ++ [after.nextAddress])
      (after.allocBytes bytes .hglobal).2 := by
  let b : Block := .ofBytes after.nextAddress bytes .hglobal
  obtain ⟨made, blocks, starts⟩ := has.blocks
  have first : after.nextAddress.toNat = after.next := toNat_nextAddress (by omega)
  have nonzero : after.nextAddress ≠ 0 := by
    intro zero
    rw [zero] at first
    exact absurd first.symm (Nat.ne_of_gt rises.positive)
  have known : ∀ a ∈ addresses, a ≠ 0 → a ≠ after.nextAddress := by
    intro a ha other
    obtain ⟨c, found, -⟩ := has.exists_blockAt? a ha other
    exact rises.ne_nextAddress (by omega) found
  have keep : (addresses ++ [after.nextAddress]).filter (· ≠ 0) =
      addresses.filter (· ≠ 0) ++ [after.nextAddress] := by
    rw [List.filter_append, List.filter_cons_of_pos (by simpa using nonzero), List.filter_nil]
  have found : (after.allocBytes bytes .hglobal).2.blockAt? after.nextAddress = some b :=
    blockAt?_add_self after b
  have old : List.Forall₂ (after.allocBytes bytes .hglobal).2.IsCopy copies addresses :=
    has.each.imp fun _ _ copied => copied.allocBytes rises (by omega) bytes .hglobal
  have new : (after.allocBytes bytes .hglobal).2.IsCopy (some bytes) after.nextAddress :=
    ⟨nonzero, b, found, rfl, Block.bytes_ofBytes _ _ _⟩
  refine ⟨List.rel_append old (.cons new .nil), ?distinct, ?fresh,
    ⟨b :: made, congrArg (b :: ·) blocks, ?starts⟩, has.freed, has.hglobalFrees, ?next⟩
  case distinct =>
    rw [keep]
    refine List.nodup_append.mpr ⟨has.distinct, by simp, fun a ha a' ha' => ?_⟩
    obtain ⟨ha, other⟩ := List.mem_filter.mp ha
    exact List.mem_singleton.mp ha' ▸ known a ha (by simpa using other)
  case fresh =>
    intro a ha other
    rcases List.mem_append.mp ha with ha | ha
    · exact has.fresh a ha other
    · obtain rfl := List.mem_singleton.mp ha
      refine ⟨blockAt?_eq_none.mpr fun c hc same => ?_, fun gone => ?_⟩
      · have below := rises.blocks c (blocks ▸ List.mem_append_right _ hc)
        rw [same] at below
        omega
      · have below := rises.freed _ (has.freed ▸ gone)
        omega
  case starts => rw [keep, List.reverse_append, List.map_cons, starts]; rfl
  case next =>
    rw [spaceFor_append, ← Nat.add_assoc, ← has.next]
    rfl

/-- There is room for the next of many copies. -/
theorem fits (has : before.HasCopies copies addresses after) {c : Option Bytes}
    {rest : List (Option Bytes)}
    (room : before.next + spaceFor (copies ++ [c] ++ rest) ≤ 2 ^ 64) :
    after.next + spaceFor [c] ≤ 2 ^ 64 := by
  rw [spaceFor_append, spaceFor_append] at room
  have := has.next
  omega

theorem copy (has : before.HasCopies copies addresses after) (rises : after.Rises)
    {c : Option Bytes} (fits : after.next + spaceFor [c] ≤ 2 ^ 64) :
    before.HasCopies (copies ++ [c]) (addresses ++ [(after.copy c).1]) (after.copy c).2 ∧
      (after.copy c).2.Rises := by
  cases c with
  | none => exact ⟨has.copy_none, rises⟩
  | some bytes =>
    have small : after.next + bytes.length < 2 ^ 64 := by
      have := length_lt_spaceFor bytes
      omega
    exact ⟨has.copy_some rises small, rises.add rfl small⟩

end HasCopies

/-- Copies are made one after the other: where each of them is, and the heap with all of them. -/
def copyAll (h : Heap) : List (Option Bytes) → List UInt64 × Heap
  | [] => ([], h)
  | c :: rest =>
    let (a, h) := h.copy c
    let (addresses, h) := h.copyAll rest
    (a :: addresses, h)

@[simp]
theorem length_copyAll (h : Heap) (copies : List (Option Bytes)) :
    (h.copyAll copies).1.length = copies.length := by
  induction copies generalizing h with
  | nil => rfl
  | cons c rest ih => exact congrArg (· + 1) (ih (h.copy c).2)

theorem copyAll_append (h : Heap) (front rest : List (Option Bytes)) : h.copyAll (front ++ rest) =
    ((h.copyAll front).1 ++ ((h.copyAll front).2.copyAll rest).1,
      ((h.copyAll front).2.copyAll rest).2) := by
  induction front generalizing h with
  | nil => rfl
  | cons c front ih => simp only [List.cons_append, copyAll, ih (h.copy c).2]

theorem copyAll_concat (h : Heap) (front : List (Option Bytes)) (c : Option Bytes) :
    h.copyAll (front ++ [c]) = ((h.copyAll front).1 ++ [((h.copyAll front).2.copy c).1],
      ((h.copyAll front).2.copy c).2) := copyAll_append h front [c]

/-- With room for all of them, copies are new and apart. -/
theorem HasCopies.copyAll {before after : Heap} {copies rest : List (Option Bytes)}
    {addresses : List UInt64} (has : before.HasCopies copies addresses after) (rises : after.Rises)
    (room : before.next + spaceFor (copies ++ rest) ≤ 2 ^ 64) :
    before.HasCopies (copies ++ rest) (addresses ++ (after.copyAll rest).1) (after.copyAll rest).2 ∧
      (after.copyAll rest).2.Rises := by
  induction rest generalizing copies addresses after with
  | nil => exact ⟨by simpa [Heap.copyAll] using has, rises⟩
  | cons c rest ih =>
    rw [List.append_cons] at room
    obtain ⟨has', rises'⟩ := has.copy rises (has.fits room)
    have all := ih has' rises' room
    rwa [← List.append_cons, ← List.append_cons] at all

theorem hasCopies_copyAll {h : Heap} (rises : h.Rises) {copies : List (Option Bytes)}
    (room : h.next + spaceFor copies ≤ 2 ^ 64) :
    h.HasCopies copies (h.copyAll copies).1 (h.copyAll copies).2 ∧ (h.copyAll copies).2.Rises :=
  (HasCopies.nil h).copyAll rises room

/-! ## Giving them back -/

/-- The heap after managed blocks at some addresses were freed, in this order. -/
def without (h : Heap) (addresses : List UInt64) : Heap :=
  { h with
    blocks := h.blocks.filter (·.start ∉ addresses)
    freed := addresses.reverse ++ h.freed
    hglobalFrees := h.hglobalFrees + addresses.length }

/-- A managed block starts at an address. -/
def Manages (h : Heap) (a : UInt64) : Prop := ∃ b, h.blockAt? a = some b ∧ b.kind = .hglobal

theorem without_nil (h : Heap) : h.without [] = h := by
  have all : h.blocks.filter (fun b => decide (b.start ∉ ([] : List UInt64))) = h.blocks :=
    List.filter_eq_self.mpr fun b _ => by simp
  rw [without, all]
  rfl

theorem without_append (h : Heap) (as bs : List UInt64) :
    (h.without as).without bs = h.without (as ++ bs) := by
  have both : h.blocks.filter (fun b => decide (b.start ∉ as ++ bs)) =
      (h.blocks.filter fun b => decide (b.start ∉ as)).filter fun b => decide (b.start ∉ bs) := by
    rw [List.filter_filter]
    refine List.filter_congr fun b _ => ?_
    by_cases left : b.start ∈ as <;> simp [left]
  simp only [without, both, List.reverse_append, List.length_append, List.append_assoc,
    Nat.add_assoc]

theorem Manages.free {h : Heap} {a : UInt64} (manages : h.Manages a) :
    h.free a = .ok (h.without [a]) := by
  obtain ⟨b, found, managed⟩ := manages
  have others : h.blocks.filter (·.start != a) = h.blocks.filter fun b => decide (b.start ∉ [a]) :=
    List.filter_congr fun b _ => by by_cases same : b.start = a <;> simp [same]
  simp only [Heap.free, found, managed, others]
  rfl

theorem Manages.without {h : Heap} {a : UInt64} (manages : h.Manages a) {addresses : List UInt64}
    (kept : a ∉ addresses) : (h.without addresses).Manages a := by
  obtain ⟨b, found, managed⟩ := manages
  refine ⟨b, ?_, managed⟩
  rw [blockAt?, Heap.without, List.find?_filter, ← found, blockAt?]
  congr 1
  funext c
  by_cases same : c.start = a <;> simp [same, kept]

/-- The blocks at the addresses of a table are freed, one after the other, and the addresses become
zero, which stands for no block. A block that cannot be freed is the last that is tried. -/
def clear (h : Heap) : List UInt64 → List UInt64 × Heap × Option MachineError
  | [] => ([], h, none)
  | a :: rest =>
    match if a = 0 then .ok h else h.free a with
    | .ok h =>
      let (cleared, h, fault) := h.clear rest
      (0 :: cleared, h, fault)
    | .error .freedBefore => (a :: rest, h, some (.doubleFree a))
    | .error .noBlock => (a :: rest, h, some (.invalidFree a))

@[simp]
theorem length_clear (h : Heap) (addresses : List UInt64) :
    (h.clear addresses).1.length = addresses.length := by
  induction addresses generalizing h with
  | nil => rfl
  | cons a rest ih =>
    rw [clear]
    split
    · exact congrArg (· + 1) (ih _)
    · rfl
    · rfl

/-- Managed blocks are freed, each of them once. -/
theorem clear_managed {h : Heap} {addresses : List UInt64}
    (distinct : (addresses.filter (· ≠ 0)).Nodup)
    (managed : ∀ a ∈ addresses, a ≠ 0 → h.Manages a) :
    h.clear addresses =
      (List.replicate addresses.length 0, h.without (addresses.filter (· ≠ 0)), none) := by
  induction addresses generalizing h with
  | nil => rw [List.filter_nil, without_nil]; rfl
  | cons a rest ih =>
    obtain ⟨managed₁, managed⟩ := List.forall_mem_cons.mp managed
    by_cases zero : a = 0
    · rw [List.filter_cons_of_neg (by simpa using zero)] at distinct ⊢
      simp only [clear, if_pos zero, ih distinct managed]
      rfl
    · rw [List.filter_cons_of_pos (by simpa using zero)] at distinct ⊢
      obtain ⟨apart, distinct⟩ := List.nodup_cons.mp distinct
      have kept : ∀ b ∈ rest, b ≠ 0 → (h.without [a]).Manages b := fun b hb nonzero =>
        (managed b hb nonzero).without fun same => by
          rw [List.mem_singleton.mp same] at hb
          exact apart (List.mem_filter.mpr ⟨hb, by simpa using zero⟩)
      simp only [clear, if_neg zero, (managed₁ zero).free, ih distinct kept, without_append]
      rfl

namespace HasCopies

variable {before after : Heap} {copies : List (Option Bytes)} {addresses : List UInt64}

/-- When the copies are freed, the live blocks are those of before. -/
theorem blocks_without (has : before.HasCopies copies addresses after) :
    (after.without (addresses.filter (· ≠ 0))).blocks = before.blocks := by
  obtain ⟨made, blocks, starts⟩ := has.blocks
  have gone : made.filter (fun b => decide (b.start ∉ addresses.filter (· ≠ 0))) = [] := by
    refine List.filter_eq_nil_iff.mpr fun b hb => ?_
    have start : b.start ∈ addresses.filter (· ≠ 0) :=
      List.mem_reverse.mp (starts ▸ List.mem_map_of_mem hb)
    simpa using start
  have kept : before.blocks.filter (fun b => decide (b.start ∉ addresses.filter (· ≠ 0))) =
      before.blocks := by
    refine List.filter_eq_self.mpr fun b hb => ?_
    refine decide_eq_true fun copied => ?_
    obtain ⟨known, nonzero⟩ := List.mem_filter.mp copied
    exact blockAt?_eq_none.mp (has.fresh _ known (by simpa using nonzero)).1 b hb rfl
  rw [without, blocks, List.filter_append, gone, kept, List.nil_append]

end HasCopies

end Heap

end LateBind
