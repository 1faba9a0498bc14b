import LateBind.Bytes

/-! A block of native memory. It keeps its size and what was written to it, so that room that nobody
wrote to costs nothing; `byte_write` says that a write changes its own bytes and no others. -/

namespace LateBind

/-- Who owns a block. -/
inductive BlockKind
  /-- Allocated by managed code. -/
  | hglobal
  /-- The copy of a pinned object, for one call from outside. -/
  | pinned
  /-- Owned by a library and never freed. -/
  | static
  /-- The copy of an argument of an import stub, for one native call. -/
  | temp
  deriving DecidableEq, Repr

def BlockKind.display : BlockKind → String
  | hglobal => "HGlobal"
  | pinned => "Pinned"
  | static => "Static"
  | temp => "Temp"

/-- Bytes that were written from an offset on. -/
structure Patch where
  offset : Nat
  bytes : Array UInt8
  deriving DecidableEq, Repr

namespace Patch

/-- The byte that was written at a place. -/
def byte? (p : Patch) (i : Nat) : Option UInt8 :=
  if p.offset ≤ i then p.bytes[i - p.offset]? else none

/-- All of the patch lies under another one. -/
def isUnder (p other : Patch) : Bool :=
  other.offset ≤ p.offset && p.offset + p.bytes.size ≤ other.offset + other.bytes.size

theorem byte?_eq_none (p : Patch) (i : Nat) :
    p.byte? i = none ↔ i < p.offset ∨ p.offset + p.bytes.size ≤ i := by
  unfold byte?
  split
  · rw [Array.getElem?_eq_none_iff]
    omega
  · simp only [true_iff]
    omega

theorem byte?_of_isUnder {p other : Patch} (h : p.isUnder other) {i : Nat}
    (hi : other.byte? i = none) : p.byte? i = none := by
  simp only [isUnder, Bool.and_eq_true, decide_eq_true_eq] at h
  rw [byte?_eq_none] at hi ⊢
  omega

end Patch

structure Block where
  start : UInt64
  size : Nat
  /-- What was written, latest first; where nothing was written there are zeros. -/
  patches : List Patch
  kind : BlockKind
  deriving DecidableEq, Repr

namespace Block

/-- A new block of zeros. -/
def zeros (start : UInt64) (size : Nat) (kind : BlockKind) : Block := ⟨start, size, [], kind⟩

def byte (b : Block) (i : Nat) : UInt8 := (b.patches.findSome? (·.byte? i)).getD 0

/-- The bytes of a range, which must lie in the block to mean anything. -/
def read (b : Block) (offset length : Nat) : Bytes := (List.range' offset length).map b.byte

/-- All that the block holds. -/
def bytes (b : Block) : Bytes := b.read 0 b.size

/-- Writes bytes from an offset on. Older patches that are now hidden are forgotten. -/
def write (b : Block) (offset : Nat) (bytes : Bytes) : Block :=
  let patch : Patch := ⟨offset, bytes.toArray⟩
  { b with patches := patch :: b.patches.filter fun p => !p.isUnder patch }

/-- A new block that holds the given bytes. -/
def ofBytes (start : UInt64) (bytes : Bytes) (kind : BlockKind) : Block :=
  (zeros start bytes.length kind).write 0 bytes

@[simp] theorem length_read (b : Block) (offset length : Nat) :
    (b.read offset length).length = length := by
  simp [read]

theorem read_eq_bytes (b : Block) {offset length : Nat} (h : offset + length ≤ b.size) :
    b.read offset length = (b.bytes.drop offset).take length := by
  apply List.ext_getElem
  · simp only [length_read, List.length_take, List.length_drop, bytes]
    omega
  · intro i _ _
    simp [read, bytes]

theorem byte_write (b : Block) (offset : Nat) (bytes : Bytes) (i : Nat) :
    (b.write offset bytes).byte i =
      if offset ≤ i ∧ i < offset + bytes.length then bytes[i - offset]?.getD 0 else b.byte i := by
  have hidden : ∀ patch : Patch, patch.byte? i = none → ∀ patches : List Patch,
      (patches.filter fun p => !p.isUnder patch).findSome? (·.byte? i) =
        patches.findSome? (·.byte? i) := by
    intro patch none_at patches
    induction patches with
    | nil => rfl
    | cons p rest ih =>
      cases under : p.isUnder patch with
      | false => simp [under, ih, List.findSome?_cons]
      | true => simp [under, ih, Patch.byte?_of_isUnder under none_at]
  have outside := Patch.byte?_eq_none ⟨offset, bytes.toArray⟩ i
  simp only [List.size_toArray] at outside
  by_cases inside : offset ≤ i ∧ i < offset + bytes.length
  · have found : Patch.byte? ⟨offset, bytes.toArray⟩ i = bytes[i - offset]? := by
      simp [Patch.byte?, inside.1]
    rw [if_pos inside, byte, write, List.findSome?_cons, found,
      List.getElem?_eq_getElem (by omega : i - offset < bytes.length)]
  · have none_at := outside.2 (by omega)
    simp only [if_neg inside, byte, write, List.findSome?_cons, none_at, hidden _ none_at]

end Block

end LateBind
