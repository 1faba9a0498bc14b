import LateBind.Text.Latin1

/-! Bytes, as images and native memory hold them; numbers have their least significant byte
first. -/

namespace LateBind

abbrev Bytes := List UInt8

namespace Bytes

/-- The low bytes of a number. -/
def ofNat : Nat → Nat → Bytes
  | 0, _ => []
  | width + 1, n => UInt8.ofNat n :: ofNat width (n / 256)

/-- The number of which these are the bytes. -/
def toNat : Bytes → Nat
  | [] => 0
  | b :: rest => b.toNat + 256 * toNat rest

def ofWord (w : UInt64) : Bytes := ofNat 8 w.toNat

/-- The word of the first eight bytes. -/
def toWord (bytes : Bytes) : UInt64 := UInt64.ofNat (toNat (bytes.take 8))

def ofText (s : String) : Bytes := s.toUTF8.toList

/-- The text whose UTF-8 encoding these bytes are. -/
def toText? (bytes : Bytes) : Option String := String.fromUTF8? ⟨bytes.toArray⟩

/-- Two bytes for each unit. -/
def ofUnits (units : Units) : Bytes :=
  units.flatMap fun u => ofNat 2 u.toNat

/-- One unit for each two bytes; an odd byte at the end counts for nothing. -/
def toUnits : Bytes → Units
  | low :: high :: rest => UInt16.ofNat (low.toNat + 256 * high.toNat) :: toUnits rest
  | _ => []

/-- Cuts into pieces of one positive width; a shorter rest is dropped. -/
def chunks (width : Nat) (bytes : Bytes) : List Bytes :=
  (List.range (bytes.length / width)).map fun i => (bytes.drop (i * width)).take width

@[simp] theorem length_ofNat (width n : Nat) : (ofNat width n).length = width := by
  induction width generalizing n with
  | zero => rfl
  | succ width ih => simp [ofNat, ih]

theorem toNat_ofNat (width n : Nat) : toNat (ofNat width n) = n % 1 <<< (8 * width) := by
  induction width generalizing n with
  | zero => simp [ofNat, toNat, Nat.mod_one]
  | succ width ih =>
    have h : 1 <<< (8 * (width + 1)) = 256 * 1 <<< (8 * width) := by
      rw [Nat.mul_succ, Nat.add_comm, Nat.shiftLeft_add, Nat.shiftLeft_eq, Nat.shiftLeft_eq,
        Nat.one_mul, Nat.shiftLeft_eq, Nat.one_mul]
    rw [h, Nat.mod_mul]
    simp only [ofNat, toNat, ih, UInt8.toNat_ofNat', Nat.reducePow]

theorem toUnits_ofUnits (units : Units) : toUnits (ofUnits units) = units := by
  induction units with
  | nil => rfl
  | cons u rest ih =>
    have hu : u.toNat % 256 + 256 * (u.toNat / 256 % 256) = u.toNat := by
      have := u.toNat_lt
      omega
    simp only [ofUnits, List.flatMap_cons, ofNat, List.cons_append, List.nil_append, toUnits,
      UInt8.toNat_ofNat', Nat.reducePow, hu, UInt16.ofNat_toNat, List.cons.injEq, true_and]
    exact ih

end Bytes

end LateBind
