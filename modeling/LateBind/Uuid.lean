import LateBind.Text.Hex

/-! Module version ids: 128 bits, written as hexadecimal digits in groups of 8, 4, 4, 4 and 12. -/

namespace LateBind

structure Uuid where
  high : UInt64
  low : UInt64
  deriving DecidableEq, Repr

namespace Uuid

def zero : Uuid := ⟨0, 0⟩

def toNat (u : Uuid) : Nat := (u.high.toNat <<< 64) + u.low.toNat

def ofNat (n : Nat) : Uuid := ⟨UInt64.ofNat (n >>> 64), UInt64.ofNat n⟩

/-- Random bits marked as such: version 4, in the variant of RFC 4122. -/
def ofRandomBits (high low : UInt64) : Uuid :=
  ⟨(high &&& 0xFFFFFFFFFFFF0FFF) ||| 0x4000, (low &&& 0x3FFFFFFFFFFFFFFF) ||| 0x8000000000000000⟩

def version (u : Uuid) : Nat := (u.high >>> 12 &&& 0xF).toNat

/-- Puts a hyphen after digits 8, 12, 16 and 20. -/
def hyphenate (digits : List Char) : List Char :=
  digits.take 8 ++ ['-'] ++ (digits.drop 8).take 4 ++ ['-'] ++ (digits.drop 12).take 4 ++ ['-'] ++
    (digits.drop 16).take 4 ++ ['-'] ++ digits.drop 20

def toText (u : Uuid) : String :=
  String.ofList (hyphenate (Hex.padded 32 u.toNat).toList)

/-- The digits of hyphenated text, if every hyphen is in its place. -/
def unhyphenate? (cs : List Char) : Option (List Char) :=
  let digits := cs.filter (· ≠ '-')
  if digits.length = 32 ∧ hyphenate digits = cs then some digits else none

/-- Accepts bare digits, and hyphenated digits alone, in braces or as a URN, whose scheme may
be in either case. -/
def ofText? (s : String) : Option Uuid := do
  let cs := s.toList
  let digits ←
    if cs.length = 32 then some cs
    else if cs.length = 38 ∧ cs.head? = some '\x7b' ∧ cs.getLast? = some '\x7d' then
      unhyphenate? (cs.drop 1).dropLast
    else if (cs.take 9).map Char.toLower = "urn:uuid:".toList then unhyphenate? (cs.drop 9)
    else unhyphenate? cs
  (Hex.toNat? digits).map ofNat

end Uuid

end LateBind
