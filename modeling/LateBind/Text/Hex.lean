/-! Hexadecimal text of numbers and bytes, in lower case. -/

namespace LateBind.Hex

def digit (n : Nat) : Char :=
  if n < 10 then Char.ofNat (0x30 + n) else Char.ofNat (0x57 + n)

/-- Without leading zeros; zero is one digit. -/
def ofNat (n : Nat) : String :=
  String.ofList (Nat.toDigits 16 n)

def ofByte (b : UInt8) : String :=
  String.ofList [digit (b.toNat / 16), digit (b.toNat % 16)]

/-- Two digits per byte. -/
def ofBytes (bytes : List UInt8) : String :=
  String.join (bytes.map ofByte)

/-- The last `width` digits, with leading zeros. -/
def padded (width : Nat) (n : Nat) : String :=
  String.ofList ((List.range width).map fun i => digit (n >>> (4 * (width - 1 - i)) % 16))

/-- Reads a digit in either case. -/
def digit? (c : Char) : Option Nat :=
  if '0' ≤ c ∧ c ≤ '9' then some (c.toNat - 0x30)
  else if 'a' ≤ c ∧ c ≤ 'f' then some (c.toNat - 0x57)
  else if 'A' ≤ c ∧ c ≤ 'F' then some (c.toNat - 0x37)
  else none

/-- Reads digits in either case, most significant first; no digits give zero. -/
def toNat? (cs : List Char) : Option Nat :=
  cs.foldlM (fun n c => (digit? c).map (16 * n + ·)) 0

/-- Reads two digits per byte. -/
def toBytes? : List Char → Option (List UInt8)
  | [] => some []
  | [_] => none
  | h :: l :: rest => do
    let high ← digit? h
    let low ← digit? l
    let bytes ← toBytes? rest
    some (UInt8.ofNat (16 * high + low) :: bytes)

end LateBind.Hex
