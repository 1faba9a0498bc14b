import LateBind.Text.Units

/-! One byte per character: a byte stands for the code point of the same number. -/

namespace LateBind.Latin1

/-- A character beyond U+00FF becomes a question mark. -/
def byteOfChar (c : Char) : UInt8 :=
  if c.toNat ≤ 0xFF then UInt8.ofNat c.toNat else 0x3F

def encode (s : String) : List UInt8 :=
  s.toList.map byteOfChar

def decode (bytes : List UInt8) : String :=
  String.ofList (bytes.map fun b => Char.ofNat b.toNat)

/-- A unit beyond 0xFF keeps its low byte. -/
def lowBytes (units : Units) : List UInt8 :=
  units.map (·.toUInt8)

def units (bytes : List UInt8) : Units :=
  bytes.map (·.toUInt16)

end LateBind.Latin1
