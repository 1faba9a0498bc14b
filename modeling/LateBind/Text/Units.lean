/-! Text as managed code holds it: UTF-16 units, in which a surrogate need not be paired. -/

namespace LateBind

abbrev Units := List UInt16

namespace Units

def isHighSurrogate (u : UInt16) : Bool := 0xD800 ≤ u && u < 0xDC00

def isLowSurrogate (u : UInt16) : Bool := 0xDC00 ≤ u && u < 0xE000

/-- One unit, or a surrogate pair for a character beyond the basic plane. -/
def ofChar (c : Char) : Units :=
  let n := c.toNat
  if n < 0x10000 then [UInt16.ofNat n]
  else
    [UInt16.ofNat (0xD800 + (n - 0x10000) / 0x400), UInt16.ofNat (0xDC00 + (n - 0x10000) % 0x400)]

def ofString (s : String) : Units :=
  s.toList.flatMap ofChar

/-- The character that a pair of surrogates stands for. -/
def pair (high low : UInt16) : Char :=
  Char.ofNat (0x10000 + (high.toNat - 0xD800) * 0x400 + (low.toNat - 0xDC00))

/-- Each unpaired surrogate becomes U+FFFD. -/
def toChars : Units → List Char
  | [] => []
  | [u] => [if isHighSurrogate u || isLowSurrogate u then '\uFFFD' else Char.ofNat u.toNat]
  | u :: v :: rest =>
    if isHighSurrogate u then
      if isLowSurrogate v then pair u v :: toChars rest else '\uFFFD' :: toChars (v :: rest)
    else if isLowSurrogate u then '\uFFFD' :: toChars (v :: rest)
    else Char.ofNat u.toNat :: toChars (v :: rest)

def toText (units : Units) : String :=
  String.ofList units.toChars

end Units

end LateBind
