import LateBind.Bytes
import LateBind.Decimal.Shortest

/-! Floating-point numbers of 64 bits, held as their bits: a sign, eleven bits of exponent and
fifty-two of fraction. -/

namespace LateBind

structure Binary64 where
  bits : UInt64
  deriving DecidableEq, Repr

namespace Binary64

def zero : Binary64 := ⟨0⟩

def isNegative (x : Binary64) : Bool := x.bits >>> 63 = 1

def biasedExponent (x : Binary64) : Nat := (x.bits >>> 52 &&& 0x7FF).toNat

def fraction (x : Binary64) : Nat := (x.bits &&& 0x000FFFFFFFFFFFFF).toNat

def isNaN (x : Binary64) : Bool := x.biasedExponent = 2047 && x.fraction ≠ 0

def isInfinite (x : Binary64) : Bool := x.biasedExponent = 2047 && x.fraction = 0

def isZero (x : Binary64) : Bool := x.biasedExponent = 0 && x.fraction = 0

/-- Significand and exponent of the magnitude of a finite number. -/
def magnitude (x : Binary64) : Nat × Int :=
  if x.biasedExponent = 0 then (x.fraction, -1074)
  else (0x0010000000000000 + x.fraction, (x.biasedExponent : Int) - 1075)

/-! ## Arithmetic -/

/-- The not-a-number that an invalid operation gives. -/
def invalid : Binary64 := ⟨0xFFF8000000000000⟩

/-- Sets the bit that tells a quiet not-a-number from a signalling one. -/
def quiet (x : Binary64) : Binary64 := ⟨x.bits ||| 0x0008000000000000⟩

/-- The first operand that is no number, made quiet, is the result. -/
def combine (op : Float → Float → Float) (x y : Binary64) : Binary64 :=
  if x.isNaN then x.quiet
  else if y.isNaN then y.quiet
  else
    let r := op (Float.ofBits x.bits) (Float.ofBits y.bits)
    if r.isNaN then invalid else ⟨r.toBits⟩

def add (x y : Binary64) : Binary64 := combine (· + ·) x y

def sub (x y : Binary64) : Binary64 := combine (· - ·) x y

/-! ## The 32-bit format -/

/-- The nearest whole number to `n / 2 ^ shift`, the even one of two. -/
def roundShift (n shift : Nat) : Nat :=
  let unit := 1 <<< shift
  let below := n / unit
  let rest := n % unit
  if 2 * rest < unit then below
  else if unit < 2 * rest then below + 1
  else below + below % 2

/-- The bits of the magnitude of the nearest 32-bit number. A significand that rounds up to the next
power of two carries into the exponent, and from the largest number into infinity. -/
def narrowMagnitude (x : Binary64) : Nat :=
  let (m, q) := x.magnitude
  let target : Int := max (-149) (q + (Nat.log2 m - 23 : Int))
  let r :=
    if q ≤ target then roundShift m (target - q).toNat else m <<< (q - target).toNat
  min (((target + 149).toNat <<< 23) + r) 0x7F800000

/-- The nearest number of 32 bits; one that is no number keeps the top of its payload. -/
def narrow (x : Binary64) : UInt32 :=
  let sign := if x.isNegative then 0x80000000 else 0
  let magnitude :=
    if x.isNaN then 0x7FC00000 ||| x.fraction >>> 29
    else if x.isInfinite then 0x7F800000
    else x.narrowMagnitude
  UInt32.ofNat (sign + magnitude)

/-- The same number, from 32 bits. -/
def widen (b : UInt32) : Binary64 :=
  let n := b.toNat
  let sign := (n >>> 31) <<< 63
  let exponent := (n >>> 23) % 0x100
  let fraction := n % 0x800000
  let magnitude :=
    if exponent = 255 then
      (2047 <<< 52) + (if fraction = 0 then 0 else (0x400000 ||| fraction) <<< 29)
    else if exponent = 0 then
      if fraction = 0 then 0
      else
        let top := Nat.log2 fraction
        ((top + 874) <<< 52) + ((fraction - 1 <<< top) <<< (52 - top))
    else ((exponent + 896) <<< 52) + (fraction <<< 29)
  ⟨UInt64.ofNat (sign + magnitude)⟩

/-! ## Text -/

/-- Half a unit above the largest finite number, from where on numbers round to infinity. -/
def bound : Nat := 0x3FFFFFFFFFFFFF <<< 970

/-- The nearest natural number of 53 significant bits. -/
def nearest (n : Nat) : Nat :=
  let shift := Nat.log2 n - 52
  roundShift n shift <<< shift

/-- Whether a decimal is too large for a finite number. -/
def overflows (d : Decimal) : Bool :=
  if d.significand = 0 ∨ d.leadingExponent < 308 then false
  else if 308 < d.leadingExponent then true
  else
    bound * Nat.pow 10 (-d.exponent).toNat ≤ d.significand * Nat.pow 10 d.exponent.toNat

/-- The interval that rounds to a finite number reaches half as far down from a power of two, and it
is closed when the significand is even. -/
def rounded (x : Binary64) : Decimal.Rounded :=
  let (m, exponent) := x.magnitude
  let down := if x.fraction = 0 ∧ 1 < x.biasedExponent then 1 else 2
  { exponent, quarters := 4 * m, lower := 4 * m - down, upper := 4 * m + 2, closed := m % 2 = 0 }

/-- The shortest decimal of the magnitude of a finite number. -/
def decimal (x : Binary64) : Decimal :=
  if x.isZero then ⟨0, 0⟩ else x.rounded.shortest

/-- Writes a finite number by its magnitude. -/
def write (form : Decimal → String) (x : Binary64) : String :=
  if x.isNaN then "NaN"
  else (if x.isNegative then "-" else "") ++ (if x.isInfinite then "inf" else form x.decimal)

/-- Always positional; whole numbers have no point. -/
def display (x : Binary64) : String := x.write (Decimal.positional 0)

/-- Positional with a point from `1e-4` up to `1e16`, and with an exponent beyond. -/
def displayExact (x : Binary64) : String :=
  x.write fun d =>
    if x.isZero || (-4 ≤ d.leadingExponent && d.leadingExponent < 16) then d.positional 1
    else d.scientific

end Binary64

end LateBind
