/-! The shortest decimal of a binary number: of all decimals that are nearer to it than to its
neighbours, one on the coarsest power-of-ten grid, and on that grid the nearest. -/

namespace LateBind

/-- `significand * 10 ^ exponent`. -/
structure Decimal where
  significand : Nat
  exponent : Int
  deriving DecidableEq, Repr

namespace Decimal

/-- A number `quarters / 4 * 2 ^ exponent` with the ends, in the same unit, of the interval of reals
that round to it. -/
structure Rounded where
  exponent : Int
  quarters : Nat
  lower : Nat
  upper : Nat
  /-- The ends belong to the interval. -/
  closed : Bool
  deriving DecidableEq, Repr

namespace Rounded

/-- Compares a point of the grid of `10 ^ grid` with a number of quarters, both made whole by one
factor. -/
def scale (r : Rounded) (grid : Int) : Nat × Nat :=
  let binary := r.exponent - 2
  (Nat.pow 10 grid.toNat <<< (-binary).toNat, Nat.pow 10 (-grid).toNat <<< binary.toNat)

/-- Whether the point `point * 10 ^ grid` rounds to the number. -/
def holds (r : Rounded) (grid : Int) (point : Nat) : Bool :=
  let (perPoint, perQuarter) := r.scale grid
  let p := point * perPoint
  let low := r.lower * perQuarter
  let high := r.upper * perQuarter
  if r.closed then low ≤ p && p ≤ high else low < p && p < high

/-- The nearest grid point that rounds to the number; it is one of the two beside it, and of two at
one distance the greater. -/
def nearest? (r : Rounded) (grid : Int) : Option Nat :=
  let (perPoint, perQuarter) := r.scale grid
  let value := r.quarters * perQuarter
  let below := value / perPoint
  let above := below + 1
  match r.holds grid below, r.holds grid above with
  | true, true =>
    if value - below * perPoint < above * perPoint - value then some below else some above
  | true, false => some below
  | false, true => some above
  | false, false => none

/-- Grids from `10 ^ 309` down to `10 ^ (-342)`, which take in every 64-bit binary number with
seventeen digits. -/
def shortest (r : Rounded) : Decimal :=
  let hit := (List.range 652).findSome? fun i : Nat =>
    let grid : Int := 309 - i
    (r.nearest? grid).map fun point => (⟨point, grid⟩ : Decimal)
  hit.getD ⟨0, 0⟩

end Rounded

/-- The digits of the significand. -/
def digits (d : Decimal) : List Char := Nat.toDigits 10 d.significand

/-- The exponent of the first digit. -/
def leadingExponent (d : Decimal) : Int := d.exponent + (d.digits.length - 1)

/-- Without an exponent, and with at least `places` digits behind the point, which is left out when
none follow. -/
def positional (places : Nat) (d : Decimal) : String :=
  let behind := (-d.exponent).toNat
  let digits := d.digits ++ List.replicate d.exponent.toNat '0'
  let padded := List.replicate (behind + 1 - digits.length) '0' ++ digits
  let whole := padded.take (padded.length - behind)
  let fraction := padded.drop (padded.length - behind)
  let fraction := fraction ++ List.replicate (places - fraction.length) '0'
  String.ofList (if fraction.isEmpty then whole else whole ++ '.' :: fraction)

/-- One digit before the point, which is left out when none follow it. -/
def scientific (d : Decimal) : String :=
  let mantissa := match d.digits with
    | lead :: rest => if rest.isEmpty then [lead] else lead :: '.' :: rest
    | [] => []
  String.ofList mantissa ++ "e" ++ toString d.leadingExponent

end Decimal

end LateBind
