import LateBind.Json.Value
import LateBind.Value

/-! Values as JSON: an object whose one member names the kind. Numbers that may not fit a JSON
reader's numbers are texts: 64-bit integers in decimal, pointers and the bits of floats in
hexadecimal. -/

namespace LateBind

namespace Json

def int32 (n : Int32) : Json := int n.toInt

/-- Two digits per byte. -/
def bytes (bytes : Bytes) : Json := str (Hex.ofBytes bytes)

def bytes? (j : Json) : Option Bytes := j.str?.bind fun s => Hex.toBytes? s.toList

/-- A pointer, with the mark of its base. -/
def pointer (p : UInt64) : Json := str ("0x" ++ Hex.ofNat p.toNat)

/-- A number of up to 64 bits in hexadecimal digits. -/
def wordOfDigits? (digits : List Char) : Option UInt64 := do
  let n ← Hex.toNat? digits
  if digits ≠ [] ∧ n < 0x10000000000000000 then some (UInt64.ofNat n) else none

def pointer? (j : Json) : Option UInt64 := do
  match (← j.str?).toList with
  | '0' :: 'x' :: digits => wordOfDigits? digits
  | _ => none

/-- Sixteen digits; what is no number has one spelling. -/
def float (x : Binary64) : Json :=
  str (if x.isNaN then "nan" else Hex.padded 16 x.bits.toNat)

def float? (j : Json) : Option Binary64 := do
  let digits := (← j.str?).toList
  if digits.length = 16 then (wordOfDigits? digits).map Binary64.mk else none

def int64Text (n : Int64) : Json := str (toString n)

/-- Decimal digits, of which there must be one. -/
def natOfDigits? : List Char → Option Nat
  | [] => none
  | digits =>
    digits.foldlM (fun n c => if c.isDigit then some (10 * n + (c.toNat - 0x30)) else none) 0

/-- Decimal digits behind an optional sign. -/
def int64OfText? (j : Json) : Option Int64 := do
  let n : Int ← match (← j.str?).toList with
    | '-' :: digits => (natOfDigits? digits).map fun n => -(n : Int)
    | '+' :: digits => (natOfDigits? digits).map Int.ofNat
    | digits => (natOfDigits? digits).map Int.ofNat
  if -0x8000000000000000 ≤ n ∧ n < 0x8000000000000000 then some (Int64.ofInt n) else none

end Json

/-- References to objects mean nothing outside their session and are only named as such. -/
def Value.toJson : Value → Json
  | .i32 v => .obj [("i32", .int32 v)]
  | .i64 v => .obj [("i64", .int64Text v)]
  | .f64 v => .obj [("f64", .float v)]
  | .ptr v => .obj [("ptr", .pointer v)]
  | .null => .str "null"
  | .ref _ => .str "object"
  | .address _ => .str "address"
  | .struct bytes => .obj [("struct", .bytes bytes)]

def Value.ofJson? : Json → Option Value
  | .str "null" => some .null
  | .obj [("i32", v)] => v.int32?.map .i32
  | .obj [("i64", v)] => v.int64OfText?.map .i64
  | .obj [("f64", v)] => v.float?.map .f64
  | .obj [("ptr", v)] => v.pointer?.map .ptr
  | .obj [("struct", v)] => v.bytes?.map .struct
  | _ => none

def NativeValue.toJson : NativeValue → Json
  | .void => .str "void"
  | .i32 v => .obj [("i32", .int32 v)]
  | .i64 v => .obj [("i64", .int64Text v)]
  | .f64 v => .obj [("f64", .float v)]
  | .ptr v => .obj [("ptr", .pointer v)]
  | .struct bytes => .obj [("struct", .bytes bytes)]

def NativeValue.ofJson? : Json → Option NativeValue
  | .str "void" => some .void
  | .obj [("i32", v)] => v.int32?.map .i32
  | .obj [("i64", v)] => v.int64OfText?.map .i64
  | .obj [("f64", v)] => v.float?.map .f64
  | .obj [("ptr", v)] => v.pointer?.map .ptr
  | .obj [("struct", v)] => v.bytes?.map .struct
  | _ => none

end LateBind
