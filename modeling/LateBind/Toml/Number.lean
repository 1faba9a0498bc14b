import LateBind.Binary64
import LateBind.Json.Value
import LateBind.Text.Hex

/-! Numbers, dates and times of TOML, as whole words. -/

namespace LateBind.Toml

/-- Digits of a number without their underscores, each of which stands between two digits. -/
def digits? (isDigit : Char → Bool) : List Char → Option (List Char)
  | [] => none
  | [c] => if isDigit c then some [c] else none
  | c :: '_' :: rest => if isDigit c then (digits? isDigit rest).map (c :: ·) else none
  | c :: rest => if isDigit c then (digits? isDigit rest).map (c :: ·) else none

def isHexDigit (c : Char) : Bool := (Hex.digit? c).isSome

def valueOf (base : Nat) (digits : List Char) : Nat :=
  digits.foldl (fun n c => base * n + (Hex.digit? c).getD 0) 0

/-- The integers of 64 bits. -/
def bounded (n : Int) : Option Json :=
  if -0x8000000000000000 ≤ n ∧ n < 0x8000000000000000 then some (.int n) else none

/-- Decimal digits without a leading zero. -/
def decimal? (cs : List Char) : Option Nat := do
  let digits ← digits? Char.isDigit cs
  if digits.head? = some '0' ∧ cs.length ≠ 1 then none else some (valueOf 10 digits)

def integer? (word : List Char) : Option Json :=
  match word with
  | '0' :: 'x' :: rest => (digits? isHexDigit rest).bind fun ds => bounded (valueOf 16 ds)
  | '0' :: 'o' :: rest =>
    (digits? (fun c => '0' ≤ c ∧ c ≤ '7') rest).bind fun ds => bounded (valueOf 8 ds)
  | '0' :: 'b' :: rest =>
    (digits? (fun c => c = '0' ∨ c = '1') rest).bind fun ds => bounded (valueOf 2 ds)
  | '+' :: rest => (decimal? rest).bind fun n => bounded n
  | '-' :: rest => (decimal? rest).bind fun n => bounded (-n)
  | rest => (decimal? rest).bind fun n => bounded n

def unsigned (word : List Char) : List Char :=
  match word with
  | '+' :: rest => rest
  | '-' :: rest => rest
  | rest => rest

def isExponentMark (c : Char) : Bool := c == 'e' || c == 'E'

/-- The power of ten behind an exponent mark. -/
def exponentOf? (cs : List Char) : Option Int :=
  match cs with
  | '-' :: rest => (digits? Char.isDigit rest).map fun ds => -(valueOf 10 ds : Int)
  | '+' :: rest => (digits? Char.isDigit rest).map fun ds => (valueOf 10 ds : Int)
  | rest => (digits? Char.isDigit rest).map fun ds => (valueOf 10 ds : Int)

/-- The magnitude of a word of integer digits with a fraction, an exponent or both. -/
def decimalFloat? (body : List Char) : Option Decimal := do
  let mantissa := body.takeWhile fun c => !isExponentMark c
  let power := body.dropWhile fun c => !isExponentMark c
  let whole := mantissa.takeWhile (· ≠ '.')
  let fraction := mantissa.dropWhile (· ≠ '.')
  if fraction = [] ∧ power = [] then none
  else
    let digits ← decimal? whole
    let exponent ← if power = [] then some 0 else exponentOf? (power.drop 1)
    let places ← if fraction = [] then some [] else digits? Char.isDigit (fraction.drop 1)
    let significand := places.foldl (fun n c => 10 * n + (Hex.digit? c).getD 0) digits
    some ⟨significand, exponent - places.length⟩

/-- A number with a fraction or an exponent, which is not beyond the largest one unless it is
negative; or infinity, or not a number. -/
def float? (word : List Char) : Option Json :=
  let body := unsigned word
  let value := Json.real (String.ofList word)
  if body = "inf".toList ∨ body = "nan".toList then some value
  else
    match decimalFloat? body with
    | none => none
    | some d => if Binary64.overflows d && word.head? ≠ some '-' then none else some value

/-- The number of digits, all decimal. -/
def field? (width : Nat) (cs : List Char) : Option Nat :=
  if cs.length = width ∧ cs.all Char.isDigit then some (valueOf 10 cs) else none

def daysInMonth (year month : Nat) : Nat :=
  if month = 2 then
    if year % 4 = 0 ∧ (year % 100 ≠ 0 ∨ year % 400 = 0) then 29 else 28
  else if month = 4 ∨ month = 6 ∨ month = 9 ∨ month = 11 then 30
  else 31

def isDate (cs : List Char) : Bool :=
  match cs with
  | [y, e, a, r, '-', m, n, '-', d, f] =>
    match field? 4 [y, e, a, r], field? 2 [m, n], field? 2 [d, f] with
    | some year, some month, some day =>
      1 ≤ month && month ≤ 12 && 1 ≤ day && day ≤ daysInMonth year month
    | _, _, _ => false
  | _ => false

def isClock (cs : List Char) : Bool :=
  match cs with
  | [h, i, ':', m, n] =>
    match field? 2 [h, i], field? 2 [m, n] with
    | some hour, some minute => hour ≤ 23 && minute ≤ 59
    | _, _ => false
  | _ => false

/-- Drops the zeros at the end. -/
def dropZeros (digits : List Char) : List Char :=
  (digits.reverse.dropWhile (· == '0')).reverse

/-- A fraction of a second in its shortest form; digits behind the ninth are cut off. -/
def fractionText? (cs : List Char) : Option (List Char) :=
  match cs with
  | [] => some []
  | '.' :: digits =>
    if digits ≠ [] ∧ digits.all Char.isDigit then
      match dropZeros (digits.take 9) with
      | [] => some []
      | kept => some ('.' :: kept)
    else none
  | _ => none

/-- Hours, minutes and seconds, with an optional fraction of a second. -/
def timeText? (cs : List Char) : Option (List Char) :=
  match (cs.drop 5).take 3 with
  | [':', s, t] => do
    let second ← field? 2 [s, t]
    let fraction ← fractionText? (cs.drop 8)
    if isClock (cs.take 5) && second ≤ 60 then some (cs.take 8 ++ fraction) else none
  | _ => none

def isOffsetStart (c : Char) : Bool := c == 'Z' || c == 'z' || c == '+' || c == '-'

/-- An offset from universal time; a zero offset has a plus sign. -/
def offsetText? (cs : List Char) : Option (List Char) :=
  match cs with
  | [] => some []
  | ['Z'] => some ['Z']
  | ['z'] => some ['Z']
  | '+' :: clock => if isClock clock then some ('+' :: clock) else none
  | '-' :: clock =>
    if isClock clock then some ((if clock = "00:00".toList then '+' else '-') :: clock) else none
  | _ => none

/-- The common form of a date, a time, or both with an optional offset from universal time. -/
def dateTimeText? (word : List Char) : Option (List Char) :=
  if isDate word then some word
  else
    match timeText? word with
    | some time => some time
    | none =>
      match word.drop 10 with
      | mark :: rest => do
        let time ← timeText? (rest.takeWhile fun c => !isOffsetStart c)
        let offset ← offsetText? (rest.dropWhile fun c => !isOffsetStart c)
        if isDate (word.take 10) && (mark == 'T' || mark == 't' || mark == ' ') then
          some (word.take 10 ++ 'T' :: time ++ offset)
        else none
      | [] => none

/-- The one member of the record that a date stands for. -/
def dateMember : String := "$__toml_private_datetime"

/-- A date or a time as a record of its text. -/
def dateTime? (word : List Char) : Option Json :=
  (dateTimeText? word).map fun text => .obj [(dateMember, .str (String.ofList text))]

/-- The value of a word that is no string. -/
def word? (word : List Char) : Option Json :=
  if word = "true".toList then some (.bool true)
  else if word = "false".toList then some (.bool false)
  else
    match dateTime? word, integer? word with
    | some date, _ => some date
    | none, some n => some n
    | none, none => float? word

end LateBind.Toml
