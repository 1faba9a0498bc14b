import LateBind.Binary64
import LateBind.Json.Value
import LateBind.Text.Hex
import LateBind.Text.Units
import LateBind.Text.Utf8

/-! Reading JSON text. A reader takes symbols and gives a value with the symbols left over; text
without the form of JSON gives none. A part that has the form but stands for no value is read as
unreadable: text that is not Unicode, a number beyond the largest one, and containers too deep in
one another. -/

namespace LateBind.Json

open Utf8 (Symbol)

def isBlank (c : Char) : Bool := c == ' ' || c == '\t' || c == '\n' || c == '\r'

def skipBlanks (cs : List Symbol) : List Symbol := cs.dropWhile fun c => c.any isBlank

/-! ## Strings -/

/-- What a single character stands for behind a backslash. -/
def simpleEscape? : Char → Option Char
  | '"' => some '"'
  | '\\' => some '\\'
  | '/' => some '/'
  | 'b' => some '\x08'
  | 'f' => some '\x0c'
  | 'n' => some '\n'
  | 'r' => some '\r'
  | 't' => some '\t'
  | _ => none

def unit? (a b c d : Symbol) : Option UInt16 := do
  (Hex.toNat? [← a, ← b, ← c, ← d]).map UInt16.ofNat

/-- Adds a character to those read, which stand last first. Nothing is kept of a string once a part
of it is no character. -/
def extend (seen : Option (List Char)) (c : Symbol) : Option (List Char) := do
  some ((← c) :: (← seen))

/-- The rest of a string behind its opening quote. A surrogate stands for a character only in a
pair. -/
def readString (seen : Option (List Char)) : List Symbol → Option (Option String × List Symbol)
  | some '"' :: rest => some (seen.map fun cs => String.ofList cs.reverse, rest)
  | some '\\' :: some 'u' :: a :: b :: c :: d :: rest =>
    match unit? a b c d with
    | none => none
    | some u =>
      if Units.isHighSurrogate u then
        match rest with
        | some '\\' :: some 'u' :: e :: f :: g :: h :: rest =>
          match unit? e f g h with
          | none => none
          | some v =>
            readString (if Units.isLowSurrogate v then extend seen (Units.pair u v) else none) rest
        | rest => readString none rest
      else if Units.isLowSurrogate u then readString none rest
      else readString (extend seen (Char.ofNat u.toNat)) rest
  | some '\\' :: some c :: rest =>
    match simpleEscape? c with
    | none => none
    | some c => readString (extend seen (some c)) rest
  | some '\\' :: _ => none
  | c :: rest => if c.any (·.toNat < 0x20) then none else readString (extend seen c) rest
  | [] => none

/-! ## Numbers -/

def isDigit (c : Symbol) : Bool := c.any Char.isDigit

def digitValue (c : Char) : Nat := c.toNat - '0'.toNat

def digitsValue (cs : List Char) : Nat := cs.foldl (fun n c => 10 * n + digitValue c) 0

/-- One digit or more. -/
def digits1? (cs : List Symbol) : Option (List Char × List Symbol) :=
  match (cs.takeWhile isDigit).filterMap id with
  | [] => none
  | digits => some (digits, cs.dropWhile isDigit)

/-- The parts of a number as they are written. -/
structure Literal where
  negative : Bool
  whole : List Char
  fraction : List Char
  /-- The mark, the sign and the digits of the power of ten. -/
  power : List Char

namespace Literal

def exponent (l : Literal) : Int :=
  match l.power with
  | _ :: '-' :: digits => -(digitsValue digits : Int)
  | _ :: '+' :: digits => digitsValue digits
  | _ :: digits => digitsValue digits
  | [] => 0

/-- Appends digits to a number as long as it fits 64 bits; gives the digits left over too. -/
def gather (n : Nat) : List Char → Nat × List Char
  | [] => (n, [])
  | c :: rest =>
    let next := 10 * n + digitValue c
    if next < 0x10000000000000000 then gather next rest else (n, c :: rest)

/-- Whether the number is beyond the largest of 64 bits. Its significand and the power of ten are
rounded before they are multiplied. -/
def isTooLarge (l : Literal) : Bool :=
  let (n, spareWhole) := gather 0 l.whole
  let (n, spareFraction) := gather n l.fraction
  let exponent := l.exponent + spareWhole.length - (l.fraction.length - spareFraction.length : Nat)
  n ≠ 0 && 0 ≤ exponent &&
    (308 < exponent ||
      Binary64.bound ≤ Binary64.nearest n * Binary64.nearest (Nat.pow 10 exponent.toNat))

def text (l : Literal) : String :=
  let sign := if l.negative then ['-'] else []
  let fraction := if l.fraction.isEmpty then [] else '.' :: l.fraction
  String.ofList (sign ++ l.whole ++ fraction ++ l.power)

/-- The number that is written. Minus zero is no integer. -/
def toJson (l : Literal) : Json :=
  let n := digitsValue l.whole
  let isWhole := l.fraction.isEmpty && l.power.isEmpty
  if isWhole && !l.negative && n < 0x10000000000000000 then int n
  else if isWhole && l.negative && 0 < n && n ≤ 0x8000000000000000 then int (-n)
  else if l.isTooLarge then unreadable
  else real l.text

end Literal

def fraction? : List Symbol → Option (List Char × List Symbol)
  | some '.' :: rest => digits1? rest
  | cs => some ([], cs)

def power? : List Symbol → Option (List Char × List Symbol)
  | some c :: rest =>
    if c = 'e' ∨ c = 'E' then
      match rest with
      | some '+' :: rest => (digits1? rest).map fun (digits, rest) => (c :: '+' :: digits, rest)
      | some '-' :: rest => (digits1? rest).map fun (digits, rest) => (c :: '-' :: digits, rest)
      | rest => (digits1? rest).map fun (digits, rest) => (c :: digits, rest)
    else some ([], some c :: rest)
  | cs => some ([], cs)

/-- Integer digits have no leading zero. -/
def readUnsigned (negative : Bool) (cs : List Symbol) : Option (Json × List Symbol) := do
  let (whole, rest) ← digits1? cs
  if whole.head? = some '0' ∧ whole.length ≠ 1 then none
  else
    let (fraction, rest) ← fraction? rest
    let (power, rest) ← power? rest
    some (Literal.toJson ⟨negative, whole, fraction, power⟩, rest)

def readNumber : List Symbol → Option (Json × List Symbol)
  | some '-' :: rest => readUnsigned true rest
  | cs => readUnsigned false cs

/-! ## Values -/

def readScalar : List Symbol → Option (Json × List Symbol)
  | some 'n' :: some 'u' :: some 'l' :: some 'l' :: rest => some (null, rest)
  | some 't' :: some 'r' :: some 'u' :: some 'e' :: rest => some (bool true, rest)
  | some 'f' :: some 'a' :: some 'l' :: some 's' :: some 'e' :: rest => some (bool false, rest)
  | some '"' :: rest =>
    (readString (some []) rest).map fun (s, rest) => ((s.map str).getD unreadable, rest)
  | cs => readNumber cs

/-- Items up to the closing bracket; each takes a symbol at least, so `fuel` counts those left. -/
def readItems (item : List Symbol → Option (Json × List Symbol)) :
    Nat → List Symbol → Option (List Json × List Symbol)
  | 0, _ => none
  | fuel + 1, cs =>
    match item cs with
    | none => none
    | some (j, rest) =>
      match skipBlanks rest with
      | some ']' :: rest => some ([j], rest)
      | some ',' :: rest => (readItems item fuel rest).map fun (js, rest) => (j :: js, rest)
      | _ => none

/-- Members up to the closing brace; a name that is not text makes them unreadable. -/
def readMembers (item : List Symbol → Option (Json × List Symbol)) :
    Nat → List Symbol → Option (Option (List (String × Json)) × List Symbol)
  | 0, _ => none
  | fuel + 1, cs =>
    match skipBlanks cs with
    | some '"' :: rest =>
      match readString (some []) rest with
      | none => none
      | some (name, rest) =>
        match skipBlanks rest with
        | some ':' :: rest =>
          match item rest with
          | none => none
          | some (j, rest) =>
            match skipBlanks rest with
            | some '\x7d' :: rest => some (name.map fun name => [(name, j)], rest)
            | some ',' :: rest =>
              (readMembers item fuel rest).map fun (members, rest) =>
                (do some ((← name, j) :: (← members)), rest)
            | _ => none
        | _ => none
    | _ => none

/-- A value. Containers are readable at most `depth` deep in one another, and `fuel` is not below
the number of symbols. -/
def readValue : Nat → Nat → List Symbol → Option (Json × List Symbol)
  | 0, _, _ => none
  | fuel + 1, depth, cs =>
    let container (j : Json) := if depth = 0 then unreadable else j
    match skipBlanks cs with
    | some '[' :: rest =>
      match skipBlanks rest with
      | some ']' :: rest => some (container (arr []), rest)
      | rest =>
        (readItems (readValue fuel (depth - 1)) fuel rest).map fun (js, rest) =>
          (container (arr js), rest)
    | some '\x7b' :: rest =>
      match skipBlanks rest with
      | some '\x7d' :: rest => some (container (obj []), rest)
      | rest =>
        (readMembers (readValue fuel (depth - 1)) fuel rest).map fun (members, rest) =>
          (container ((members.map obj).getD unreadable), rest)
    | cs => readScalar cs

/-- The deepest nesting that is readable. -/
def maxDepth : Nat := 127

/-- The value that makes up the whole text, blanks around it apart. -/
def ofSymbols? (cs : List Symbol) : Option Json :=
  match readValue (cs.length + 1) maxDepth cs with
  | some (j, rest) => if skipBlanks rest = [] then some j else none
  | none => none

/-- A value every part of which can be read. -/
def parse? (text : String) : Option Json := do
  let j ← ofSymbols? (text.toList.map some)
  if j.isReadable then some j else none

end LateBind.Json
