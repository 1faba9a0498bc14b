/-! JSON values. Members keep their order, and a number that is no machine integer keeps its text.
What stands behind a name that nobody asks for may be malformed within bounds, so a value can also
be unreadable. -/

namespace LateBind

inductive Json
  | null
  | bool (value : Bool)
  | int (value : Int)
  /-- A fraction, a power of ten, or an integer beyond 64 bits. -/
  | real (literal : String)
  | str (text : String)
  | arr (items : List Json)
  | obj (members : List (String × Json))
  /-- Has the form of a value but stands for none: it may only be passed over. -/
  | unreadable
  deriving Inhabited

namespace Json

def nat (n : Nat) : Json := int n

def strs (texts : List String) : Json := arr (texts.map str)

def option {α : Type} (toJson : α → Json) : Option α → Json
  | none => null
  | some a => toJson a

def bool? : Json → Option Bool
  | bool b => some b
  | _ => none

def str? : Json → Option String
  | str s => some s
  | _ => none

def int? : Json → Option Int
  | int n => some n
  | _ => none

/-- An integer from `low` up to and without `high`. -/
def intIn? (low high : Int) : Json → Option Int
  | int n => if low ≤ n ∧ n < high then some n else none
  | _ => none

/-- A natural number below the bound. -/
def natBelow? (bound : Nat) : Json → Option Nat
  | int n => if 0 ≤ n ∧ n < bound then some n.toNat else none
  | _ => none

def uint8? (j : Json) : Option UInt8 := (j.natBelow? 0x100).map UInt8.ofNat

def uint16? (j : Json) : Option UInt16 := (j.natBelow? 0x10000).map UInt16.ofNat

def uint32? (j : Json) : Option UInt32 := (j.natBelow? 0x100000000).map UInt32.ofNat

def int32? (j : Json) : Option Int32 := (j.intIn? (-0x80000000) 0x80000000).map Int32.ofInt

def int64? (j : Json) : Option Int64 :=
  (j.intIn? (-0x8000000000000000) 0x8000000000000000).map Int64.ofInt

/-- A position in a sequence, which fits a machine word. -/
def position? (j : Json) : Option Nat := j.natBelow? 0x10000000000000000

def items? : Json → Option (List Json)
  | arr items => some items
  | _ => none

def list? {α : Type} (decode : Json → Option α) (j : Json) : Option (List α) :=
  j.items?.bind (·.mapM decode)

/-- A value, or null for its absence. -/
def nullable? {α : Type} (decode : Json → Option α) : Json → Option (Option α)
  | null => some none
  | j => (decode j).map some

def members? : Json → Option (List (String × Json))
  | obj members => some members
  | _ => none

/-- The member of a name; other values than objects have none. -/
def member? (j : Json) (name : String) : Option Json :=
  j.members?.bind (·.lookup name)

mutual

/-- Whether every part of a value can be read. -/
def isReadable : Json → Bool
  | unreadable => false
  | arr items => areReadable items
  | obj members => membersReadable members
  | null => true
  | bool _ => true
  | int _ => true
  | real _ => true
  | str _ => true

def areReadable : List Json → Bool
  | [] => true
  | j :: rest => j.isReadable && areReadable rest

def membersReadable : List (String × Json) → Bool
  | [] => true
  | (_, j) :: rest => j.isReadable && membersReadable rest

end

/-- The known members of a record. They may also stand in an array, in order; members that are not
known are passed over, and one that comes twice is refused. -/
def record? (names : List String) : Json → Option (List (String × Json))
  | obj members =>
    let known := members.filter fun (name, _) => names.contains name
    if (known.map Prod.fst).Nodup then some known else none
  | arr items => if items.length ≤ names.length then some (names.zip items) else none
  | _ => none

/-- A choice among named alternatives: the name alone, or an object of that one member. -/
def variant? : Json → Option (String × Option Json)
  | str name => some (name, none)
  | obj [(name, content)] => some (name, some content)
  | _ => none

/-- The name of an alternative that holds nothing. -/
def unitVariant? (j : Json) : Option String :=
  match j.variant? with
  | some (name, none) => some name
  | some (name, some null) => some name
  | _ => none

/-- How a value came to the reader, which decides how loosely the content of an alternative is
taken. -/
inductive Source
  /-- Out of text, member by member. -/
  | text
  /-- Read as a whole beforehand, and held with its members in alphabetical order. -/
  | tree
  /-- Set aside while something behind it was read. -/
  | aside
  deriving DecidableEq, Repr

/-- The name of an alternative that holds nothing; in a value set aside this may also be told by an
empty object. -/
def unitVariantFrom? (source : Source) (j : Json) : Option String :=
  match source, j with
  | .aside, obj [(name, obj [])] => some name
  | _, j => j.unitVariant?

/-- The members of a record that is the content of an alternative. A value read as a whole does not
give them in an array. -/
def contentFrom? (source : Source) (names : List String) (j : Json) :
    Option (List (String × Json)) :=
  match source, j with
  | .tree, arr _ => none
  | _, j => j.record? names

end Json

/-- Members of a record by name. -/
abbrev Members := List (String × Json)

namespace Members

variable {α : Type}

def required (members : Members) (name : String) (decode : Json → Option α) : Option α :=
  (members.lookup name).bind decode

def withDefault (members : Members) (name : String) (default : α) (decode : Json → Option α) :
    Option α :=
  match members.lookup name with
  | none => some default
  | some j => decode j

/-- Absence and null both mean that there is no value. -/
def optional (members : Members) (name : String) (decode : Json → Option α) : Option (Option α) :=
  members.withDefault name none (Json.nullable? decode)

end Members

end LateBind
