import LateBind.Json.Value

/-! Tables of a TOML document while it is read. How a table came to be decides what may still be
added to it. -/

namespace LateBind.Toml

inductive Origin
  /-- Named by a header of its own. -/
  | header
  /-- Only passed through on the way to a named table. -/
  | implicit
  /-- Made by a dotted key. -/
  | dotted
  deriving DecidableEq

inductive Item
  | value (json : Json)
  | table (origin : Origin) (entries : List (String × Item))
  /-- Tables of one name, each begun by its own header. -/
  | tables (elements : List (List (String × Item)))

abbrev Entries := List (String × Item)

namespace Entries

/-- Replaces the entry of a key in its place, or appends it. -/
def put (entries : Entries) (key : String) (item : Item) : Entries :=
  if entries.any (·.1 == key) then entries.map fun e => if e.1 == key then (key, item) else e
  else entries ++ [(key, item)]

/-- Applies a change to the table at a path. Tables that are missing on the way are made; a dotted
key does not enter a table that has a header. -/
def modifyAt (viaDots : Bool) (change : Origin → Entries → Option Entries) :
    List String → Origin → Entries → Option Entries
  | [], origin, entries => change origin entries
  | key :: path, _, entries =>
    match entries.lookup key with
    | none => do
      let origin := if viaDots then Origin.dotted else Origin.implicit
      let inner ← modifyAt viaDots change path origin []
      some (put entries key (.table origin inner))
    | some (.value _) => none
    | some (.table origin inner) =>
      if viaDots && origin == .header then none
      else do
        let inner ← modifyAt viaDots change path origin inner
        some (put entries key (.table origin inner))
    | some (.tables elements) =>
      match elements.getLast? with
      | none => none
      | some last => do
        let last ← modifyAt viaDots change path .header last
        some (put entries key (.tables (elements.dropLast ++ [last])))

/-- Adds a value under a dotted key. A table made by dotted keys takes further values by dotted keys
only, and other tables by plain keys only. -/
def insert (path : List String) (key : String) (value : Json) (origin : Origin)
    (entries : Entries) : Option Entries :=
  modifyAt true (fun inner entries =>
    if (inner == .dotted) == path.isEmpty then none
    else if entries.any (·.1 == key) then none
    else some (entries ++ [(key, .value value)])) path origin entries

/-- Begins the table of a header. A table has one header. -/
def beginTable (path : List String) (key : String) (entries : Entries) : Option Entries :=
  modifyAt false (fun _ entries =>
    match entries.lookup key with
    | none => some (entries ++ [(key, .table .header [])])
    | some (.table .implicit inner) => some (put entries key (.table .header inner))
    | some _ => none) path .header entries

/-- Begins another table of a header in double brackets. -/
def beginElement (path : List String) (key : String) (entries : Entries) : Option Entries :=
  modifyAt false (fun _ entries =>
    match entries.lookup key with
    | none => some (entries ++ [(key, .tables [[]])])
    | some (.tables elements) => some (put entries key (.tables (elements ++ [[]])))
    | some _ => none) path .header entries

end Entries

mutual

def Item.toJson : Item → Json
  | .value j => j
  | .table _ entries => .obj (membersOf entries)
  | .tables elements => .arr (elementsOf elements)

def membersOf : List (String × Item) → List (String × Json)
  | [] => []
  | (key, item) :: rest => (key, item.toJson) :: membersOf rest

def elementsOf : List (List (String × Item)) → List Json
  | [] => []
  | entries :: rest => .obj (membersOf entries) :: elementsOf rest

end

end LateBind.Toml
