import LateBind.Toml.Number
import LateBind.Toml.Table
import LateBind.Toml.Text

/-! Reading TOML documents into records. -/

namespace LateBind.Toml

abbrev Reader := List Char → Option (Json × List Char)

/-- The characters that end a word. -/
def isWordEnd (c : Char) : Bool :=
  c == ' ' || c == '\t' || c == '\n' || c == '\r' || c == ',' || c == ']' || c == '\x7d' || c == '#'

/-- A number, a truth value or a date; a blank may stand between a date and a time. -/
def readWord (cs : List Char) : Option (Json × List Char) :=
  let word := cs.takeWhile fun c => !isWordEnd c
  let rest := cs.dropWhile fun c => !isWordEnd c
  let single := (word? word).map fun j => (j, rest)
  match rest with
  | ' ' :: more =>
    let time := more.takeWhile fun c => !isWordEnd c
    match isDate word, dateTime? (word ++ ' ' :: time) with
    | true, some date => some (date, more.dropWhile fun c => !isWordEnd c)
    | _, _ => single
  | _ => single

/-- The items of an array up to its closing bracket; a comma may follow the last one. -/
def readItems (value : Reader) : Nat → List Char → Option (List Json × List Char)
  | 0, _ => none
  | fuel + 1, cs =>
    match skipLines cs.length cs with
    | ']' :: rest => some ([], rest)
    | cs => do
      let (item, rest) ← value cs
      match skipLines rest.length rest with
      | ']' :: rest => some ([item], rest)
      | ',' :: rest =>
        let (items, rest) ← readItems value fuel rest
        some (item :: items, rest)
      | _ => none

/-- A key, an equals sign and a value. -/
def readPair (value : Reader) (cs : List Char) :
    Option ((List String × String × Json) × List Char) := do
  let (key, rest) ← readKey cs
  match key.getLast?, skipBlanks rest with
  | some last, '=' :: rest =>
    let (j, rest) ← value (skipBlanks rest)
    some ((key.dropLast, last, j), rest)
  | _, _ => none

/-- The pairs of an inline table, of which there is one at least. -/
def readPairs (value : Reader) : Nat → Entries → List Char → Option (Entries × List Char)
  | 0, _, _ => none
  | fuel + 1, entries, cs => do
    let ((path, key, j), rest) ← readPair value cs
    let entries ← entries.insert path key j .header
    match skipBlanks rest with
    | '\x7d' :: rest => some (entries, rest)
    | ',' :: rest => readPairs value fuel entries rest
    | _ => none

/-- A value in which arrays and inline tables stand at most `depth` deep in one another. -/
def readValue : Nat → Reader
  | 0, _ => none
  | depth + 1, cs =>
    match cs with
    | '"' :: _ => (readText cs).map fun (s, rest) => (.str s, rest)
    | '\'' :: _ => (readText cs).map fun (s, rest) => (.str s, rest)
    | '[' :: rest =>
      (readItems (readValue depth) (rest.length + 1) rest).map fun (items, rest) =>
        (.arr items, rest)
    | '\x7b' :: rest =>
      match skipBlanks rest with
      | '\x7d' :: rest => some (.obj [], rest)
      | rest =>
        (readPairs (readValue depth) (rest.length + 1) [] rest).map fun (entries, rest) =>
          (.obj (membersOf entries), rest)
    | cs => readWord cs

/-- The document read so far, and the path of the table that takes the next pairs. -/
structure Document where
  entries : Entries
  current : List String

/-- A header: its path, its last key, and what is behind the brackets. -/
def readHeader (cs : List Char) : Option ((List String × String) × List Char) := do
  let (key, rest) ← readKey cs
  match key.getLast?, rest with
  | some last, ']' :: rest => some ((key.dropLast, last), rest)
  | _, _ => none

def Document.readLine (doc : Document) (cs : List Char) : Option (Document × List Char) :=
  match skipBlanks cs with
  | '[' :: '[' :: rest => do
    let ((path, key), rest) ← readHeader rest
    match rest with
    | ']' :: rest =>
      let entries ← doc.entries.beginElement path key
      some (⟨entries, path ++ [key]⟩, ← lineEnd? rest)
    | _ => none
  | '[' :: rest => do
    let ((path, key), rest) ← readHeader rest
    let entries ← doc.entries.beginTable path key
    some (⟨entries, path ++ [key]⟩, ← lineEnd? rest)
  | rest => do
    let ((path, key, j), rest) ← readPair (readValue maxDepth) rest
    let entries ← Entries.modifyAt false (fun origin entries => entries.insert path key j origin)
      doc.current .header doc.entries
    some (⟨entries, doc.current⟩, ← lineEnd? rest)

def Document.readLines : Nat → Document → List Char → Option Document
  | 0, _, _ => none
  | fuel + 1, doc, cs =>
    match skipLines cs.length cs with
    | [] => some doc
    | cs => do
      let (doc, rest) ← doc.readLine cs
      readLines fuel doc rest

/-- The record that a document stands for. -/
def parse? (text : String) : Option Json :=
  let cs := match text.toList with
    | '\uFEFF' :: rest => rest
    | cs => cs
  (Document.readLines (cs.length + 1) ⟨[], []⟩ cs).map fun doc => .obj (membersOf doc.entries)

end LateBind.Toml
