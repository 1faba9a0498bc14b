import LateBind.Image

/-! Files: what a program may do with them, and a directory tree on which it can be run. -/

namespace LateBind

/-- Why a file could not be read or written. -/
inductive FileFault
  | notFound
  | notDirectory
  | isDirectory
  | nameTooLong
  | zeroInName
  | invalidText
  | other (detail : String)
  deriving DecidableEq, Repr

def FileFault.message : FileFault → String
  | notFound => "No such file or directory (os error 2)"
  | notDirectory => "Not a directory (os error 20)"
  | isDirectory => "Is a directory (os error 21)"
  | nameTooLong => "File name too long (os error 36)"
  | zeroInName => "file name contained an unexpected NUL byte"
  | invalidText => "stream did not contain valid UTF-8"
  | other detail => detail

/-- Reading and writing whole files. -/
structure FileAccess (m : Type → Type) where
  read : String → m (Except FileFault Bytes)
  write : String → Bytes → m (Except FileFault Unit)

inductive FileEntry
  | file (content : Bytes)
  | directory
  deriving DecidableEq, Repr

/-- Where something stands: the names on the way from the directory that a tree fills. What lies
outside starts with ".." for each level above, or with "/" for the topmost directory. -/
abbrev FilePlace := List String

namespace FilePlace

def isAbove (place : FilePlace) : Bool := place.all fun name => name == ".." || name == "/"

/-- The directory that a place is in; the topmost one is its own. -/
def parent (place : FilePlace) : FilePlace :=
  if place = ["/"] then place
  else if place.isAbove then place ++ [".."]
  else place.dropLast

end FilePlace

/-- The entries of a directory and of those below it. -/
abbrev FileTree := List (FilePlace × FileEntry)

namespace FileTree

/-- The parts of a path between its slashes. -/
def partsOf (path : String) : List String :=
  ((path.toList.splitOn '/').map String.ofList).filter (· ≠ "")

def startOf (path : String) : FilePlace := if path.startsWith "/" then ["/"] else []

/-- What is wrong with a path in any tree. -/
def pathFault? (path : String) : Option FileFault :=
  if path.contains '\x00' then some .zeroInName
  else if path.isEmpty then some .notFound
  else if 4096 ≤ path.utf8ByteSize then some .nameTooLong
  else none

/-- Of the directories outside a tree no entries are known. -/
def entry? (tree : FileTree) (place : FilePlace) : Option FileEntry :=
  if place.isAbove then some .directory else tree.lookup place

/-- Goes from place to place by the parts of a path. Each part is looked up in a directory, but the
last one need not be there. -/
def walk (tree : FileTree) : FilePlace → List String → Except FileFault FilePlace
  | place, [] => .ok place
  | place, part :: rest =>
    match tree.entry? place with
    | none => .error .notFound
    | some (.file _) => .error .notDirectory
    | some .directory =>
      if part = "." then tree.walk place rest
      else if part = ".." then tree.walk place.parent rest
      else if 255 < part.utf8ByteSize then .error .nameTooLong
      else tree.walk (place ++ [part]) rest

/-- A slash at the end of a path asks for a directory, as a dot behind it does. -/
def read (tree : FileTree) (path : String) : Except FileFault Bytes := do
  if let some fault := pathFault? path then throw fault
  let parts := partsOf path
  let place ← tree.walk (startOf path) (if path.endsWith "/" then parts ++ ["."] else parts)
  match tree.entry? place with
  | none => throw .notFound
  | some .directory => throw .isDirectory
  | some (.file content) => return content

/-- Replaces the file of a path, or adds it to its directory. With a slash at its end a path cannot
name a file, whatever is there. -/
def write (tree : FileTree) (path : String) (content : Bytes) : Except FileFault FileTree := do
  if let some fault := pathFault? path then throw fault
  let parts := partsOf path
  if path.endsWith "/" then
    let _ ← tree.walk (startOf path) (parts.dropLast ++ ["."])
    throw .isDirectory
  let place ← tree.walk (startOf path) parts
  match tree.entry? place with
  | some .directory => throw .isDirectory
  | _ => return (place, .file content) :: tree.filter fun e => e.1 ≠ place

/-- Access to the files of a tree. -/
def access : FileAccess (StateM FileTree) where
  read path := fun tree => (tree.read path, tree)
  write path content := fun tree =>
    match tree.write path content with
    | .ok tree => (.ok (), tree)
    | .error fault => (.error fault, tree)

end FileTree

end LateBind
