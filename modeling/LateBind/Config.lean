import LateBind.Text.CharClass
import LateBind.Toml.Parser
import LateBind.TypeName

/-! Settings of late binding: the name of the helper type, the flags of the loader, other names for
libraries, and the types that are left alone. -/

namespace LateBind

structure Config where
  helperType : TypeName
  /-- Handed to the loader on Unix. -/
  loadFlags : Int32
  /-- From the declared name of a library to the name that is loaded. -/
  aliases : List (String × String)
  /-- Full names of the types whose stubs stay declarative. -/
  excludedTypes : List String
  deriving DecidableEq, Repr

namespace Config

/-- Binds symbols lazily. -/
def defaultLoadFlags : Int32 := 1

def default : Config := ⟨⟨"", "PInvokeHelpers"⟩, defaultLoadFlags, [], []⟩

/-- What makes settings unfit. -/
inductive Fault
  | typeName (name : String)
  | typeNamespace (space : String)
  | emptyAlias (library : String)
  deriving DecidableEq, Repr

def Fault.message (fault : Fault) : String :=
  "invalid configuration: " ++ match fault with
    | typeName name => "helper-type.name '" ++ name ++ "' is not a valid type name"
    | typeNamespace space => "helper-type.namespace '" ++ space ++ "' is not a valid namespace"
    | emptyAlias library => "library alias for '" ++ library ++ "' must name a library"

/-- A letter or an underscore, then letters, numerals and underscores. -/
def isIdentifier (cs : List Char) : Bool :=
  match cs with
  | [] => false
  | c :: rest =>
    (Text.isAlphabetic c || c == '_') && rest.all fun c => Text.isAlphanumeric c || c == '_'

/-- Dotted identifiers, or nothing at all. -/
def isNamespace (space : String) : Bool :=
  space.isEmpty || (space.toList.splitOn '.').all isIdentifier

def fault? (c : Config) : Option Fault :=
  if !isIdentifier c.helperType.name.toList then some (.typeName c.helperType.name)
  else if !isNamespace c.helperType.space then some (.typeNamespace c.helperType.space)
  else
    (c.aliases.find? fun (library, loaded) => library.isEmpty || loaded.isEmpty).map
      fun (library, _) => .emptyAlias library

def excludedNames (c : Config) : List TypeName := c.excludedTypes.map TypeName.parse

/-- The name under which a declared library is loaded. -/
def loadName (c : Config) (library : String) : String :=
  (c.aliases.lookup library).getD library

/-- The name of the helper type; both parts have defaults. With `spare`, an array may have more
items than there are parts. -/
def helperTypeOfJson? (spare : Bool) (j : Json) : Option TypeName := do
  let names := ["namespace", "name"]
  let members ← match spare, j with
    | true, .arr items => some (names.zip items)
    | _, j => j.record? names
  let space ← Members.withDefault members "namespace" default.helperType.space Json.str?
  let name ← Members.withDefault members "name" default.helperType.name Json.str?
  some ⟨space, name⟩

def aliasesOfJson? (j : Json) : Option (List (String × String)) := do
  (← j.members?).mapM fun (library, loaded) => loaded.str?.map fun loaded => (library, loaded)

/-- Every setting has a default, and what is not a setting is passed over. -/
def ofJson? (spare : Bool) (j : Json) : Option Config := do
  let members ← j.record? ["helper-type", "dlopen-flags", "library-aliases", "excluded-types"]
  let helperType ←
    Members.withDefault members "helper-type" default.helperType (helperTypeOfJson? spare)
  let loadFlags ← Members.withDefault members "dlopen-flags" default.loadFlags Json.int32?
  let aliases ← Members.withDefault members "library-aliases" [] aliasesOfJson?
  let excludedTypes ← Members.withDefault members "excluded-types" [] (Json.list? Json.str?)
  some ⟨helperType, loadFlags, aliases, excludedTypes⟩

/-- Why a text holds no settings. -/
inductive ParseError
  | notSettings
  | invalid (fault : Fault)
  deriving DecidableEq, Repr

/-- Reads settings from TOML and checks them. -/
def parse (text : String) : Except ParseError Config :=
  match (Toml.parse? text).bind (ofJson? true) with
  | none => .error .notSettings
  | some c =>
    match c.fault? with
    | some fault => .error (.invalid fault)
    | none => .ok c

end Config

end LateBind
