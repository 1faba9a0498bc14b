import LateBind.Primitive
import LateBind.TypeName

/-! Types as signatures, fields, locals and operands mention them. -/

namespace LateBind

inductive TypeRef
  | primitive (p : Primitive)
  /-- Defined by the module or one of its references. -/
  | named (name : TypeName)
  /-- Unmanaged pointer. -/
  | pointer (target : TypeRef)
  /-- Rank 1 is a vector that starts at index zero. -/
  | array (element : TypeRef) (rank : UInt32)
  /-- Managed reference. -/
  | byRef (target : TypeRef)
  deriving DecidableEq, Repr

namespace TypeRef

def void : TypeRef := primitive .void
def boolean : TypeRef := primitive .boolean
def char : TypeRef := primitive .char
def u8 : TypeRef := primitive .u8
def i32 : TypeRef := primitive .i32
def i64 : TypeRef := primitive .i64
def f64 : TypeRef := primitive .f64
def intPtr : TypeRef := primitive .intPtr
def string : TypeRef := primitive .string
def object : TypeRef := primitive .object

def vector (element : TypeRef) : TypeRef := array element 1

/-- A named type from its dotted name. -/
def ofFullName (full : String) : TypeRef := named (TypeName.parse full)

def isVoid (t : TypeRef) : Bool := t == void

def isByRef : TypeRef → Bool
  | byRef _ => true
  | _ => false

/-- The type behind one managed reference, or the type itself. -/
def stripByRef : TypeRef → TypeRef
  | byRef target => target
  | t => t

def array? : TypeRef → Option (TypeRef × UInt32)
  | array element rank => some (element, rank)
  | _ => none

def name? : TypeRef → Option TypeName
  | named name => some name
  | _ => none

/-- An array shows one comma fewer than its rank. -/
def display : TypeRef → String
  | primitive p => p.display
  | named name => name.display
  | pointer target => target.display ++ "*"
  | array element rank =>
    element.display ++ "[" ++ String.ofList (List.replicate (rank.toNat - 1) ',') ++ "]"
  | byRef target => target.display ++ "&"

/-- Types of a parameter list, separated by commas. -/
def displayList (types : List TypeRef) : String :=
  ", ".intercalate (types.map display)

end TypeRef

end LateBind
