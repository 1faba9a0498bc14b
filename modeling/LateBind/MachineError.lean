import LateBind.Value

/-! What can stop a simulated program. -/

namespace LateBind

/-- What an instruction wants of an operand. -/
inductive Expectation
  | numeric | comparable | pinnable | integer | int32Operands | int32 | functionPointer | nativeInt
  deriving DecidableEq, Repr

def Expectation.display : Expectation → String
  | numeric => "numeric operands"
  | comparable => "comparable operands"
  | pinnable => "integer or pinnable reference"
  | integer => "integer"
  | int32Operands => "int32 operands"
  | int32 => "int32"
  | functionPointer => "function pointer"
  | nativeInt => "native int"

/-- What the machine has no answer to. -/
inductive Gap
  | noLayout (type : TypeRef)
  | unresolvedType (name : TypeName)
  /-- A struct that holds itself has no size. Adding up its fields does not return, as nothing there looks
  for such a struct; this fault takes the place of a run without end. -/
  | endlessLayout (name : TypeName)
  | cannotStore (kind : ValueKind) (type : TypeRef)
  | cannotPass (kind : ValueKind) (type : TypeRef)
  | noArgument (index : UInt16) (method : String)
  | noLocal (index : UInt16) (method : String)
  | noLocalToStore (index : UInt16)
  | endOfCode (method : String)
  | strayEndfinally (method : String)
  | returnInFinally (method : String)
  | danglingObject (object : ObjRef)
  | thrownObjectGone (object : ObjRef)
  | notArray (found : String)
  | notString (found : String)
  | notType (found : String)
  | notPointer (found : ValueKind)
  | noAddress (className : String)
  | cannotPin (className : String)
  deriving DecidableEq, Repr

def Gap.message : Gap → String
  | noLayout type => "no native layout for " ++ type.display
  | unresolvedType name => "unresolved type " ++ name.display
  | endlessLayout name => "endless layout of " ++ name.display
  | cannotStore kind type => "cannot store " ++ kind.display ++ " as " ++ type.display
  | cannotPass kind type => "cannot pass " ++ kind.display ++ " as " ++ type.display
  | noArgument index method => "no argument " ++ toString index ++ " in " ++ method
  | noLocal index method => "no local " ++ toString index ++ " in " ++ method
  | noLocalToStore index => "no local " ++ toString index
  | endOfCode method => "fell off the end of " ++ method
  | strayEndfinally method => "endfinally outside a finally block in " ++ method
  | returnInFinally method => "ret inside a finally block of " ++ method
  | danglingObject object => "dangling object #" ++ toString object.index
  | thrownObjectGone object => "thrown object #" ++ toString object.index ++ " is gone"
  | notArray found => found ++ " is not an array"
  | notString found => found ++ " is not a string"
  | notType found => found ++ " is not a type"
  | notPointer found => "expected a native int, found " ++ found.display
  | noAddress className => "cannot take the address of " ++ className
  | cannotPin className => "cannot pin " ++ className

/-- What went wrong between managed and native code. -/
inductive NativeMismatch
  | shortBytes (available : Nat) (type : TypeRef) (size : Nat)
  | returned (value : NativeValue) (type : TypeRef)
  /-- As native code itself tells it. -/
  | told (message : String)
  deriving DecidableEq, Repr

def NativeMismatch.message : NativeMismatch → String
  | shortBytes available type size =>
    toString available ++ " bytes available for " ++ type.display ++ " of size " ++ toString size
  | returned value type => "native code returned " ++ value.display ++ " for " ++ type.display
  | told message => message

/-- A failure that stops the program. A managed exception is one only when no caller is left. -/
inductive MachineError
  | unhandled (className message : String)
  | missingMethod (method : String)
  | missingBody (method : String)
  | missingField (field : String)
  | typeMismatch (method : String) (pc : Nat) (expected : Expectation) (found : ValueKind)
  | stackUnderflow (method : String) (pc : Nat)
  | badLabel (method : String)
  | invalidAddress (address : UInt64)
  | doubleFree (address : UInt64)
  | invalidFree (address : UInt64)
  | native (cause : NativeMismatch)
  | unsupported (gap : Gap)
  | typeInitializer (type : TypeName) (cause : MachineError)
  /-- The steps granted to the run are used up, which says nothing about a longer run. -/
  | outOfFuel
  deriving DecidableEq, Repr

def addressText (address : UInt64) : String := "0x" ++ Hex.ofNat address.toNat

def MachineError.message : MachineError → String
  | unhandled className message => "unhandled " ++ className ++ ": " ++ message
  | missingMethod method => "method not found: " ++ method
  | missingBody method => "method " ++ method ++ " has no body"
  | missingField field => "static field not found: " ++ field
  | typeMismatch method pc expected found =>
    "type mismatch at " ++ method ++ "+" ++ toString pc ++ ": expected " ++ expected.display ++
      ", found " ++ found.display
  | stackUnderflow method pc => "evaluation stack underflow at " ++ method ++ "+" ++ toString pc
  | badLabel method => "branch to unknown label in " ++ method
  | invalidAddress address => "invalid native address " ++ addressText address
  | doubleFree address => "double free of native block " ++ addressText address
  | invalidFree address => "free of unknown native block " ++ addressText address
  | native cause => "native fault: " ++ cause.message
  | unsupported gap => "unsupported: " ++ gap.message
  | typeInitializer type cause =>
    "type initializer for " ++ type.display ++ " failed: " ++ cause.message
  | outOfFuel => "out of fuel"

end LateBind
