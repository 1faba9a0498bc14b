import LateBind.Config
import LateBind.Emitter
import LateBind.Module

/-! Why the stubs of a module cannot be bound late. -/

namespace LateBind

/-- Why a parameter or a return value cannot cross to native code. -/
inductive SlotFault
  | byReferenceTarget
  | unfit (asked : NativeType)
  | unfitElement (asked : NativeType)
  | multiDimensional
  | elements
  | voidAnnotated
  | byReferenceReturn
  | arrayReturn
  | charWidth
  | noPlan
  | customMarshaler
  | notStatic
  deriving DecidableEq, Repr

def SlotFault.message : SlotFault → String
  | byReferenceTarget => "by-reference slots must refer to a blittable value"
  | unfit asked => "annotation " ++ asked.display ++ " does not fit"
  | unfitElement asked => "element annotation " ++ asked.display ++ " does not fit"
  | multiDimensional => "multi-dimensional arrays are not supported"
  | elements => "array elements are not blittable"
  | voidAnnotated => "void return cannot be annotated"
  | byReferenceReturn => "by-reference returns are not supported"
  | arrayReturn => "array returns are not supported"
  | charWidth => "char has no fixed native width"
  | noPlan => "type has no marshalling plan"
  | customMarshaler => "custom marshalers are not supported"
  | notStatic => "import stubs must be static"

/-- What emitting code can fail on. -/
inductive GenerationFault
  | body (error : EmitError)
  | member (error : MemberError)
  deriving DecidableEq, Repr

def GenerationFault.message : GenerationFault → String
  | body error => error.message
  | member error => error.message

inductive BindError
  | unresolvedType (name : TypeName)
  | unsupportedSignature (method : String) (type : TypeRef) (fault : SlotFault)
  | unknownConvention (method : String) (bits : UInt16)
  | missingLibrary (method library : String)
  | helperTypeConflict (name : TypeName)
  | emit (context : String) (fault : GenerationFault)
  | config (fault : Config.Fault)
  deriving DecidableEq, Repr

def BindError.message : BindError → String
  | unresolvedType name =>
    "unresolved type: " ++ name.display ++ " (the assembly defining it was not loaded)"
  | unsupportedSignature method type fault =>
    "unsupported signature in " ++ method ++ ": " ++ type.display ++ " (" ++ fault.message ++ ")"
  | unknownConvention method bits =>
    "unknown calling convention Other(" ++ toString bits ++ ") on " ++ method
  | missingLibrary method library =>
    "no library loader planned for " ++ library ++ " (needed by " ++ method ++ ")"
  | helperTypeConflict name =>
    "helper type " ++ name.display ++ " already exists but import stubs remain to be rewritten"
  | emit context fault => "failed to emit " ++ context ++ ": " ++ fault.message
  | config fault => fault.message

end LateBind
