import LateBind.Instr

/-! Members of the framework's library that generated code calls. -/

namespace LateBind.Framework

def marshal : TypeName := ⟨"System.Runtime.InteropServices", "Marshal"⟩
def stringType : TypeName := ⟨"System", "String"⟩
def environment : TypeName := ⟨"System", "Environment"⟩
def runtimeHelpers : TypeName := ⟨"System.Runtime.CompilerServices", "RuntimeHelpers"⟩
def type : TypeName := ⟨"System", "Type"⟩
def exception : TypeName := ⟨"System", "Exception"⟩
def delegate : TypeName := ⟨"System", "Delegate"⟩
def multicastDelegate : TypeName := ⟨"System", "MulticastDelegate"⟩
def runtimeTypeHandle : TypeName := ⟨"System", "RuntimeTypeHandle"⟩
def valueType : TypeName := ⟨"System", "ValueType"⟩
def enumType : TypeName := ⟨"System", "Enum"⟩

def allocHGlobal : MethodRef := .static marshal "AllocHGlobal" [.i32] .intPtr

def freeHGlobal : MethodRef := .static marshal "FreeHGlobal" [.intPtr] .void

def ptrToStringAnsi : MethodRef := .static marshal "PtrToStringAnsi" [.intPtr] .string

def ptrToStringUni : MethodRef := .static marshal "PtrToStringUni" [.intPtr] .string

def stringToHGlobalAnsi : MethodRef := .static marshal "StringToHGlobalAnsi" [.string] .intPtr

def stringToHGlobalUni : MethodRef := .static marshal "StringToHGlobalUni" [.string] .intPtr

def functionPointerForDelegate : MethodRef :=
  .static marshal "GetFunctionPointerForDelegate" [.named delegate] .intPtr

def delegateForFunctionPointer : MethodRef :=
  .static marshal "GetDelegateForFunctionPointer" [.intPtr, .named type] (.named delegate)

def stringEquals : MethodRef := .static stringType "op_Equality" [.string, .string] .boolean

def stringConcat : MethodRef := .static stringType "Concat" [.string, .string] .string

def stringLength : MethodRef := ⟨stringType, "get_Length", [], .i32, true⟩

def stringChars : MethodRef := ⟨stringType, "get_Chars", [.i32], .char, true⟩

def newLine : MethodRef := .static environment "get_NewLine" [] .string

/-- The distance from the start of a string object to its first character. -/
def offsetToStringData : MethodRef := .static runtimeHelpers "get_OffsetToStringData" [] .i32

def typeFromHandle : MethodRef :=
  .static type "GetTypeFromHandle" [.named runtimeTypeHandle] (.named type)

/-- Makes an exception from its message. -/
def exceptionCtor : MethodRef := .constructor exception [.string]

end LateBind.Framework
