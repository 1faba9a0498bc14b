/-! Built-in types, which mean the same in every module. -/

namespace LateBind

inductive Primitive
  | void | boolean | char
  | i8 | u8 | i16 | u16 | i32 | u32 | i64 | u64
  | intPtr | uintPtr
  | f32 | f64
  | string | object
  deriving DecidableEq, Repr

namespace Primitive

/-- Numbers and pointer-sized integers look the same on both sides of a native call. -/
def isNumericOrPointer : Primitive → Bool
  | i8 | u8 | i16 | u16 | i32 | u32 | i64 | u64 | intPtr | uintPtr | f32 | f64 => true
  | void | boolean | char | string | object => false

/-- Values that live on the managed heap. -/
def isReference : Primitive → Bool
  | string | object => true
  | _ => false

/-- Bytes of an unboxed value where a pointer has eight. -/
def size? : Primitive → Option Nat
  | void => none
  | boolean | i8 | u8 => some 1
  | char | i16 | u16 => some 2
  | i32 | u32 | f32 => some 4
  | i64 | u64 | f64 | intPtr | uintPtr | string | object => some 8

/-- The name in the framework's own library. -/
def systemName : Primitive → String
  | void => "System.Void"
  | boolean => "System.Boolean"
  | char => "System.Char"
  | i8 => "System.SByte"
  | u8 => "System.Byte"
  | i16 => "System.Int16"
  | u16 => "System.UInt16"
  | i32 => "System.Int32"
  | u32 => "System.UInt32"
  | i64 => "System.Int64"
  | u64 => "System.UInt64"
  | intPtr => "System.IntPtr"
  | uintPtr => "System.UIntPtr"
  | f32 => "System.Single"
  | f64 => "System.Double"
  | string => "System.String"
  | object => "System.Object"

def display : Primitive → String
  | void => "void"
  | boolean => "bool"
  | char => "char"
  | i8 => "int8"
  | u8 => "uint8"
  | i16 => "int16"
  | u16 => "uint16"
  | i32 => "int32"
  | u32 => "uint32"
  | i64 => "int64"
  | u64 => "uint64"
  | intPtr => "native int"
  | uintPtr => "native uint"
  | f32 => "float32"
  | f64 => "float64"
  | string => "string"
  | object => "object"

end Primitive

end LateBind
