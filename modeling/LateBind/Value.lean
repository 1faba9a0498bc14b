import LateBind.Binary64
import LateBind.Text.Hex
import LateBind.TypeRef

/-! Values of a running program: on the managed side, on the native side, and the managed objects
that values refer to. -/

namespace LateBind

/-- The number of an object among those of its session. -/
structure ObjRef where
  index : Nat
  deriving DecidableEq, Repr

/-- What a managed pointer points to. -/
inductive Address
  | element (array : ObjRef) (index : Nat)
  /-- The value in a box. -/
  | boxed (box : ObjRef)
  deriving DecidableEq, Repr

/-- A managed value. Booleans, characters and integers of up to four bytes are all `i32`, both float
widths are `f64`, and pointers of the native side and pointer-sized integers are `ptr`. -/
inductive Value
  | i32 (value : Int32)
  | i64 (value : Int64)
  | f64 (value : Binary64)
  | ptr (value : UInt64)
  | null
  | ref (object : ObjRef)
  | address (target : Address)
  /-- An instance of a value type, as it lies in native memory. -/
  | struct (bytes : Bytes)
  deriving DecidableEq, Repr

/-- The kinds of managed values that diagnostics tell apart. -/
inductive ValueKind
  | int32 | int64 | float | nativeInt | null | object | managedPointer | valueType
  deriving DecidableEq, Repr

def ValueKind.display : ValueKind → String
  | int32 => "int32"
  | int64 => "int64"
  | float => "float"
  | nativeInt => "native int"
  | null => "null"
  | object => "object"
  | managedPointer => "managed pointer"
  | valueType => "value type"

namespace Value

def ofBool (b : Bool) : Value := i32 (if b then 1 else 0)

def kind : Value → ValueKind
  | i32 _ => .int32
  | i64 _ => .int64
  | f64 _ => .float
  | ptr _ => .nativeInt
  | null => .null
  | ref _ => .object
  | address _ => .managedPointer
  | struct _ => .valueType

/-- What a conditional branch asks: neither zero nor null. -/
def isTrue : Value → Bool
  | i32 v => v ≠ 0
  | i64 v => v ≠ 0
  | f64 v => !v.isZero
  | ptr v => v ≠ 0
  | null => false
  | ref _ | address _ | struct _ => true

def toInt32? : Value → Option Int32
  | i32 v => some v
  | _ => none

/-- An integer of any width as a pointer, with its sign extended. -/
def toPointer? : Value → Option UInt64
  | ptr v => some v
  | i32 v => some v.toInt64.toUInt64
  | i64 v => some v.toUInt64
  | _ => none

def toBool? (v : Value) : Option Bool := v.toInt32?.map (· ≠ 0)

def display : Value → String
  | i32 v => toString v
  | i64 v => toString v ++ "L"
  | f64 v => v.display
  | ptr v => "0x" ++ Hex.ofNat v.toNat
  | null => "null"
  | ref r => "obj#" ++ toString r.index
  | address (.element array index) =>
    "&obj#" ++ toString array.index ++ "[" ++ toString index ++ "]"
  | address (.boxed box) => "&obj#" ++ toString box.index
  | struct bytes => "struct[" ++ toString bytes.length ++ "]"

end Value

/-- An object of the managed heap. -/
inductive Object
  | str (units : Units)
  | array (element : TypeRef) (items : Array Value)
  | exception (className message : String)
  /-- A delegate is known by its native entry point. -/
  | delegate (type : TypeRef) (target : UInt64)
  | type (type : TypeRef)
  | boxed (type : TypeRef) (value : Value)
  deriving DecidableEq, Repr

def Object.className : Object → String
  | str _ => "System.String"
  | array element _ => element.display ++ "[]"
  | exception className _ => className
  | delegate t _ => t.display
  | type _ => "System.Type"
  | boxed t _ => t.display

/-- Replaces an item of an array. -/
def Object.setItem (position : Nat) (v : Value) : Object → Object
  | array element items => array element (items.setIfInBounds position v)
  | o => o

/-- A value that crosses to or from native code. -/
inductive NativeValue
  | void
  | i32 (value : Int32)
  | i64 (value : Int64)
  | f64 (value : Binary64)
  | ptr (value : UInt64)
  | struct (bytes : Bytes)
  deriving DecidableEq, Repr

namespace NativeValue

def ofBool (b : Bool) : NativeValue := i32 (if b then 1 else 0)

def toInt32? : NativeValue → Option Int32
  | i32 v => some v
  | _ => none

def toInt64? : NativeValue → Option Int64
  | i64 v => some v
  | i32 v => some v.toInt64
  | _ => none

def toFloat? : NativeValue → Option Binary64
  | f64 v => some v
  | _ => none

def toPointer? : NativeValue → Option UInt64
  | ptr v => some v
  | _ => none

/-- The value with its kind, as diagnostics show it. -/
def display : NativeValue → String
  | void => "Void"
  | i32 v => "I32(" ++ toString v ++ ")"
  | i64 v => "I64(" ++ toString v ++ ")"
  | f64 v => "F64(" ++ v.displayExact ++ ")"
  | ptr v => "Ptr(" ++ toString v ++ ")"
  | struct bytes => "Struct([" ++ ", ".intercalate (bytes.map toString) ++ "])"

end NativeValue

end LateBind
