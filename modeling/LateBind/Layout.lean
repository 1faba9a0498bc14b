import LateBind.Blittable
import LateBind.MachineError

/-! How values lie in native memory and cross to native code. A struct is the sequence of its
instance fields, each at the next multiple of its alignment; pointers have eight bytes. -/

namespace LateBind

/-- Bytes that a value takes, and the alignment of its place. -/
structure Extent where
  size : Nat
  align : Nat
  deriving DecidableEq, Repr

/-- The next multiple of a positive number. -/
def roundUp (n step : Nat) : Nat := (n + step - 1) / step * step

namespace Extent

def ofPointer : Extent := ⟨8, 8⟩

/-- The extent of what lies before the first field. -/
def start : Extent := ⟨0, 1⟩

/-- Puts a field behind what is there. -/
def append (e field : Extent) : Extent :=
  ⟨roundUp e.size field.align + field.size, max e.align field.align⟩

/-- A finished struct takes one byte or more, and a multiple of its alignment. -/
def finish (e : Extent) : Extent := ⟨roundUp (max e.size 1) e.align, e.align⟩

end Extent

def Primitive.extent (p : Primitive) : Except MachineError Extent :=
  match p.size? with
  | some size => .ok ⟨size, size⟩
  | none => .error (.unsupported (.noLayout (.primitive p)))

namespace Module

mutual

/-- The extent of a named type; `active` holds the structs that it is a part of. A struct among them has
no extent: to add up its fields would never come to an end, and the answer for it here only stands for
that. -/
def namedExtent (m : Module) (active : List TypeName) (name : TypeName) :
    Except MachineError Extent :=
  if _fresh : name ∈ active then .error (.unsupported (.endlessLayout name))
  else
    match _found : m.findType? name with
    | none => .error (.unsupported (.unresolvedType name))
    | some t =>
      match t.kind with
      | .enum underlying => underlying.extent
      | .structType =>
        (fieldsExtent m (name :: active) .start (t.fields.filter fun f => !f.isStatic)).map
          Extent.finish
      | .classType | .delegate | .interface => .ok .ofPointer
termination_by (m.definitionsOutside active, 0, 0)
decreasing_by exact Prod.Lex.left _ _ (definitionsOutside_cons_lt _found _fresh)

/-- The extent of the fields that follow others. -/
def fieldsExtent (m : Module) (active : List TypeName) (before : Extent) :
    List FieldDef → Except MachineError Extent
  | [] => .ok before
  | f :: rest =>
    let field := match f.type with
      | .named name => namedExtent m active name
      | .primitive p => p.extent
      | .pointer _ | .array _ _ | .byRef _ => .ok .ofPointer
    match field with
    | .ok field => fieldsExtent m active (before.append field) rest
    | .error e => .error e
termination_by fields => (m.definitionsOutside active, 1, fields.length)

end

/-- The extent of a value stored in place. -/
def extent (m : Module) : TypeRef → Except MachineError Extent
  | .named name => m.namedExtent [] name
  | .primitive p => p.extent
  | .pointer _ | .array _ _ | .byRef _ => .ok .ofPointer

def size (m : Module) (t : TypeRef) : Except MachineError Nat := (m.extent t).map Extent.size

/-- An enum stands for its underlying type. -/
def represent (m : Module) (t : TypeRef) : TypeRef :=
  match t with
  | .named name =>
    match (m.findType? name).map TypeDef.kind with
    | some (.enum underlying) => .primitive underlying
    | _ => t
  | _ => t

def isStruct (m : Module) (name : TypeName) : Bool :=
  (m.findType? name).any (·.kind == .structType)

/-- The value of a new variable. -/
def defaultValue (m : Module) (t : TypeRef) : Value :=
  match m.represent t with
  | .primitive p =>
    match p with
    | .i64 | .u64 => .i64 0
    | .f32 | .f64 => .f64 .zero
    | .intPtr | .uintPtr => .ptr 0
    | .string | .object | .void => .null
    | .boolean | .char | .i8 | .u8 | .i16 | .u16 | .i32 | .u32 => .i32 0
  | .pointer _ => .ptr 0
  | .named name =>
    if m.isStruct name then
      let size := match m.size (.named name) with
        | .ok size => size
        | .error _ => 0
      .struct (List.replicate size 0)
    else .null
  | .array _ _ | .byRef _ => .null

/-- The bytes of a value in a place of a type. Integers of any width go into any number or pointer,
cut to its size. -/
def encode (m : Module) (t : TypeRef) (v : Value) : Except MachineError Bytes := do
  let t := m.represent t
  let size ← m.size t
  let refused := .error (.unsupported (.cannotStore v.kind t))
  match t, v with
  | .primitive .f32, .f64 x => .ok (Bytes.ofNat 4 x.narrow.toNat)
  | .primitive .f64, .f64 x => .ok (Bytes.ofWord x.bits)
  | .named _, .struct bytes => if bytes.length = size then .ok bytes else refused
  | .primitive _, v | .pointer _, v =>
    match v.toPointer? with
    | some word => .ok (Bytes.ofNat size word.toNat)
    | none => refused
  | _, _ => refused

/-- The value in a place of a type, read from the bytes that start there. -/
def decode (m : Module) (t : TypeRef) (bytes : Bytes) : Except MachineError Value := do
  let t := m.represent t
  let size ← m.size t
  if bytes.length < size then throw (.native (.shortBytes bytes.length t size))
  let word := Bytes.toNat (bytes.take (min size 8))
  match t with
  | .primitive p =>
    match p with
    | .boolean | .u8 | .char | .u16 | .i32 | .u32 => return .i32 (Int32.ofNat word)
    | .i8 => return .i32 (Int8.ofNat word).toInt32
    | .i16 => return .i32 (Int16.ofNat word).toInt32
    | .i64 | .u64 => return .i64 (Int64.ofNat word)
    | .f32 => return .f64 (Binary64.widen (UInt32.ofNat word))
    | .f64 => return .f64 ⟨UInt64.ofNat word⟩
    | .intPtr | .uintPtr => return .ptr (UInt64.ofNat word)
    | .void | .string | .object => throw (.unsupported (.noLayout t))
  | .pointer _ => return .ptr (UInt64.ofNat word)
  | .named _ => return .struct (bytes.take size)
  | .array _ _ | .byRef _ => throw (.unsupported (.noLayout t))

/-- The native argument for a managed value. -/
def toNative (m : Module) (t : TypeRef) (v : Value) : Except MachineError NativeValue :=
  let t := m.represent t
  let refused := .error (.unsupported (.cannotPass v.kind t))
  let pointer := match v.toPointer? with
    | some p => .ok (.ptr p)
    | none => refused
  match t with
  | .primitive p =>
    match p, v with
    | .i64, .i64 v | .u64, .i64 v => .ok (.i64 v)
    | .i64, .i32 v | .u64, .i32 v => .ok (.i64 v.toInt64)
    | .f32, .f64 v | .f64, .f64 v => .ok (.f64 v)
    | .intPtr, _ | .uintPtr, _ => pointer
    | p, .i32 v => if p.size?.any (· ≤ 4) then .ok (.i32 v) else refused
    | _, _ => refused
  | .pointer _ => pointer
  | .named _ =>
    match v with
    | .struct bytes => .ok (.struct bytes)
    | _ => refused
  | .array _ _ | .byRef _ => refused

/-- Cuts a native integer to the width of a small type. -/
def narrowTo (p : Primitive) (v : Int32) : Int32 :=
  match p with
  | .u8 | .boolean => v &&& 0xFF
  | .i8 => v.toInt8.toInt32
  | .u16 | .char => v &&& 0xFFFF
  | .i16 => v.toInt16.toInt32
  | _ => v

/-- The managed value for a native result; void has none. -/
def ofNative (m : Module) (t : TypeRef) (v : NativeValue) : Except MachineError (Option Value) :=
  if t.isVoid then .ok none
  else
    let t := m.represent t
    let refused := .error (.native (.returned v t))
    let wrap (value : Option Value) := match value with
      | some value => .ok (some value)
      | none => refused
    match t with
    | .primitive p =>
      match p, v with
      | .i64, _ | .u64, _ => wrap (v.toInt64?.map .i64)
      | .f32, .f64 x | .f64, .f64 x => .ok (some (.f64 x))
      | .intPtr, _ | .uintPtr, _ => wrap (v.toPointer?.map .ptr)
      | p, .i32 n => .ok (some (.i32 (narrowTo p n)))
      | _, _ => refused
    | .pointer _ => wrap (v.toPointer?.map .ptr)
    | .named _ =>
      match v with
      | .struct bytes => (m.decode t bytes).map some
      | _ => refused
    | .array _ _ | .byRef _ => refused

end Module

end LateBind
