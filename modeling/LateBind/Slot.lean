import LateBind.Blittable

/-! Slots of import stubs, that is parameters and return values, and how each crosses to native
code. -/

namespace LateBind

inductive StringEncoding
  /-- One byte a character, ended by zero. -/
  | ansi
  /-- UTF-16 units, ended by zero. -/
  | unicode
  deriving DecidableEq, Repr

inductive BoolWidth
  | int32
  | byte
  deriving DecidableEq, Repr

inductive SlotPlan
  /-- The same on both sides. -/
  | direct
  | ansiString
  | unicodeString
  /-- Pinned, and passed as the address of its first element. -/
  | blittableArray
  /-- Each element is copied, and their addresses are passed in an array. -/
  | stringArray (encoding : StringEncoding)
  /-- Passed as a function pointer. -/
  | delegate
  /-- Pinned, and passed as the address of the referent. -/
  | byRef
  /-- Passed as 0 or 1. -/
  | boolean (width : BoolWidth)
  deriving DecidableEq, Repr

namespace SlotPlan

/-- The type that stands for a managed type in native code. -/
def nativeType (plan : SlotPlan) (managed : TypeRef) : TypeRef :=
  match plan with
  | direct => managed
  | boolean .int32 => .i32
  | boolean .byte => .u8
  | ansiString | unicodeString | blittableArray | stringArray _ | delegate | byRef => .intPtr

def ofString : StringEncoding → SlotPlan
  | .ansi => ansiString
  | .unicode => unicodeString

def isStringArray : SlotPlan → Bool
  | stringArray _ => true
  | _ => false

def display : SlotPlan → String
  | direct => "direct"
  | ansiString => "ansi-string"
  | unicodeString => "unicode-string"
  | blittableArray => "blittable-array"
  | stringArray .ansi => "string-array(ansi)"
  | stringArray .unicode => "string-array(unicode)"
  | delegate => "delegate"
  | byRef => "by-ref"
  | boolean .int32 => "bool-to-int32"
  | boolean .byte => "bool-to-byte"

end SlotPlan

/-- An annotation decides first, then the declared string mode, and ANSI is left. -/
def StringEncoding.choose (asked : Option NativeType) (charSet : CharSet) : StringEncoding :=
  match asked with
  | some .lpStr | some .lptStr => .ansi
  | some .lpwStr => .unicode
  | _ =>
    match charSet with
    | .unicode => .unicode
    | .ansi | .auto | .notSpecified => .ansi

/-- The stub that a slot belongs to. -/
structure SlotContext where
  method : String
  charSet : CharSet

namespace SlotContext

def reject {α : Type} (cx : SlotContext) (t : TypeRef) (fault : SlotFault) : Inquiry α :=
  throw (.unsupportedSignature cx.method t fault)

/-- What an annotation asks for; custom marshalers are refused. -/
def asked (cx : SlotContext) (t : TypeRef) :
    Option MarshalInfo → Inquiry (Option NativeType)
  | none => pure none
  | some info =>
    if info.native = .customMarshaler ∨ info.customMarshaler.isSome then
      cx.reject t .customMarshaler
    else pure (some info.native)

end SlotContext

namespace Primitive

/-- The annotation that asks for what a number is anyway. -/
def naturalNative? : Primitive → Option NativeType
  | i8 => some .i1
  | u8 => some .u1
  | i16 => some .i2
  | u16 => some .u2
  | i32 => some .i4
  | u32 => some .u4
  | i64 => some .i8
  | u64 => some .u8
  | f32 => some .r4
  | f64 => some .r8
  | intPtr => some .sysInt
  | uintPtr => some .sysUInt
  | void | boolean | char | string | object => none

end Primitive

namespace Module

/-- Whether an annotation asks for what a type is anyway. -/
def isNaturalNative (m : Module) (native : NativeType) : TypeRef → Except BindError Bool
  | .primitive p => .ok (p.naturalNative? == some native)
  | .named name =>
    if native = .struct then (m.resolve name).map (·.isValueType) else .ok false
  | .pointer _ => .ok (native == .sysInt || native == .sysUInt)
  | .array _ _ | .byRef _ => .ok false

/-- Refuses an annotation that asks for something else than what a type is. -/
def checkNatural (m : Module) (cx : SlotContext) (slot t : TypeRef) :
    Option NativeType → Inquiry Unit
  | none => pure ()
  | some native => do
    if !(← m.isNaturalNative native t) then cx.reject slot (.unfit native)

/-- Booleans, strings, delegates and values, the same for parameters and return values. -/
def planValue (m : Module) (cx : SlotContext) (t : TypeRef) (asked : Option NativeType) :
    Inquiry SlotPlan := do
  if t = .boolean then
    match asked with
    | none | some .bool | some .i4 | some .u4 => return .boolean .int32
    | some .i1 | some .u1 => return .boolean .byte
    | some native => cx.reject t (.unfit native)
  else if t = .string then
    match asked with
    | none | some .lpStr | some .lptStr | some .lpwStr =>
      return .ofString (.choose asked cx.charSet)
    | some native => cx.reject t (.unfit native)
  else if t = .char then cx.reject t .charWidth
  else if ← m.isDelegate t then
    match asked with
    | none | some .functionPtr => return .delegate
    | some native => cx.reject t (.unfit native)
  else if ← m.isBlittable t then
    m.checkNatural cx t t asked
    return .direct
  else cx.reject t .noPlan

def planByRef (m : Module) (cx : SlotContext) (target : TypeRef) (asked : Option NativeType) :
    Inquiry SlotPlan := do
  let slot := TypeRef.byRef target
  if target.array?.isSome then cx.reject slot .byReferenceTarget
  else if ← m.isBlittable target then
    m.checkNatural cx slot target asked
    return .byRef
  else cx.reject slot .byReferenceTarget

/-- An array of strings may be annotated as an array of one of the string forms. -/
def planStringArray (cx : SlotContext) (slot : TypeRef) (marshal : Option MarshalInfo) :
    Inquiry SlotPlan := do
  let element ← match marshal with
    | none => pure none
    | some info =>
      if info.native = .lpArray then pure info.element
      else cx.reject slot (.unfit info.native)
  match element with
  | none | some .lpStr | some .lptStr | some .lpwStr =>
    return .stringArray (.choose element cx.charSet)
  | some native => cx.reject slot (.unfitElement native)

def planArray (m : Module) (cx : SlotContext) (element : TypeRef) (rank : UInt32)
    (marshal : Option MarshalInfo) (asked : Option NativeType) : Inquiry SlotPlan := do
  let slot := TypeRef.array element rank
  if rank ≠ 1 then cx.reject slot .multiDimensional
  else if element = .string then planStringArray cx slot marshal
  else if ← m.isBlittable slot then
    match asked with
    | none => return .blittableArray
    | some native =>
      let elementFits ← match marshal.bind (·.element) with
        | none => pure true
        | some e => (m.isNaturalNative e element : Except BindError Bool)
      if native ≠ .lpArray || !elementFits then cx.reject slot (.unfit native)
      else return .blittableArray
  else cx.reject slot .elements

/-- How a parameter crosses. -/
def planParameter (m : Module) (cx : SlotContext) (param : ParamDef) : Inquiry SlotPlan := do
  let asked ← cx.asked param.type param.marshal
  match param.type with
  | .byRef target => m.planByRef cx target asked
  | .array element rank => m.planArray cx element rank param.marshal asked
  | t => m.planValue cx t asked

/-- How a return value crosses. -/
def planReturn (m : Module) (cx : SlotContext) (t : TypeRef) (marshal : Option MarshalInfo) :
    Inquiry SlotPlan := do
  let asked ← cx.asked t marshal
  if t.isVoid then
    if asked.isSome then cx.reject t .voidAnnotated else return .direct
  else if t.isByRef then cx.reject t .byReferenceReturn
  else if t.array?.isSome then cx.reject t .arrayReturn
  else m.planValue cx t asked

end Module

end LateBind
