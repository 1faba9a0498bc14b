import LateBind.Instr
import LateBind.Uuid

/-! Modules: type definitions with their fields and methods, import stubs among them, and the
definitions from other modules that are there for resolution only. -/

namespace LateBind

inductive Visibility
  | pub
  | priv
  /-- Seen inside the defining assembly. -/
  | assembly
  deriving DecidableEq, Repr

inductive TypeKind
  | classType
  /-- A value type, laid out as the sequence of its instance fields. -/
  | structType
  | delegate
  | enum (underlying : Primitive)
  | interface
  deriving DecidableEq, Repr

/-- The native representations that a marshalling annotation can ask for. -/
inductive NativeType
  /-- Four bytes. -/
  | bool
  | i1 | u1 | i2 | u2 | i4 | u4 | i8 | u8
  | r4 | r8
  | sysInt | sysUInt
  /-- One byte a character, ended by zero. -/
  | lpStr
  /-- UTF-16, ended by zero. -/
  | lpwStr
  /-- A string as the platform has it. -/
  | lptStr
  | bStr
  | lpArray | safeArray | byValArray
  | functionPtr
  | struct
  | interface
  | iUnknown
  | customMarshaler
  deriving DecidableEq, Repr

/-- The name of a native representation in diagnostics. -/
def NativeType.display : NativeType → String
  | bool => "Bool"
  | i1 => "I1"
  | u1 => "U1"
  | i2 => "I2"
  | u2 => "U2"
  | i4 => "I4"
  | u4 => "U4"
  | i8 => "I8"
  | u8 => "U8"
  | r4 => "R4"
  | r8 => "R8"
  | sysInt => "SysInt"
  | sysUInt => "SysUInt"
  | lpStr => "LPStr"
  | lpwStr => "LPWStr"
  | lptStr => "LPTStr"
  | bStr => "BStr"
  | lpArray => "LPArray"
  | safeArray => "SafeArray"
  | byValArray => "ByValArray"
  | functionPtr => "FunctionPtr"
  | struct => "Struct"
  | interface => "Interface"
  | iUnknown => "IUnknown"
  | customMarshaler => "CustomMarshaler"

/-- A marshalling annotation on a parameter, a return value or a field. -/
structure MarshalInfo where
  native : NativeType
  /-- Representation of the elements of a native array. -/
  element : Option NativeType
  /-- The type that a custom marshaler is made from. -/
  customMarshaler : Option String
  deriving DecidableEq, Repr

namespace MarshalInfo

def plain (native : NativeType) : MarshalInfo := ⟨native, none, none⟩

/-- A native array of the given elements. -/
def arrayOf (element : NativeType) : MarshalInfo := ⟨.lpArray, some element, none⟩

end MarshalInfo

/-- The calling convention that an import declares. -/
inductive ImportConv
  /-- The platform's own. -/
  | winapi
  | cdecl | stdCall | thisCall | fastCall
  /-- Convention bits without a name. -/
  | other (bits : UInt16)
  deriving DecidableEq, Repr

/-- The string mode that an import declares. -/
inductive CharSet
  | notSpecified | ansi | unicode | auto
  deriving DecidableEq, Repr

/-- What makes a method an import stub. -/
structure Import where
  /-- The library of the symbol, as declared. -/
  library : String
  /-- The symbol; the method's own name when absent. -/
  entryPoint : Option String
  convention : ImportConv
  charSet : CharSet
  exactSpelling : Bool
  setLastError : Bool
  deriving DecidableEq, Repr

structure FieldDef where
  name : String
  type : TypeRef
  isStatic : Bool
  isReadonly : Bool
  visibility : Visibility
  marshal : Option MarshalInfo
  deriving DecidableEq, Repr

structure ParamDef where
  name : String
  type : TypeRef
  marshal : Option MarshalInfo
  deriving DecidableEq, Repr

structure MethodFlags where
  aggressiveInlining : Bool
  noInlining : Bool
  /-- Set on constructors and type initialisers. -/
  specialName : Bool
  hideBySig : Bool
  /-- The runtime supplies the body. -/
  runtimeManaged : Bool
  deriving DecidableEq, Repr

def MethodFlags.none : MethodFlags := ⟨false, false, false, false, false⟩

structure MethodDef where
  name : String
  params : List ParamDef
  returnType : TypeRef
  returnMarshal : Option MarshalInfo
  isStatic : Bool
  visibility : Visibility
  flags : MethodFlags
  /-- Present on import stubs only. -/
  importInfo : Option Import
  body : Option Body
  deriving DecidableEq, Repr

namespace MethodDef

def isStub (m : MethodDef) : Bool := m.importInfo.isSome

def paramTypes (m : MethodDef) : List TypeRef := m.params.map ParamDef.type

/-- Name and parameter types agree; within a type they tell methods apart. -/
def sameSignature (m n : MethodDef) : Bool :=
  m.name == n.name && m.paramTypes == n.paramTypes

def signature (m : MethodDef) : String :=
  m.returnType.display ++ " " ++ m.name ++ "(" ++ TypeRef.displayList m.paramTypes ++ ")"

end MethodDef

structure TypeDef where
  name : TypeName
  kind : TypeKind
  visibility : Visibility
  isAbstract : Bool
  isSealed : Bool
  beforeFieldInit : Bool
  base : Option TypeRef
  fields : List FieldDef
  methods : List MethodDef
  deriving DecidableEq, Repr

inductive MemberKind
  | field | method
  deriving DecidableEq, Repr

def MemberKind.display : MemberKind → String
  | field => "field"
  | method => "method"

/-- Why a module could not be changed. -/
inductive MemberError
  | typeNotFound (name : TypeName)
  | duplicate (kind : MemberKind) (owner : TypeName) (name : String)
  deriving DecidableEq, Repr

def MemberError.message : MemberError → String
  | typeNotFound name => "type " ++ name.display ++ " not found in module"
  | duplicate kind owner name =>
    "duplicate " ++ kind.display ++ " '" ++ name ++ "' in type " ++ owner.display

namespace TypeDef

def isValueType (t : TypeDef) : Bool :=
  match t.kind with
  | .structType | .enum _ => true
  | _ => false

def field? (t : TypeDef) (name : String) : Option FieldDef :=
  t.fields.find? (·.name == name)

def method? (t : TypeDef) (name : String) : Option MethodDef :=
  t.methods.find? (·.name == name)

def hasMember (t : TypeDef) (name : String) : Bool :=
  (t.field? name).isSome || (t.method? name).isSome

/-- Appends a field; within a type no two have one name. -/
def addField (t : TypeDef) (field : FieldDef) : Except MemberError TypeDef :=
  if (t.field? field.name).isSome then .error (.duplicate .field t.name field.name)
  else .ok { t with fields := t.fields ++ [field] }

/-- Appends a method; within a type no two have one signature. -/
def addMethod (t : TypeDef) (method : MethodDef) : Except MemberError TypeDef :=
  if t.methods.any (·.sameSignature method) then
    .error (.duplicate .method t.name method.signature)
  else .ok { t with methods := t.methods ++ [method] }

end TypeDef

/-- The place of a method among a module's own types. -/
structure MethodHandle where
  typeIndex : Nat
  methodIndex : Nat
  deriving DecidableEq, Repr

structure Module where
  name : String
  /-- Another one whenever the module has changed. -/
  mvid : Uuid
  assemblyRefs : List String
  types : List TypeDef
  /-- Definitions from other modules, for resolution only. -/
  references : List TypeDef
  deriving DecidableEq, Repr

/-- A method of a module with its place and its declaring type. -/
structure LocatedMethod where
  handle : MethodHandle
  owner : TypeDef
  method : MethodDef

/-- A method with the name of its declaring type. -/
structure OwnedMethod where
  owner : TypeName
  method : MethodDef
  deriving DecidableEq, Repr

def OwnedMethod.qualifiedName (o : OwnedMethod) : String :=
  o.owner.display ++ "::" ++ o.method.name

namespace Module

def empty (name : String) (mvid : Uuid) : Module := ⟨name, mvid, [], [], []⟩

/-- The module's own definitions come before those of its references. -/
def findType? (m : Module) (name : TypeName) : Option TypeDef :=
  (m.types ++ m.references).find? (·.name == name)

/-- The place of an own definition. -/
def typeIndex? (m : Module) (name : TypeName) : Option Nat :=
  m.types.findIdx? (·.name == name)

/-- Changes the first own type of a name. -/
def modifyType (m : Module) (name : TypeName) (f : TypeDef → Except MemberError TypeDef) :
    Except MemberError Module :=
  match m.typeIndex? name with
  | none => .error (.typeNotFound name)
  | some i =>
    match m.types[i]? with
    | none => .error (.typeNotFound name)
    | some t => (f t).map fun t => { m with types := m.types.set i t }

/-- The first own type of a name. -/
def ownType? (m : Module) (name : TypeName) : Option TypeDef :=
  m.types.find? (·.name == name)

/-- The first method with the given parameter types in the first own type of a name. -/
def resolveMethod? (m : Module) (owner : TypeName) (name : String) (params : List TypeRef) :
    Option OwnedMethod := do
  let t ← m.ownType? owner
  let method ← t.methods.find? fun method => method.name == name && method.paramTypes == params
  return ⟨t.name, method⟩

/-- The first method of a name in the first own type of a name. -/
def firstMethod? (m : Module) (owner : TypeName) (name : String) : Option OwnedMethod := do
  let t ← m.ownType? owner
  let method ← t.method? name
  return ⟨t.name, method⟩

/-- Changes the method at a place, if there is one. -/
def modifyMethod (m : Module) (h : MethodHandle) (f : MethodDef → MethodDef) : Module :=
  { m with
    types := m.types.modify h.typeIndex fun t =>
      { t with methods := t.methods.modify h.methodIndex f } }

/-- The methods of the module's own types, in order. -/
def methods (m : Module) : List LocatedMethod :=
  m.types.zipIdx.flatMap fun (t, i) =>
    t.methods.zipIdx.map fun (method, j) => ⟨⟨i, j⟩, t, method⟩

def methodCount (m : Module) : Nat := m.methods.length

/-- How many methods still are import stubs. -/
def stubCount (m : Module) : Nat := (m.methods.filter (·.method.isStub)).length

end Module

end LateBind
