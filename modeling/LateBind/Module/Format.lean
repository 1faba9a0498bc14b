import LateBind.Json.Value
import LateBind.Module

/-! The JSON form of modules. Writing puts every member in a fixed order; reading takes members in
any order, passes over those it does not know, and fills in those that have a default. An operand
that stands before the name of its instruction is set aside, and then read more loosely. -/

namespace LateBind

open Json (Source)

/-- The alternative of a name, out of a list of all alternatives. -/
def namedAmong? {α : Type} (all : List α) (nameOf : α → String) (name : Option String) :
    Option α :=
  name.bind fun name => all.find? fun a => nameOf a == name

namespace Primitive

def all : List Primitive :=
  [void, boolean, char, i8, u8, i16, u16, i32, u32, i64, u64, intPtr, uintPtr, f32, f64, string,
    object]

def formatName : Primitive → String
  | void => "void"
  | boolean => "boolean"
  | char => "char"
  | i8 => "i8"
  | u8 => "u8"
  | i16 => "i16"
  | u16 => "u16"
  | i32 => "i32"
  | u32 => "u32"
  | i64 => "i64"
  | u64 => "u64"
  | intPtr => "int_ptr"
  | uintPtr => "u_int_ptr"
  | f32 => "f32"
  | f64 => "f64"
  | string => "string"
  | object => "object"

def toJson (p : Primitive) : Json := .str p.formatName

def ofJson? (source : Source) (j : Json) : Option Primitive :=
  namedAmong? all formatName (j.unitVariantFrom? source)

end Primitive

namespace TypeName

def toJson (t : TypeName) : Json := .obj [("namespace", .str t.space), ("name", .str t.name)]

def ofJson? (j : Json) : Option TypeName := do
  let members ← j.record? ["namespace", "name"]
  let space ← Members.required members "namespace" Json.str?
  let name ← Members.required members "name" Json.str?
  some ⟨space, name⟩

end TypeName

namespace TypeRef

def toJson : TypeRef → Json
  | primitive p => .obj [("Primitive", p.toJson)]
  | named name => .obj [("Named", name.toJson)]
  | pointer target => .obj [("Pointer", target.toJson)]
  | array element rank =>
    .obj [("Array", .obj [("element", element.toJson), ("rank", .nat rank.toNat)])]
  | byRef target => .obj [("ByRef", target.toJson)]

mutual

def ofJson? (source : Source) : Json → Option TypeRef
  | .obj [(name, content)] =>
    if name = "Primitive" then (Primitive.ofJson? source content).map primitive
    else if name = "Named" then (TypeName.ofJson? content).map named
    else if name = "Pointer" then (ofJson? source content).map pointer
    else if name = "ByRef" then (ofJson? source content).map byRef
    else if name = "Array" then arrayOfJson? source content
    else none
  | _ => none

/-- The element type and the rank of an array. -/
def arrayOfJson? (source : Source) : Json → Option TypeRef
  | .obj members => do
    let known ← (Json.obj members).record? ["element", "rank"]
    let rank ← Members.required known "rank" Json.uint32?
    let element ← elementOfMembers? source members
    some (array element rank)
  | .arr [element, rank] => do
    if source = .tree then none
    else
      let rank ← rank.uint32?
      let element ← ofJson? source element
      some (array element rank)
  | _ => none

def elementOfMembers? (source : Source) : List (String × Json) → Option TypeRef
  | [] => none
  | (name, j) :: rest =>
    if name = "element" then ofJson? source j else elementOfMembers? source rest

end

end TypeRef

namespace Label

def toJson (l : Label) : Json := .nat l.id.toNat

def ofJson? (j : Json) : Option Label := j.uint32?.map Label.mk

end Label

namespace MethodRef

def toJson (m : MethodRef) : Json :=
  .obj [("owner", m.owner.toJson), ("name", .str m.name),
    ("params", .arr (m.params.map TypeRef.toJson)), ("return_type", m.returnType.toJson),
    ("has_this", .bool m.hasThis)]

def ofJson? (source : Source) (j : Json) : Option MethodRef := do
  let members ← j.record? ["owner", "name", "params", "return_type", "has_this"]
  let owner ← Members.required members "owner" TypeName.ofJson?
  let name ← Members.required members "name" Json.str?
  let params ← Members.required members "params" (Json.list? (TypeRef.ofJson? source))
  let returnType ← Members.required members "return_type" (TypeRef.ofJson? source)
  let hasThis ← Members.withDefault members "has_this" false Json.bool?
  some ⟨owner, name, params, returnType, hasThis⟩

end MethodRef

namespace FieldRef

def toJson (f : FieldRef) : Json :=
  .obj [("owner", f.owner.toJson), ("name", .str f.name), ("ty", f.type.toJson)]

def ofJson? (source : Source) (j : Json) : Option FieldRef := do
  let members ← j.record? ["owner", "name", "ty"]
  let owner ← Members.required members "owner" TypeName.ofJson?
  let name ← Members.required members "name" Json.str?
  let type ← Members.required members "ty" (TypeRef.ofJson? source)
  some ⟨owner, name, type⟩

end FieldRef

namespace CallConv

def all : List CallConv := [cdecl, stdCall, thisCall, fastCall]

def formatName : CallConv → String
  | cdecl => "c"
  | stdCall => "std_call"
  | thisCall => "this_call"
  | fastCall => "fast_call"

def toJson (c : CallConv) : Json := .str c.formatName

def ofJson? (source : Source) (j : Json) : Option CallConv :=
  namedAmong? all formatName (j.unitVariantFrom? source)

end CallConv

namespace CallSite

def toJson (site : CallSite) : Json :=
  .obj [("convention", site.convention.toJson), ("return_type", site.returnType.toJson),
    ("params", .arr (site.params.map TypeRef.toJson))]

def ofJson? (source : Source) (j : Json) : Option CallSite := do
  let members ← j.record? ["convention", "return_type", "params"]
  let convention ← Members.required members "convention" (CallConv.ofJson? source)
  let returnType ← Members.required members "return_type" (TypeRef.ofJson? source)
  let params ← Members.required members "params" (Json.list? (TypeRef.ofJson? source))
  some ⟨convention, returnType, params⟩

end CallSite

namespace Instr

def formatName : Instr → String
  | ldarg _ => "ldarg"
  | ldloc _ => "ldloc"
  | stloc _ => "stloc"
  | ldcI4 _ => "ldc_i4"
  | ldcI8 _ => "ldc_i8"
  | ldnull => "ldnull"
  | ldstr _ => "ldstr"
  | ldsfld _ => "ldsfld"
  | stsfld _ => "stsfld"
  | dup => "dup"
  | pop => "pop"
  | add => "add"
  | sub => "sub"
  | cgtUn => "cgt_un"
  | convI => "conv_i"
  | convU => "conv_u"
  | convI4 => "conv_i4"
  | convU1 => "conv_u1"
  | br _ => "br"
  | brtrue _ => "brtrue"
  | brfalse _ => "brfalse"
  | blt _ => "blt"
  | switch _ => "switch"
  | leave _ => "leave"
  | endfinally => "endfinally"
  | call _ => "call"
  | calli _ => "calli"
  | newobj _ => "newobj"
  | newarr _ => "newarr"
  | ldlen => "ldlen"
  | ldelemI => "ldelem_i"
  | ldelemRef => "ldelem_ref"
  | stelemI => "stelem_i"
  | stelemI1 => "stelem_i1"
  | ldelema _ => "ldelema"
  | ldtoken _ => "ldtoken"
  | castclass _ => "castclass"
  | throw => "throw"
  | ret => "ret"

def operandJson? : Instr → Option Json
  | ldarg i | ldloc i | stloc i => some (.nat i.toNat)
  | ldcI4 v => some (.int v.toInt)
  | ldcI8 v => some (.int v.toInt)
  | ldstr s => some (.str s)
  | ldsfld f | stsfld f => some f.toJson
  | br l | brtrue l | brfalse l | blt l | leave l => some l.toJson
  | switch ls => some (.arr (ls.map Label.toJson))
  | call m | newobj m => some m.toJson
  | calli site => some site.toJson
  | newarr t | ldelema t | ldtoken t | castclass t => some t.toJson
  | _ => none

def toJson (i : Instr) : Json :=
  match i.operandJson? with
  | some operand => .obj [("op", .str i.formatName), ("arg", operand)]
  | none => .obj [("op", .str i.formatName)]

/-- The instructions without an operand. -/
def plain : List Instr :=
  [ldnull, dup, pop, add, sub, cgtUn, convI, convU, convI4, convU1, endfinally, ldlen, ldelemI,
    ldelemRef, stelemI, stelemI1, throw, ret]

/-- An instruction from its name and its operand. -/
def ofOperand? (source : Source) (name : String) (operand : Json) : Option Instr :=
  match name with
  | "ldarg" => operand.uint16?.map ldarg
  | "ldloc" => operand.uint16?.map ldloc
  | "stloc" => operand.uint16?.map stloc
  | "ldc_i4" => operand.int32?.map ldcI4
  | "ldc_i8" => operand.int64?.map ldcI8
  | "ldstr" => operand.str?.map ldstr
  | "ldsfld" => (FieldRef.ofJson? source operand).map ldsfld
  | "stsfld" => (FieldRef.ofJson? source operand).map stsfld
  | "br" => (Label.ofJson? operand).map br
  | "brtrue" => (Label.ofJson? operand).map brtrue
  | "brfalse" => (Label.ofJson? operand).map brfalse
  | "blt" => (Label.ofJson? operand).map blt
  | "switch" => (operand.list? Label.ofJson?).map switch
  | "leave" => (Label.ofJson? operand).map leave
  | "call" => (MethodRef.ofJson? source operand).map call
  | "calli" => (CallSite.ofJson? source operand).map calli
  | "newobj" => (MethodRef.ofJson? source operand).map newobj
  | "newarr" => (TypeRef.ofJson? source operand).map newarr
  | "ldelema" => (TypeRef.ofJson? source operand).map ldelema
  | "ldtoken" => (TypeRef.ofJson? source operand).map ldtoken
  | "castclass" => (TypeRef.ofJson? source operand).map castclass
  | _ => none

/-- An instruction without an operand may have the operand null. -/
def ofParts? (source : Source) (name : String) (operand : Option Json) : Option Instr :=
  match plain.find? (·.formatName == name), operand with
  | some instr, none => some instr
  | some instr, some .null => some instr
  | some _, some _ => none
  | none, some operand => ofOperand? source name operand
  | none, none => none

/-- An object has its members in any order. An operand that comes first is set aside until the name
is read, and then no part of it may be unreadable. An array has the name and the operand. -/
def ofJson? (source : Source) (j : Json) : Option Instr :=
  match j with
  | .arr [.str name, operand] => ofParts? source name (some operand)
  | .obj _ => do
    let members ← j.record? ["op", "arg"]
    let name ← Members.required members "op" Json.unitVariant?
    match members with
    | ("arg", operand) :: _ => if operand.isReadable then ofParts? .aside name operand else none
    | _ => ofParts? (if source = .tree then .aside else source) name (members.lookup "arg")
  | _ => none

end Instr

namespace Local

def toJson (l : Local) : Json := .obj [("ty", l.type.toJson), ("pinned", .bool l.pinned)]

def ofJson? (source : Source) (j : Json) : Option Local := do
  let members ← j.record? ["ty", "pinned"]
  let type ← Members.required members "ty" (TypeRef.ofJson? source)
  let pinned ← Members.withDefault members "pinned" false Json.bool?
  some ⟨type, pinned⟩

end Local

namespace Region

def toJson (r : Region) : Json :=
  .obj [("try_start", .nat r.tryStart), ("try_end", .nat r.tryEnd),
    ("finally_start", .nat r.finallyStart), ("finally_end", .nat r.finallyEnd)]

def ofJson? (j : Json) : Option Region := do
  let members ← j.record? ["try_start", "try_end", "finally_start", "finally_end"]
  let tryStart ← Members.required members "try_start" Json.position?
  let tryEnd ← Members.required members "try_end" Json.position?
  let finallyStart ← Members.required members "finally_start" Json.position?
  let finallyEnd ← Members.required members "finally_end" Json.position?
  some ⟨tryStart, tryEnd, finallyStart, finallyEnd⟩

end Region

namespace Body

def toJson (b : Body) : Json :=
  .obj [("locals", .arr (b.locals.map Local.toJson)), ("instrs", .arr (b.instrs.map Instr.toJson)),
    ("labels", .arr (b.labels.map Json.nat)), ("regions", .arr (b.regions.map Region.toJson)),
    ("init_locals", .bool b.initLocals), ("max_stack", .nat b.maxStack.toNat)]

def ofJson? (source : Source) (j : Json) : Option Body := do
  let members ← j.record? ["locals", "instrs", "labels", "regions", "init_locals", "max_stack"]
  let locals ← Members.required members "locals" (Json.list? (Local.ofJson? source))
  let instrs ← Members.required members "instrs" (Json.list? (Instr.ofJson? source))
  let labels ← Members.required members "labels" (Json.list? Json.position?)
  let regions ← Members.withDefault members "regions" [] (Json.list? Region.ofJson?)
  let initLocals ← Members.withDefault members "init_locals" true Json.bool?
  let maxStack ← Members.required members "max_stack" Json.uint16?
  some ⟨locals, instrs, labels, regions, initLocals, maxStack⟩

end Body

namespace Visibility

def all : List Visibility := [pub, priv, assembly]

def formatName : Visibility → String
  | pub => "public"
  | priv => "private"
  | assembly => "assembly"

def toJson (v : Visibility) : Json := .str v.formatName

def ofJson? (j : Json) : Option Visibility := namedAmong? all formatName j.unitVariant?

end Visibility

namespace TypeKind

def plain : List TypeKind := [classType, structType, delegate, interface]

def formatName : TypeKind → String
  | classType => "class"
  | structType => "struct"
  | delegate => "delegate"
  | enum _ => "enum"
  | interface => "interface"

def toJson : TypeKind → Json
  | enum underlying => .obj [("enum", .obj [("underlying", underlying.toJson)])]
  | kind => .str kind.formatName

def ofJson? (source : Source) (j : Json) : Option TypeKind :=
  match j.variant? with
  | some ("enum", some content) => do
    let members ← content.contentFrom? source ["underlying"]
    let underlying ← Members.required members "underlying" (Primitive.ofJson? source)
    some (enum underlying)
  | _ => namedAmong? plain formatName j.unitVariant?

end TypeKind

namespace NativeType

def all : List NativeType :=
  [bool, i1, u1, i2, u2, i4, u4, i8, u8, r4, r8, sysInt, sysUInt, lpStr, lpwStr, lptStr, bStr,
    lpArray, safeArray, byValArray, functionPtr, struct, interface, iUnknown, customMarshaler]

def formatName : NativeType → String
  | bool => "bool"
  | i1 => "i1"
  | u1 => "u1"
  | i2 => "i2"
  | u2 => "u2"
  | i4 => "i4"
  | u4 => "u4"
  | i8 => "i8"
  | u8 => "u8"
  | r4 => "r4"
  | r8 => "r8"
  | sysInt => "sys_int"
  | sysUInt => "sys_u_int"
  | lpStr => "l_p_str"
  | lpwStr => "l_p_w_str"
  | lptStr => "l_p_t_str"
  | bStr => "b_str"
  | lpArray => "l_p_array"
  | safeArray => "safe_array"
  | byValArray => "by_val_array"
  | functionPtr => "function_ptr"
  | struct => "struct"
  | interface => "interface"
  | iUnknown => "i_unknown"
  | customMarshaler => "custom_marshaler"

def toJson (n : NativeType) : Json := .str n.formatName

def ofJson? (j : Json) : Option NativeType := namedAmong? all formatName j.unitVariant?

end NativeType

namespace MarshalInfo

def toJson (info : MarshalInfo) : Json :=
  .obj [("native", info.native.toJson), ("element", Json.option NativeType.toJson info.element),
    ("custom_marshaler", Json.option Json.str info.customMarshaler)]

def ofJson? (j : Json) : Option MarshalInfo := do
  let members ← j.record? ["native", "element", "custom_marshaler"]
  let native ← Members.required members "native" NativeType.ofJson?
  let element ← Members.optional members "element" NativeType.ofJson?
  let customMarshaler ← Members.optional members "custom_marshaler" Json.str?
  some ⟨native, element, customMarshaler⟩

end MarshalInfo

namespace ImportConv

def plain : List ImportConv := [winapi, cdecl, stdCall, thisCall, fastCall]

def formatName : ImportConv → String
  | winapi => "winapi"
  | cdecl => "cdecl"
  | stdCall => "std_call"
  | thisCall => "this_call"
  | fastCall => "fast_call"
  | other _ => "other"

def toJson : ImportConv → Json
  | other bits => .obj [("other", .nat bits.toNat)]
  | c => .str c.formatName

def ofJson? (j : Json) : Option ImportConv :=
  match j.variant? with
  | some ("other", some content) => content.uint16?.map other
  | _ => namedAmong? plain formatName j.unitVariant?

end ImportConv

namespace CharSet

def all : List CharSet := [notSpecified, ansi, unicode, auto]

def formatName : CharSet → String
  | notSpecified => "not_specified"
  | ansi => "ansi"
  | unicode => "unicode"
  | auto => "auto"

def toJson (c : CharSet) : Json := .str c.formatName

def ofJson? (j : Json) : Option CharSet := namedAmong? all formatName j.unitVariant?

end CharSet

namespace Import

def toJson (i : Import) : Json :=
  .obj [("module", .str i.library), ("entry_point", Json.option Json.str i.entryPoint),
    ("calling_convention", i.convention.toJson), ("char_set", i.charSet.toJson),
    ("exact_spelling", .bool i.exactSpelling), ("set_last_error", .bool i.setLastError)]

def ofJson? (j : Json) : Option Import := do
  let members ← j.record? ["module", "entry_point", "calling_convention", "char_set",
    "exact_spelling", "set_last_error"]
  let library ← Members.required members "module" Json.str?
  let entryPoint ← Members.optional members "entry_point" Json.str?
  let convention ← Members.required members "calling_convention" ImportConv.ofJson?
  let charSet ← Members.withDefault members "char_set" .notSpecified CharSet.ofJson?
  let exactSpelling ← Members.withDefault members "exact_spelling" false Json.bool?
  let setLastError ← Members.withDefault members "set_last_error" false Json.bool?
  some ⟨library, entryPoint, convention, charSet, exactSpelling, setLastError⟩

end Import

namespace FieldDef

def toJson (f : FieldDef) : Json :=
  .obj [("name", .str f.name), ("ty", f.type.toJson), ("is_static", .bool f.isStatic),
    ("is_readonly", .bool f.isReadonly), ("visibility", f.visibility.toJson),
    ("marshal", Json.option MarshalInfo.toJson f.marshal)]

def ofJson? (source : Source) (j : Json) : Option FieldDef := do
  let members ← j.record? ["name", "ty", "is_static", "is_readonly", "visibility", "marshal"]
  let name ← Members.required members "name" Json.str?
  let type ← Members.required members "ty" (TypeRef.ofJson? source)
  let isStatic ← Members.withDefault members "is_static" false Json.bool?
  let isReadonly ← Members.withDefault members "is_readonly" false Json.bool?
  let visibility ← Members.withDefault members "visibility" .priv Visibility.ofJson?
  let marshal ← Members.optional members "marshal" MarshalInfo.ofJson?
  some ⟨name, type, isStatic, isReadonly, visibility, marshal⟩

end FieldDef

namespace ParamDef

def toJson (p : ParamDef) : Json :=
  .obj [("name", .str p.name), ("ty", p.type.toJson),
    ("marshal", Json.option MarshalInfo.toJson p.marshal)]

def ofJson? (source : Source) (j : Json) : Option ParamDef := do
  let members ← j.record? ["name", "ty", "marshal"]
  let name ← Members.required members "name" Json.str?
  let type ← Members.required members "ty" (TypeRef.ofJson? source)
  let marshal ← Members.optional members "marshal" MarshalInfo.ofJson?
  some ⟨name, type, marshal⟩

end ParamDef

namespace MethodFlags

def toJson (f : MethodFlags) : Json :=
  .obj [("aggressive_inlining", .bool f.aggressiveInlining), ("no_inlining", .bool f.noInlining),
    ("special_name", .bool f.specialName), ("hide_by_sig", .bool f.hideBySig),
    ("runtime_managed", .bool f.runtimeManaged)]

def ofJson? (j : Json) : Option MethodFlags := do
  let members ← j.record? ["aggressive_inlining", "no_inlining", "special_name", "hide_by_sig",
    "runtime_managed"]
  let aggressiveInlining ← Members.withDefault members "aggressive_inlining" false Json.bool?
  let noInlining ← Members.withDefault members "no_inlining" false Json.bool?
  let specialName ← Members.withDefault members "special_name" false Json.bool?
  let hideBySig ← Members.withDefault members "hide_by_sig" false Json.bool?
  let runtimeManaged ← Members.withDefault members "runtime_managed" false Json.bool?
  some ⟨aggressiveInlining, noInlining, specialName, hideBySig, runtimeManaged⟩

end MethodFlags

namespace MethodDef

def toJson (m : MethodDef) : Json :=
  .obj [("name", .str m.name), ("params", .arr (m.params.map ParamDef.toJson)),
    ("return_type", m.returnType.toJson),
    ("return_marshal", Json.option MarshalInfo.toJson m.returnMarshal),
    ("is_static", .bool m.isStatic), ("visibility", m.visibility.toJson),
    ("flags", m.flags.toJson), ("pinvoke", Json.option Import.toJson m.importInfo),
    ("body", Json.option Body.toJson m.body)]

def ofJson? (source : Source) (j : Json) : Option MethodDef := do
  let members ← j.record? ["name", "params", "return_type", "return_marshal", "is_static",
    "visibility", "flags", "pinvoke", "body"]
  let name ← Members.required members "name" Json.str?
  let params ← Members.required members "params" (Json.list? (ParamDef.ofJson? source))
  let returnType ← Members.required members "return_type" (TypeRef.ofJson? source)
  let returnMarshal ← Members.optional members "return_marshal" MarshalInfo.ofJson?
  let isStatic ← Members.withDefault members "is_static" false Json.bool?
  let visibility ← Members.withDefault members "visibility" .priv Visibility.ofJson?
  let flags ← Members.withDefault members "flags" .none MethodFlags.ofJson?
  let importInfo ← Members.optional members "pinvoke" Import.ofJson?
  let body ← Members.optional members "body" (Body.ofJson? source)
  some ⟨name, params, returnType, returnMarshal, isStatic, visibility, flags, importInfo, body⟩

end MethodDef

namespace TypeDef

def toJson (t : TypeDef) : Json :=
  .obj [("name", t.name.toJson), ("kind", t.kind.toJson), ("visibility", t.visibility.toJson),
    ("is_abstract", .bool t.isAbstract), ("is_sealed", .bool t.isSealed),
    ("before_field_init", .bool t.beforeFieldInit), ("base", Json.option TypeRef.toJson t.base),
    ("fields", .arr (t.fields.map FieldDef.toJson)),
    ("methods", .arr (t.methods.map MethodDef.toJson))]

def ofJson? (source : Source) (j : Json) : Option TypeDef := do
  let members ← j.record? ["name", "kind", "visibility", "is_abstract", "is_sealed",
    "before_field_init", "base", "fields", "methods"]
  let name ← Members.required members "name" TypeName.ofJson?
  let kind ← Members.required members "kind" (TypeKind.ofJson? source)
  let visibility ← Members.withDefault members "visibility" .priv Visibility.ofJson?
  let isAbstract ← Members.withDefault members "is_abstract" false Json.bool?
  let isSealed ← Members.withDefault members "is_sealed" false Json.bool?
  let beforeFieldInit ← Members.withDefault members "before_field_init" false Json.bool?
  let base ← Members.optional members "base" (TypeRef.ofJson? source)
  let fields ← Members.withDefault members "fields" [] (Json.list? (FieldDef.ofJson? source))
  let methods ← Members.withDefault members "methods" [] (Json.list? (MethodDef.ofJson? source))
  some ⟨name, kind, visibility, isAbstract, isSealed, beforeFieldInit, base, fields, methods⟩

end TypeDef

namespace Module

def toJson (m : Module) : Json :=
  .obj [("name", .str m.name), ("mvid", .str m.mvid.toText),
    ("assembly_refs", Json.strs m.assemblyRefs), ("types", .arr (m.types.map TypeDef.toJson)),
    ("references", .arr (m.references.map TypeDef.toJson))]

def ofJson? (source : Source) (j : Json) : Option Module := do
  let members ← j.record? ["name", "mvid", "assembly_refs", "types", "references"]
  let name ← Members.required members "name" Json.str?
  let mvid ← Members.required members "mvid" fun j => j.str?.bind Uuid.ofText?
  let assemblyRefs ← Members.withDefault members "assembly_refs" [] (Json.list? Json.str?)
  let types ← Members.required members "types" (Json.list? (TypeDef.ofJson? source))
  let references ← Members.withDefault members "references" [] (Json.list? (TypeDef.ofJson? source))
  some ⟨name, mvid, assemblyRefs, types, references⟩

end Module

end LateBind
