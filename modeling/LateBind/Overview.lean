import LateBind.Image
import LateBind.Scaffold
import LateBind.Value.Format

/-! Summaries as JSON, for tools that look at images, at configurations, and at what is found and
planned in a module. Types, members and plans are in their display form. -/

namespace LateBind

def Primitive.overview (p : Primitive) : Json :=
  .obj [("numeric_or_pointer", .bool p.isNumericOrPointer), ("reference", .bool p.isReference),
    ("size", .option .nat p.size?), ("system_name", .str p.systemName)]

def TypeRef.overview (t : TypeRef) : Json :=
  let primitive : Json := match t with
    | .primitive p => p.overview
    | _ => .null
  .obj [("display", .str t.display), ("is_void", .bool t.isVoid), ("is_by_ref", .bool t.isByRef),
    ("strip_by_ref", .str t.stripByRef.display),
    ("as_array", .option (fun (e, r) => .arr [.str e.display, .nat r.toNat]) t.array?),
    ("as_named", .option (fun n => .str n.display) t.name?), ("primitive", primitive),
    ("json", t.toJson)]

def Value.overview (v : Value) : Json :=
  .obj [("kind", .str v.kind.display), ("display", .str v.display), ("true", .bool v.isTrue),
    ("i32", .option .int32 v.toInt32?), ("ptr", .option .pointer v.toPointer?),
    ("bool", .option .bool v.toBool?)]

def Body.overview (b : Body) : Json :=
  .obj [("listing", .str b.listing), ("locals", .arr (b.locals.map Local.toJson)),
    ("regions", .arr (b.regions.map Region.toJson)), ("labels", .arr (b.labels.map Json.nat)),
    ("max_stack", .nat b.maxStack.toNat)]

def MethodDef.overview (m : MethodDef) : Json :=
  .obj [("signature", .str m.signature), ("inline", .bool m.flags.aggressiveInlining),
    ("visibility", m.visibility.toJson), ("stub", .bool m.isStub),
    ("opcodes", .option (fun b => .str (" ".intercalate b.mnemonics)) m.body)]

def Image.Header.overview (h : Image.Header) : Json :=
  .obj [("version", .str h.version.display), ("compatible", .bool h.version.isCompatible),
    ("flags", .nat h.flags.bits.toNat),
    ("has", .arr [.bool (h.flags.has Image.Flags.hasImportStubs),
      .bool (h.flags.has Image.Flags.hasReferences), .bool (h.flags.has Image.Flags.lateBound)]),
    ("types", .str (toString h.typeCount)), ("methods", .str (toString h.methodCount)),
    ("stubs", .str (toString h.stubCount)), ("payload_len", .str (toString h.payloadLength))]

/-- Both parts of a name. -/
def TypeName.parts (t : TypeName) : Json := .strs [t.space, t.name]

/-- The settings, and what some libraries are loaded as under them. -/
def Config.overview (c : Config) (libraries : List String) : Json :=
  .obj [("helper_type", .str c.helperType.display), ("helper", c.helperType.parts),
    ("dlopen_flags", .int32 c.loadFlags),
    ("aliases", .arr (c.aliases.map fun (a, b) => .strs [a, b])),
    ("excluded", .arr (c.excludedNames.map TypeName.parts)),
    ("load_names", .strs (libraries.map c.loadName))]

def Stub.overview (s : Stub) : Json :=
  let params := s.params.map fun p => Json.obj [("name", .str p.name),
    ("type", .str p.type.display), ("by_ref", .bool p.type.isByRef),
    ("marshal", .option MarshalInfo.toJson p.marshal), ("plan", .str p.plan.display),
    ("native", .str p.nativeType.display)]
  let returns := Json.obj [("type", .str s.returns.type.display),
    ("plan", .str s.returns.plan.display), ("native", .str s.returns.nativeType.display),
    ("marshal", .option MarshalInfo.toJson s.returns.marshal)]
  .obj [("handle", .arr [.nat s.handle.typeIndex, .nat s.handle.methodIndex]),
    ("qualified", .str s.qualifiedName), ("params", .arr params),
    ("param_types", .strs (s.paramTypes.map TypeRef.display)),
    ("native_params", .strs (s.nativeParamTypes.map TypeRef.display)), ("returns", returns),
    ("declared", s.declaredConvention.toJson), ("convention", .str s.convention.display),
    ("char_set", s.charSet.toJson), ("library", .str s.library), ("symbol", .str s.symbol),
    ("set_last_error", .bool s.setLastError), ("has_string_arrays", .bool s.hasStringArrays)]

def TypeScaffold.overview (t : TypeScaffold) : Json :=
  .obj [("type", .str t.owner.display),
    ("libraries", .arr (t.libraries.map fun l => .obj [("library", .str l.library),
      ("fragment", .str (libraryFragment l.library)), ("load_name", .str l.loadName),
      ("cell", .str l.cell.display), ("loader", .str l.loader.display)])),
    ("records", .arr (t.stubs.map fun s => .obj [("function", .str s.stub.qualifiedName),
      ("cell", .str s.cell.display), ("initializer", .str s.initializer.display),
      ("thunk", .str s.thunk.display), ("call_site", .str s.callSite.display),
      ("library", .str s.library.cell.name)]))]

end LateBind
