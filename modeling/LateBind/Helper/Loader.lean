import LateBind.Helper.Strings

/-! The helper type: it loads libraries and finds their symbols on every family of systems. Each
family has its own loader imports, which stay declarative. What a stub calls branches once on
whether the system is a Unix, and on a Unix by the name that the system gives itself. -/

namespace LateBind.Helper

/-- Kinds of Unix with a loader library of their own. -/
inductive UnixFlavor
  | linux | darwin | bsd
  deriving DecidableEq, Repr

namespace UnixFlavor

def all : List UnixFlavor := [linux, darwin, bsd]

/-- What the names of the flavour's imports start with. -/
def mark : UnixFlavor → String
  | linux => "linux_"
  | darwin => "darwin_"
  | bsd => "bsd_"

/-- The library that has the loader's functions. -/
def library : UnixFlavor → String
  | linux => "libdl"
  | darwin => "libSystem"
  | bsd => "libc"

end UnixFlavor

/-- The names systems give themselves, in the order in which they are tried. The stored number of a
system is its place in this list, counted from one. -/
def systems : List (String × UnixFlavor) :=
  [("Linux", .linux), ("Darwin", .darwin), ("FreeBSD", .bsd), ("NetBSD", .bsd)]

def platformNotSupported : String := "Platform Not Supported"

def loadFailed : String := "LoadLibrary failed for: "

def resolveFailed : String := "GetProcAddress failed for: "

/-- Room for the record that a system describes itself in, more than any system needs. -/
def unameBufferSize : Int32 := 8192

/-! ## Imports -/

/-- An import that stays declarative. -/
def loaderImport (name library entry : String) (params : List (String × TypeRef))
    (returnType : TypeRef) (convention : ImportConv) (charSet : CharSet) : MethodDef :=
  { name
    params := params.map fun (name, type) => ⟨name, type, none⟩
    returnType
    returnMarshal := none
    isStatic := true
    visibility := .priv
    flags := { MethodFlags.none with hideBySig := true }
    importInfo := some ⟨library, some entry, convention, charSet, true, false⟩
    body := none }

def unixImports (flavor : UnixFlavor) : List MethodDef :=
  let make (entry : String) (params : List (String × TypeRef)) (returnType : TypeRef) :=
    loaderImport (flavor.mark ++ entry) flavor.library entry params returnType .cdecl .ansi
  [make "dlopen" [("fileName", .string), ("flags", .i32)] .intPtr,
    make "dlclose" [("handle", .intPtr)] .i32,
    make "dlsym" [("handle", .intPtr), ("symbol", .string)] .intPtr]

def windowsImports : List MethodDef :=
  [loaderImport "windows_LoadLibrary" "kernel32" "LoadLibraryW" [("fileName", .string)] .intPtr
      .winapi .unicode,
    loaderImport "windows_FreeLibrary" "kernel32" "FreeLibrary" [("handle", .intPtr)] .i32 .winapi
      .ansi,
    loaderImport "windows_GetProcAddress" "kernel32" "GetProcAddress"
      [("handle", .intPtr), ("symbol", .string)] .intPtr .winapi .ansi]

def unameImport : MethodDef :=
  loaderImport "libc_uname" "libc" "uname" [("buffer", .intPtr)] .i32 .cdecl .ansi

/-! ## Which system it is -/

/-- Throws an exception with a fixed message. -/
def emitThrow (message : String) : Emit Unit :=
  Emit.instrs [.ldstr message, .newobj Framework.exceptionCtor, .throw]

/-- Throws an exception whose message ends in an argument. -/
def emitThrowAbout (message : String) (arg : UInt16) : Emit Unit :=
  Emit.instrs [.ldstr message, .ldarg arg, .call Framework.stringConcat,
    .newobj Framework.exceptionCtor, .throw]

/-- The system's own name, or the empty string when it cannot be asked for. -/
def emitSystemName (helper : TypeName) : Emit Unit := do
  let buffer ← Emit.declareLocal .intPtr
  let result ← Emit.declareLocal .string
  Emit.instrs [.ldcI4 unameBufferSize, .call Framework.allocHGlobal, .stloc buffer]
  let exit ← Emit.beginTry
  let ok ← Emit.defineLabel
  Emit.instrs [.ldloc buffer, .call (uname helper), .brfalse ok, .ldstr "", .stloc result,
    .leave exit]
  Emit.markLabel ok
  Emit.instrs [.ldloc buffer, .call Framework.ptrToStringAnsi, .stloc result]
  Emit.beginFinally
  Emit.instrs [.ldloc buffer, .call Framework.freeHGlobal]
  Emit.endTry
  Emit.instrs [.ldloc result, .ret]

/-- Gives the number of the first system whose name matches a local. -/
def emitMatchSystem (name : UInt16) (store : Label) (system : String) (number : Nat) :
    Emit Unit := do
  let next ← Emit.defineLabel
  Emit.instrs [.ldloc name, .ldstr system, .call Framework.stringEquals, .brfalse next,
    .ldcI4 (Int32.ofNat number), .br store]
  Emit.markLabel next

/-- The number of the system, found once and then remembered; throws on a system without one. -/
def emitUnixFlavor (helper : TypeName) : Emit Unit := do
  let name ← Emit.declareLocal .string
  let done ← Emit.defineLabel
  let store ← Emit.defineLabel
  Emit.instrs [.ldsfld (unixFlavorField helper), .dup, .brtrue done, .pop,
    .call (systemName helper), .stloc name]
  systems.zipIdx.forM fun ((system, _), place) => emitMatchSystem name store system (place + 1)
  emitThrow platformNotSupported
  Emit.markLabel store
  Emit.instrs [.dup, .stsfld (unixFlavorField helper)]
  Emit.markLabel done
  Emit.instr .ret

def emitIsUnix : Emit Unit :=
  Emit.instrs [.call Framework.newLine, .ldstr "\n", .call Framework.stringEquals, .ret]

def emitStaticConstructor (helper : TypeName) : Emit Unit :=
  Emit.instrs [.call (isUnix helper), .stsfld (isUnixField helper), .ret]

/-! ## Loading -/

/-- Passes all arguments on to the import of the system's flavour. -/
def emitDispatch (helper : TypeName) (paramCount : Nat) (target : String → MethodRef) :
    Emit Unit := do
  let linux ← Emit.defineLabel
  let darwin ← Emit.defineLabel
  let bsd ← Emit.defineLabel
  let labelOf : UnixFlavor → Label := fun
    | .linux => linux
    | .darwin => darwin
    | .bsd => bsd
  Emit.instrs [.call (unixFlavor helper), .ldcI4 1, .sub,
    .switch (systems.map fun (_, flavor) => labelOf flavor)]
  emitThrow platformNotSupported
  UnixFlavor.all.forM fun flavor => do
    Emit.markLabel (labelOf flavor)
    Emit.instrs ((List.range paramCount).map fun i => .ldarg (UInt16.ofNat i))
    Emit.instrs [.call (target flavor.mark), .ret]

def dispatchDef (helper : TypeName) (name : String) (params : List (String × TypeRef))
    (returnType : TypeRef) (target : String → MethodRef) : Except BindError MethodDef :=
  MethodDef.generated .assembly name params returnType (emitDispatch helper params.length target)

/-- Calls the loader of the system, and throws when it answers zero. The message ends in the
argument that says what was looked for. -/
def emitCheckedLoad (helper : TypeName) (onUnix onWindows : List Instr) (message : String)
    (subject : UInt16) : Emit Unit := do
  let result ← Emit.declareLocal .intPtr
  let windows ← Emit.defineLabel
  let check ← Emit.defineLabel
  let ok ← Emit.defineLabel
  Emit.instrs [.ldsfld (isUnixField helper), .brfalse windows]
  Emit.instrs onUnix
  Emit.instrs [.stloc result, .br check]
  Emit.markLabel windows
  Emit.instrs onWindows
  Emit.instr (.stloc result)
  Emit.markLabel check
  Emit.instrs [.ldloc result, .brtrue ok]
  emitThrowAbout message subject
  Emit.markLabel ok
  Emit.instrs [.ldloc result, .ret]

def emitFreeLibrary (helper : TypeName) : Emit Unit := do
  let windows ← Emit.defineLabel
  Emit.instrs [.ldsfld (isUnixField helper), .brfalse windows, .ldarg 0, .call (dlclose helper ""),
    .ret]
  Emit.markLabel windows
  Emit.instrs [.ldarg 0, .call (windowsFreeLibrary helper), .ret]

/-! ## The type -/

def fieldDefs : List FieldDef :=
  [⟨"isUnix", .boolean, true, true, .priv, none⟩, ⟨"unixFlavor", .i32, true, false, .priv, none⟩]

def importDefs : List MethodDef :=
  UnixFlavor.all.flatMap unixImports ++ windowsImports ++ [unameImport]

def staticConstructorDef (helper : TypeName) : Except BindError MethodDef :=
  (MethodDef.generated .priv ".cctor" [] .void (emitStaticConstructor helper)).map fun m =>
    { m with flags := { m.flags with specialName := true } }

/-- The methods that load libraries, with the flags for loaders that take them. -/
def loaderDefs (helper : TypeName) (flags : Int32) : Except BindError (List MethodDef) := do
  return [
    ← MethodDef.generated .assembly "GetSystemName" [] .string (emitSystemName helper),
    ← MethodDef.generated .assembly "GetUnixFlavor" [] .i32 (emitUnixFlavor helper),
    ← dispatchDef helper "dlopen" [("fileName", .string), ("flags", .i32)] .intPtr (dlopen helper),
    ← dispatchDef helper "dlclose" [("handle", .intPtr)] .i32 (dlclose helper),
    ← dispatchDef helper "dlsym" [("handle", .intPtr), ("symbol", .string)] .intPtr (dlsym helper),
    ← MethodDef.generated .assembly "IsUnix" [] .boolean emitIsUnix,
    ← staticConstructorDef helper,
    ← MethodDef.generated .assembly "LoadLibrary" [("name", .string)] .intPtr
      (emitCheckedLoad helper [.ldarg 0, .ldcI4 flags, .call (dlopen helper "")]
        [.ldarg 0, .call (windowsLoadLibrary helper)] loadFailed 0),
    ← MethodDef.generated .assembly "FreeLibrary" [("handle", .intPtr)] .i32
      (emitFreeLibrary helper),
    ← MethodDef.generated .assembly "GetProcAddress" [("handle", .intPtr), ("symbol", .string)]
      .intPtr
      (emitCheckedLoad helper [.ldarg 0, .ldarg 1, .call (dlsym helper "")]
        [.ldarg 0, .ldarg 1, .call (windowsGetProcAddress helper)] resolveFailed 1)]

def emptyDef (helper : TypeName) : TypeDef :=
  { name := helper
    kind := .classType
    visibility := .assembly
    isAbstract := true
    isSealed := true
    beforeFieldInit := true
    base := some .object
    fields := fieldDefs
    methods := [] }

/-- The whole helper type. -/
def typeDef (helper : TypeName) (flags : Int32) : Except BindError TypeDef := do
  let methods := importDefs ++ (← loaderDefs helper flags) ++ (← stringMethods)
  methods.foldlM (fun t m =>
    (t.addMethod m).mapError fun e => .emit ("helper type " ++ helper.display) (.member e))
    (emptyDef helper)

end LateBind.Helper
