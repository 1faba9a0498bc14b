import LateBind.Helper.Loader
import LateBind.Proofs.Installation
import Mathlib

/-! # The helper type

The helper type can always be built, whatever it is called. Its imports come first, then what loads
libraries and what converts strings, each with the body that is written out here. -/

namespace LateBind.Helper

variable (helper : TypeName)

/-! ## Which system it is -/

def systemNameBody : Body :=
  { locals := [⟨.intPtr, false⟩, ⟨.string, false⟩]
    instrs := [.ldcI4 unameBufferSize, .call Framework.allocHGlobal, .stloc 0,
      .ldloc 0, .call (uname helper), .brfalse ⟨1⟩, .ldstr "", .stloc 1, .leave ⟨0⟩,
      .ldloc 0, .call Framework.ptrToStringAnsi, .stloc 1, .leave ⟨0⟩,
      .ldloc 0, .call Framework.freeHGlobal, .endfinally,
      .ldloc 1, .ret]
    labels := [16, 9]
    regions := [⟨3, 13, 13, 16⟩]
    initLocals := true
    maxStack := 1 }

def unixFlavorBody : Body :=
  { locals := [⟨.string, false⟩]
    instrs := [.ldsfld (unixFlavorField helper), .dup, .brtrue ⟨0⟩, .pop, .call (systemName helper),
      .stloc 0,
      .ldloc 0, .ldstr "Linux", .call Framework.stringEquals, .brfalse ⟨2⟩, .ldcI4 1, .br ⟨1⟩,
      .ldloc 0, .ldstr "Darwin", .call Framework.stringEquals, .brfalse ⟨3⟩, .ldcI4 2, .br ⟨1⟩,
      .ldloc 0, .ldstr "FreeBSD", .call Framework.stringEquals, .brfalse ⟨4⟩, .ldcI4 3, .br ⟨1⟩,
      .ldloc 0, .ldstr "NetBSD", .call Framework.stringEquals, .brfalse ⟨5⟩, .ldcI4 4, .br ⟨1⟩,
      .ldstr platformNotSupported, .newobj Framework.exceptionCtor, .throw,
      .dup, .stsfld (unixFlavorField helper), .ret]
    labels := [35, 33, 12, 18, 24, 30]
    regions := []
    initLocals := true
    maxStack := 2 }

def isUnixBody : Body :=
  { locals := []
    instrs := [.call Framework.newLine, .ldstr "\n", .call Framework.stringEquals, .ret]
    labels := []
    regions := []
    initLocals := true
    maxStack := 2 }

def staticConstructorBody : Body :=
  { locals := []
    instrs := [.call (isUnix helper), .stsfld (isUnixField helper), .ret]
    labels := []
    regions := []
    initLocals := true
    maxStack := 1 }

/-! ## Loading -/

def dispatchCode (load : List Instr) (target : String → MethodRef) : List Instr :=
  ([.call (unixFlavor helper), .ldcI4 1, .sub, .switch [⟨0⟩, ⟨1⟩, ⟨2⟩, ⟨2⟩],
    .ldstr platformNotSupported, .newobj Framework.exceptionCtor, .throw] : List Instr) ++
  load ++ ([.call (target "linux_"), .ret] : List Instr) ++
  load ++ ([.call (target "darwin_"), .ret] : List Instr) ++
  load ++ ([.call (target "bsd_"), .ret] : List Instr)

/-- Two arguments go on to the import of the system. -/
def dispatchBody (target : String → MethodRef) : Body :=
  { locals := []
    instrs := dispatchCode helper [.ldarg 0, .ldarg 1] target
    labels := [7, 11, 15]
    regions := []
    initLocals := true
    maxStack := 2 }

def dlcloseBody : Body :=
  { locals := []
    instrs := dispatchCode helper [.ldarg 0] (dlclose helper)
    labels := [7, 10, 13]
    regions := []
    initLocals := true
    maxStack := 2 }

def loadLibraryBody (flags : Int32) : Body :=
  { locals := [⟨.intPtr, false⟩]
    instrs := [.ldsfld (isUnixField helper), .brfalse ⟨0⟩,
      .ldarg 0, .ldcI4 flags, .call (dlopen helper ""), .stloc 0, .br ⟨1⟩,
      .ldarg 0, .call (windowsLoadLibrary helper), .stloc 0,
      .ldloc 0, .brtrue ⟨2⟩, .ldstr loadFailed, .ldarg 0, .call Framework.stringConcat,
      .newobj Framework.exceptionCtor, .throw,
      .ldloc 0, .ret]
    labels := [7, 10, 17]
    regions := []
    initLocals := true
    maxStack := 2 }

def freeLibraryBody : Body :=
  { locals := []
    instrs := [.ldsfld (isUnixField helper), .brfalse ⟨0⟩, .ldarg 0, .call (dlclose helper ""), .ret,
      .ldarg 0, .call (windowsFreeLibrary helper), .ret]
    labels := [5]
    regions := []
    initLocals := true
    maxStack := 1 }

def getProcAddressBody : Body :=
  { locals := [⟨.intPtr, false⟩]
    instrs := [.ldsfld (isUnixField helper), .brfalse ⟨0⟩,
      .ldarg 0, .ldarg 1, .call (dlsym helper ""), .stloc 0, .br ⟨1⟩,
      .ldarg 0, .ldarg 1, .call (windowsGetProcAddress helper), .stloc 0,
      .ldloc 0, .brtrue ⟨2⟩, .ldstr resolveFailed, .ldarg 1, .call Framework.stringConcat,
      .newobj Framework.exceptionCtor, .throw,
      .ldloc 0, .ret]
    labels := [7, 11, 18]
    regions := []
    initLocals := true
    maxStack := 2 }

/-! ## Strings -/

def ansiBytesBody : Body :=
  { locals := [⟨.i32, false⟩, ⟨.vector .u8, false⟩, ⟨.i32, false⟩]
    instrs := [.ldarg 0, .brtrue ⟨0⟩, .ldnull, .ret,
      .ldarg 0, .call Framework.stringLength, .stloc 0, .ldloc 0, .ldcI4 1, .add, .newarr .u8,
      .stloc 1, .ldcI4 0, .stloc 2, .br ⟨2⟩,
      .ldloc 1, .ldloc 2, .ldarg 0, .ldloc 2, .call Framework.stringChars, .convU1, .stelemI1,
      .ldloc 2, .ldcI4 1, .add, .stloc 2,
      .ldloc 2, .ldloc 0, .blt ⟨1⟩,
      .ldloc 1, .ldloc 0, .ldcI4 0, .stelemI1, .ldloc 1, .ret]
    labels := [4, 15, 26]
    regions := []
    initLocals := true
    maxStack := 4 }

def fillAddressesBody (copy : MethodRef) : Body :=
  { locals := [⟨.i32, false⟩]
    instrs := [.ldarg 0, .brfalse ⟨0⟩, .ldcI4 0, .stloc 0, .br ⟨2⟩,
      .ldarg 1, .ldloc 0, .ldarg 0, .ldloc 0, .ldelemRef, .call copy, .stelemI,
      .ldloc 0, .ldcI4 1, .add, .stloc 0,
      .ldloc 0, .ldarg 0, .ldlen, .convI4, .blt ⟨1⟩, .ret]
    labels := [21, 5, 16]
    regions := []
    initLocals := true
    maxStack := 4 }

def freeAddressesBody : Body :=
  { locals := [⟨.i32, false⟩]
    instrs := [.ldarg 0, .brfalse ⟨0⟩, .ldcI4 0, .stloc 0, .br ⟨3⟩,
      .ldarg 0, .ldloc 0, .ldelemI, .brfalse ⟨2⟩, .ldarg 0, .ldloc 0, .ldelemI,
      .call Framework.freeHGlobal, .ldarg 0, .ldloc 0, .ldcI4 0, .convI, .stelemI,
      .ldloc 0, .ldcI4 1, .add, .stloc 0,
      .ldloc 0, .ldarg 0, .ldlen, .convI4, .blt ⟨1⟩, .ret]
    labels := [27, 5, 18, 22]
    regions := []
    initLocals := true
    maxStack := 3 }

/-! ## The methods -/

/-- The string that a copying method is made for, in its encoding. -/
def copyOf : StringEncoding → MethodRef
  | .ansi => Framework.stringToHGlobalAnsi
  | .unicode => Framework.stringToHGlobalUni

def loaders (flags : Int32) : List MethodDef :=
  let inside := MethodDef.withBody .assembly
  [inside "GetSystemName" [] .string (systemNameBody helper),
    inside "GetUnixFlavor" [] .i32 (unixFlavorBody helper),
    inside "dlopen" [("fileName", .string), ("flags", .i32)] .intPtr
      (dispatchBody helper (dlopen helper)),
    inside "dlclose" [("handle", .intPtr)] .i32 (dlcloseBody helper),
    inside "dlsym" [("handle", .intPtr), ("symbol", .string)] .intPtr
      (dispatchBody helper (dlsym helper)),
    inside "IsUnix" [] .boolean isUnixBody,
    { MethodDef.withBody .priv ".cctor" [] .void (staticConstructorBody helper) with
      flags := { MethodFlags.none with hideBySig := true, specialName := true } },
    inside "LoadLibrary" [("name", .string)] .intPtr (loadLibraryBody helper flags),
    inside "FreeLibrary" [("handle", .intPtr)] .i32 (freeLibraryBody helper),
    inside "GetProcAddress" [("handle", .intPtr), ("symbol", .string)] .intPtr
      (getProcAddressBody helper)]

def converters : List MethodDef :=
  let inside := MethodDef.withBody .assembly
  [inside "StringToAnsiByteArray" [("s", .string)] (.vector .u8) ansiBytesBody,
    inside (fillName .ansi) [("strings", .vector .string), ("addrs", .vector .intPtr)] .void
      (fillAddressesBody (copyOf .ansi)),
    inside (fillName .unicode) [("strings", .vector .string), ("addrs", .vector .intPtr)] .void
      (fillAddressesBody (copyOf .unicode)),
    inside "StringArrayMarshallingEpilog" [("addrs", .vector .intPtr)] .void freeAddressesBody]

theorem loaderDefs_eq (flags : Int32) : loaderDefs helper flags = .ok (loaders helper flags) := by
  cbv

theorem stringMethods_eq : stringMethods = .ok converters := by
  cbv

/-! ## The type -/

def methods (flags : Int32) : List MethodDef := importDefs ++ loaders helper flags ++ converters

theorem methods_names (flags : Int32) : (methods helper flags).map MethodDef.name =
    ["linux_dlopen", "linux_dlclose", "linux_dlsym", "darwin_dlopen", "darwin_dlclose",
      "darwin_dlsym", "bsd_dlopen", "bsd_dlclose", "bsd_dlsym", "windows_LoadLibrary",
      "windows_FreeLibrary", "windows_GetProcAddress", "libc_uname", "GetSystemName",
      "GetUnixFlavor", "dlopen", "dlclose", "dlsym", "IsUnix", ".cctor", "LoadLibrary",
      "FreeLibrary", "GetProcAddress", "StringToAnsiByteArray", "StringArrayMarshallingProlog",
      "StringArrayMarshallingPrologUni", "StringArrayMarshallingEpilog"] := by
  cbv

/-- No two members have one name, so that every method can be added. -/
theorem typeDef_eq (flags : Int32) :
    typeDef helper flags = .ok ((emptyDef helper).extend [] (methods helper flags)) := by
  have members : (emptyDef helper).memberNames = ["isUnix", "unixFlavor"] := rfl
  have added := TypeDef.foldlM_addMethod
    (fun e => .emit ("helper type " ++ helper.display) (.member e)) (t := emptyDef helper)
    (by rw [methods_names helper flags]; simp) (by rw [methods_names helper flags, members]; simp)
  rw [typeDef, loaderDefs_eq, stringMethods_eq, ok_bind, ok_bind]
  exact added

end LateBind.Helper
