import LateBind.Framework
import LateBind.BindError
import LateBind.Slot

/-! The members of the helper type that generated code mentions, by the name of the type. -/

namespace LateBind.Helper

def method (helper : TypeName) (name : String) (params : List TypeRef) (returnType : TypeRef) :
    MethodRef :=
  .static helper name params returnType

/-- Loads a library or throws. -/
def loadLibrary (helper : TypeName) : MethodRef := method helper "LoadLibrary" [.string] .intPtr

/-- Finds a symbol of a loaded library or throws. -/
def getProcAddress (helper : TypeName) : MethodRef :=
  method helper "GetProcAddress" [.intPtr, .string] .intPtr

/-- Releases a library and gives the platform's status. -/
def freeLibrary (helper : TypeName) : MethodRef := method helper "FreeLibrary" [.intPtr] .i32

/-- The low bytes of a string and a terminating zero; null for null. -/
def ansiBytes (helper : TypeName) : MethodRef :=
  method helper "StringToAnsiByteArray" [.string] (.vector .u8)

def fillName : StringEncoding → String
  | .ansi => "StringArrayMarshallingProlog"
  | .unicode => "StringArrayMarshallingPrologUni"

/-- Copies the strings of an array and stores their addresses. -/
def fillAddresses (helper : TypeName) (encoding : StringEncoding) : MethodRef :=
  method helper (fillName encoding) [.vector .string, .vector .intPtr] .void

/-- Frees the copies and clears their addresses. -/
def freeAddresses (helper : TypeName) : MethodRef :=
  method helper "StringArrayMarshallingEpilog" [.vector .intPtr] .void

/-- Whether the platform is a Unix. -/
def isUnixField (helper : TypeName) : FieldRef := ⟨helper, "isUnix", .boolean⟩

/-- The kind of Unix, zero until it is known. -/
def unixFlavorField (helper : TypeName) : FieldRef := ⟨helper, "unixFlavor", .i32⟩

def dlopen (helper : TypeName) (mark : String) : MethodRef :=
  method helper (mark ++ "dlopen") [.string, .i32] .intPtr

def dlclose (helper : TypeName) (mark : String) : MethodRef :=
  method helper (mark ++ "dlclose") [.intPtr] .i32

def dlsym (helper : TypeName) (mark : String) : MethodRef :=
  method helper (mark ++ "dlsym") [.intPtr, .string] .intPtr

def uname (helper : TypeName) : MethodRef := method helper "libc_uname" [.intPtr] .i32

def systemName (helper : TypeName) : MethodRef := method helper "GetSystemName" [] .string

def unixFlavor (helper : TypeName) : MethodRef := method helper "GetUnixFlavor" [] .i32

def isUnix (helper : TypeName) : MethodRef := method helper "IsUnix" [] .boolean

def windowsLoadLibrary (helper : TypeName) : MethodRef :=
  method helper "windows_LoadLibrary" [.string] .intPtr

def windowsGetProcAddress (helper : TypeName) : MethodRef :=
  method helper "windows_GetProcAddress" [.intPtr, .string] .intPtr

def windowsFreeLibrary (helper : TypeName) : MethodRef :=
  method helper "windows_FreeLibrary" [.intPtr] .i32

end LateBind.Helper

namespace LateBind.MethodDef

/-- A static method with a body. -/
def withBody (visibility : Visibility) (name : String) (params : List (String × TypeRef))
    (returnType : TypeRef) (body : Body) : MethodDef :=
  { name
    params := params.map fun (name, type) => ⟨name, type, none⟩
    returnType
    returnMarshal := none
    isStatic := true
    visibility
    flags := { MethodFlags.none with hideBySig := true }
    importInfo := none
    body := some body }

/-- A static method with the body that a generator emits. -/
def generated (visibility : Visibility) (name : String) (params : List (String × TypeRef))
    (returnType : TypeRef) (code : Emit Unit) : Except BindError MethodDef :=
  match Emit.body code with
  | .error e => .error (.emit ("body of " ++ name) (.body e))
  | .ok body => .ok (withBody visibility name params returnType body)

end LateBind.MethodDef
