import LateBind.Framework
import LateBind.Module

/-! Making modules piece by piece. -/

namespace LateBind

namespace ParamDef

def plain (name : String) (type : TypeRef) : ParamDef := ⟨name, type, none⟩

end ParamDef

namespace MethodDef

/-- A public static method without parameters and body. -/
def static (name : String) (returnType : TypeRef) : MethodDef :=
  { name, params := [], returnType, returnMarshal := none, isStatic := true, visibility := .pub
    flags := { MethodFlags.none with hideBySig := true }, importInfo := none, body := none }

/-- Makes the method an import stub of a library, with the platform's calling convention. -/
def importing (m : MethodDef) (library : String) : MethodDef :=
  { m with importInfo := some ⟨library, none, .winapi, .notSpecified, false, false⟩ }

/-- Changes how an import stub is bound; other methods stay as they are. -/
def modifyImport (m : MethodDef) (f : Import → Import) : MethodDef :=
  { m with importInfo := m.importInfo.map f }

end MethodDef

namespace TypeDef

def baseOf : TypeKind → Option TypeRef
  | .structType => some (.named Framework.valueType)
  | .enum _ => some (.named Framework.enumType)
  | .classType => some .object
  | .delegate | .interface => none

/-- A public type without members. -/
def ofKind (full : String) (kind : TypeKind) : TypeDef :=
  { name := TypeName.parse full, kind, visibility := .pub, isAbstract := false
    isSealed := match kind with
      | .structType | .enum _ => true
      | _ => false
    beforeFieldInit := false, base := baseOf kind, fields := [], methods := [] }

def withField (t : TypeDef) (name : String) (type : TypeRef) (marshal : Option MarshalInfo) :
    TypeDef :=
  { t with fields := t.fields ++ [⟨name, type, false, false, .pub, marshal⟩] }

def withStaticField (t : TypeDef) (name : String) (type : TypeRef) : TypeDef :=
  { t with fields := t.fields ++ [⟨name, type, true, false, .priv, none⟩] }

def withMethod (t : TypeDef) (method : MethodDef) : TypeDef :=
  { t with methods := t.methods ++ [method] }

def enumOf (full : String) (underlying : Primitive) : TypeDef :=
  (ofKind full (.enum underlying)).withField "value__" (.primitive underlying) none

/-- A delegate type, whose one method is supplied by the runtime. -/
def delegateOf (full : String) (returnType : TypeRef) (params : List TypeRef) : TypeDef :=
  let invoke : MethodDef :=
    { MethodDef.static "Invoke" returnType with
      params := params.zipIdx.map fun (type, i) => ParamDef.plain ("arg" ++ toString i) type
      isStatic := false
      flags := { MethodFlags.none with runtimeManaged := true, hideBySig := true } }
  { (ofKind full .delegate).withMethod invoke with
    base := some (.named Framework.multicastDelegate), isSealed := true }

end TypeDef

namespace Module

/-- A module without types that refers to the framework. -/
def start (name : String) (mvid : Uuid) : Module :=
  { Module.empty name mvid with assemblyRefs := ["System.Runtime"] }

def withAssemblyRef (m : Module) (name : String) : Module :=
  { m with assemblyRefs := m.assemblyRefs ++ [name] }

def withType (m : Module) (t : TypeDef) : Module := { m with types := m.types ++ [t] }

def withReference (m : Module) (t : TypeDef) : Module :=
  { m with references := m.references ++ [t] }

end Module

end LateBind
