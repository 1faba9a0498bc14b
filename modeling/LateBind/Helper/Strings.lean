import LateBind.Helper.Members

/-! Methods of the helper type that convert strings: one narrows a string to bytes, the others copy
the strings of an array and free the copies. -/

namespace LateBind.Helper

/-- Adds one to a local. -/
def emitIncrement (index : UInt16) : Emit Unit :=
  Emit.instrs [.ldloc index, .ldcI4 1, .add, .stloc index]

/-- Goes to the loop body while a local is below the length of the first argument. -/
def emitBoundCheck (index : UInt16) (body : Label) : Emit Unit :=
  Emit.instrs [.ldloc index, .ldarg 0, .ldlen, .convI4, .blt body]

def emitAnsiBytes : Emit Unit := do
  let length ← Emit.declareLocal .i32
  let bytes ← Emit.declareLocal (.vector .u8)
  let index ← Emit.declareLocal .i32
  let present ← Emit.defineLabel
  let body ← Emit.defineLabel
  let condition ← Emit.defineLabel
  Emit.instrs [.ldarg 0, .brtrue present, .ldnull, .ret]
  Emit.markLabel present
  Emit.instrs [.ldarg 0, .call Framework.stringLength, .stloc length, .ldloc length, .ldcI4 1, .add,
    .newarr .u8, .stloc bytes, .ldcI4 0, .stloc index, .br condition]
  Emit.markLabel body
  Emit.instrs [.ldloc bytes, .ldloc index, .ldarg 0, .ldloc index, .call Framework.stringChars,
    .convU1, .stelemI1]
  emitIncrement index
  Emit.markLabel condition
  Emit.instrs [.ldloc index, .ldloc length, .blt body, .ldloc bytes, .ldloc length, .ldcI4 0,
    .stelemI1, .ldloc bytes, .ret]

/-- Each string is copied by the given method; a null array is left alone. -/
def emitFillAddresses (copy : MethodRef) : Emit Unit := do
  let index ← Emit.declareLocal .i32
  let done ← Emit.defineLabel
  let body ← Emit.defineLabel
  let condition ← Emit.defineLabel
  Emit.instrs [.ldarg 0, .brfalse done, .ldcI4 0, .stloc index, .br condition]
  Emit.markLabel body
  Emit.instrs [.ldarg 1, .ldloc index, .ldarg 0, .ldloc index, .ldelemRef, .call copy, .stelemI]
  emitIncrement index
  Emit.markLabel condition
  emitBoundCheck index body
  Emit.markLabel done
  Emit.instr .ret

/-- Every address that is not zero is freed and becomes zero. -/
def emitFreeAddresses : Emit Unit := do
  let index ← Emit.declareLocal .i32
  let done ← Emit.defineLabel
  let body ← Emit.defineLabel
  let next ← Emit.defineLabel
  let condition ← Emit.defineLabel
  Emit.instrs [.ldarg 0, .brfalse done, .ldcI4 0, .stloc index, .br condition]
  Emit.markLabel body
  Emit.instrs [.ldarg 0, .ldloc index, .ldelemI, .brfalse next, .ldarg 0, .ldloc index, .ldelemI,
    .call Framework.freeHGlobal, .ldarg 0, .ldloc index, .ldcI4 0, .convI, .stelemI]
  Emit.markLabel next
  emitIncrement index
  Emit.markLabel condition
  emitBoundCheck index body
  Emit.markLabel done
  Emit.instr .ret

def fillAddressesDef (encoding : StringEncoding) : Except BindError MethodDef :=
  let copy := match encoding with
    | .ansi => Framework.stringToHGlobalAnsi
    | .unicode => Framework.stringToHGlobalUni
  MethodDef.generated .assembly (fillName encoding)
    [("strings", .vector .string), ("addrs", .vector .intPtr)] .void (emitFillAddresses copy)

def stringMethods : Except BindError (List MethodDef) := do
  return [
    ← MethodDef.generated .assembly "StringToAnsiByteArray" [("s", .string)] (.vector .u8)
      emitAnsiBytes,
    ← fillAddressesDef .ansi,
    ← fillAddressesDef .unicode,
    ← MethodDef.generated .assembly "StringArrayMarshallingEpilog" [("addrs", .vector .intPtr)]
      .void emitFreeAddresses]

end LateBind.Helper
