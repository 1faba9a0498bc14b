import LateBind.Scaffold

/-! The bodies that replace import stubs. A body fills the address cell when it is zero, makes an
address array for each array of strings, converts the arguments, calls the thunk, and converts the
result. Copies of strings in arrays are freed in a finally part. Null and empty arrays cross as
zero, and so does a null string. -/

namespace LateBind.StubBody

/-- Pushes a zero of the size of a pointer. -/
def emitNullPointer : Emit Unit := Emit.instrs [.ldcI4 0, .convU]

/-- Makes an address array as long as an argument, which may be null. -/
def emitAddressArray (index : UInt16) (addresses : UInt16) : Emit Unit := do
  let present ← Emit.defineLabel
  let sized ← Emit.defineLabel
  Emit.instrs [.ldarg index, .brtrue present, .ldcI4 0, .br sized]
  Emit.markLabel present
  Emit.instrs [.ldarg index, .ldlen, .convI4]
  Emit.markLabel sized
  Emit.instrs [.newarr .intPtr, .stloc addresses]

/-- Pushes the address of the first element of an array, which is pinned, or zero. -/
def emitPinnedArray (load : Instr) (element : TypeRef) : Emit Unit := do
  let pin ← Emit.declarePinned (.byRef element)
  let empty ← Emit.defineLabel
  let done ← Emit.defineLabel
  Emit.instrs [load, .brfalse empty, load, .ldlen, .convI4, .brfalse empty, load, .ldcI4 0,
    .ldelema element, .stloc pin, .ldloc pin, .convI, .br done]
  Emit.markLabel empty
  emitNullPointer
  Emit.markLabel done

/-- The address array of a slot, if it has one. -/
def emitAddressArrayFor (s : ParamSlot) (index : Nat) : Emit (Option UInt16) := do
  if s.plan.isStringArray then
    let addresses ← Emit.declareLocal (.vector .intPtr)
    emitAddressArray (UInt16.ofNat index) addresses
    return some addresses
  else return none

/-- Copies the strings of a slot. -/
def emitCopies (helper : TypeName) (s : ParamSlot) (index : Nat) (addresses : Option UInt16) :
    Emit Unit :=
  match s.plan, addresses with
  | .stringArray encoding, some addresses =>
    Emit.instrs [.ldarg (UInt16.ofNat index), .ldloc addresses,
      .call (Helper.fillAddresses helper encoding)]
  | _, _ => pure ()

/-- Frees the copies of a slot. -/
def emitFrees (helper : TypeName) : Option UInt16 → Emit Unit
  | some addresses => Emit.instrs [.ldloc addresses, .call (Helper.freeAddresses helper)]
  | none => pure ()

/-- Pushes what stands for an argument in native code. -/
def emitArgument (helper : TypeName) (s : ParamSlot) (index : UInt16) (addresses : Option UInt16) :
    Emit Unit := do
  match s.plan with
  | .direct => Emit.instr (.ldarg index)
  | .boolean width =>
    Emit.instrs [.ldarg index, .ldcI4 0, .cgtUn]
    if width = .byte then Emit.instr .convU1
  | .byRef =>
    let pin ← Emit.declarePinned s.type
    Emit.instrs [.ldarg index, .stloc pin, .ldloc pin, .convI]
  | .blittableArray =>
    let element := match s.type.array? with
      | some (element, _) => element
      | none => .u8
    emitPinnedArray (.ldarg index) element
  | .unicodeString =>
    let pin ← Emit.declarePinned .string
    let null ← Emit.defineLabel
    Emit.instrs [.ldarg index, .stloc pin, .ldloc pin, .convI, .dup, .brfalse null,
      .call Framework.offsetToStringData, .add]
    Emit.markLabel null
  | .ansiString =>
    let bytes ← Emit.declareLocal (.vector .u8)
    Emit.instrs [.ldarg index, .call (Helper.ansiBytes helper), .stloc bytes]
    emitPinnedArray (.ldloc bytes) .u8
  | .stringArray _ =>
    match addresses with
    | some addresses => emitPinnedArray (.ldloc addresses) .intPtr
    | none => pure ()
  | .delegate =>
    let present ← Emit.defineLabel
    let done ← Emit.defineLabel
    Emit.instrs [.ldarg index, .brtrue present]
    emitNullPointer
    Emit.instr (.br done)
    Emit.markLabel present
    Emit.instrs [.ldarg index, .call Framework.functionPointerForDelegate]
    Emit.markLabel done

/-- Turns the native result into the managed one. -/
def emitResult (s : ReturnSlot) : Emit Unit := do
  if s.type.isVoid then return
  match s.plan with
  | .boolean _ => Emit.instrs [.ldcI4 0, .cgtUn]
  | .ansiString => Emit.instr (.call Framework.ptrToStringAnsi)
  | .unicodeString => Emit.instr (.call Framework.ptrToStringUni)
  | .delegate =>
    let present ← Emit.defineLabel
    let done ← Emit.defineLabel
    Emit.instrs [.dup, .brtrue present, .pop, .ldnull, .br done]
    Emit.markLabel present
    Emit.instrs [.ldtoken s.type, .call Framework.typeFromHandle,
      .call Framework.delegateForFunctionPointer, .castclass s.type]
    Emit.markLabel done
  | .direct | .byRef | .blittableArray | .stringArray _ => pure ()

/-- Converts the arguments, calls the thunk and converts the result. -/
def emitCall (helper : TypeName) (s : StubScaffold) (slots : List (ParamSlot × Option UInt16)) :
    Emit Unit := do
  slots.zipIdx.forM fun ((slot, addresses), index) =>
    emitArgument helper slot (UInt16.ofNat index) addresses
  Emit.instrs [.ldsfld s.cell, .call s.thunk]
  emitResult s.stub.returns

/-- A call between the copying of strings and their freeing; the result waits in a local. -/
def emitProtectedCall (helper : TypeName) (s : StubScaffold)
    (slots : List (ParamSlot × Option UInt16)) : Emit Unit := do
  let _ ← Emit.beginTry
  slots.zipIdx.forM fun ((slot, addresses), index) => emitCopies helper slot index addresses
  emitCall helper s slots
  let result ←
    if s.stub.returns.type.isVoid then pure none
    else some <$> Emit.declareLocal s.stub.returns.type
  if let some result := result then Emit.instr (.stloc result)
  Emit.beginFinally
  slots.forM fun (_, addresses) => emitFrees helper addresses
  Emit.endTry
  if let some result := result then Emit.instr (.ldloc result)

def emit (helper : TypeName) (s : StubScaffold) : Emit Unit := do
  let ready ← Emit.defineLabel
  Emit.instrs [.ldsfld s.cell, .brtrue ready, .call s.initializer]
  Emit.markLabel ready
  let slots ← s.stub.params.zipIdx.mapM fun (slot, index) => do
    return (slot, ← emitAddressArrayFor slot index)
  if s.stub.hasStringArrays then emitProtectedCall helper s slots else emitCall helper s slots
  Emit.instr .ret

/-- The body that replaces a stub. -/
def compile (helper : TypeName) (s : StubScaffold) : Except BindError Body :=
  (Emit.body (emit helper s)).mapError fun e =>
    .emit ("body of " ++ s.stub.qualifiedName) (.body e)

end LateBind.StubBody
