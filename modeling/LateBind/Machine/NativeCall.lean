import LateBind.Machine.Pins

/-! Calls from managed to native code: through a pointer, where values cross as they are, and
through an import stub, where strings are copied and booleans take four bytes. -/

namespace LateBind.Machine

/-- How the functions of a world are called. -/
abbrev NativeCall := UInt64 → List NativeValue → Native NativeValue

/-- What a native function raises is an exception, and its other faults stop the program. -/
def settle : Except NativeFault NativeValue → Exec NativeValue
  | .ok v => return v
  | .error (.raised message) => Exec.raise "System.Runtime.InteropServices.SEHException" message
  | .error (.invalidAddress address) => Exec.fatal (.invalidAddress address)
  | .error (.badArguments message) => Exec.fatal (.native (.told message))
  | .error .outOfFuel => Exec.fatal .outOfFuel

/-- A native call between bringing the pinned copies up to date and taking them back; that a copy
cannot be taken back hides how the call went. -/
def callPinned (m : Machine) (call : NativeCall) (address : UInt64) (args : List NativeValue) :
    Exec (Except NativeFault NativeValue) := do
  m.refreshPins
  let outcome ← Exec.native (call address args)
  m.takeBackPins
  return outcome

/-- Calls the function at an address. -/
def callIndirect (m : Machine) (call : NativeCall) (address : UInt64) (site : CallSite)
    (args : List Value) : Exec (Option Value) := do
  let converted ← Exec.lift ((site.params.zip args).mapM fun (t, v) => m.module.toNative t v)
  let result ← settle (← m.callPinned call address converted)
  Exec.lift (m.module.ofNative site.returnType result)

/-- The native copy of a string under a string mode. -/
def encodeString (charSet : CharSet) (units : Units) : Bytes :=
  match charSet with
  | .unicode => Bytes.ofUnits units ++ [0, 0]
  | .notSpecified | .ansi | .auto => Latin1.encode units.toText ++ [0]

/-- The argument of an import stub, and the block that was made for it. -/
def passArgument (m : Machine) (charSet : CharSet) (t : TypeRef) (v : Value) :
    Exec (NativeValue × Option UInt64) := do
  match t, v with
  | .primitive .string, .null => return (.ptr 0, none)
  | .primitive .string, v =>
    let block ← Exec.allocBytes (encodeString charSet (← Exec.stringUnits v)) .temp
    return (.ptr block, some block)
  | .primitive .boolean, v => return (.ofBool v.isTrue, none)
  | t, v => return (← Exec.lift (m.module.toNative t v), none)

/-- The text that a native pointer leads to, or null. -/
def readString (charSet : CharSet) (v : NativeValue) : Exec Value := do
  match v.toPointer? with
  | none | some 0 => return .null
  | some address =>
    match charSet with
    | .unicode => Exec.str (← Exec.access address (·.readUnits? address))
    | .notSpecified | .ansi | .auto =>
      let bytes ← Exec.access address (·.readByteString? address)
      Exec.str (Latin1.units bytes)

/-- The result of an import stub. -/
def takeResult (m : Machine) (charSet : CharSet) (t : TypeRef) (v : NativeValue) :
    Exec (Option Value) := do
  match t with
  | .primitive .boolean => return some (.ofBool (v.toInt32?.any (· ≠ 0)))
  | .primitive .string => return some (← readString charSet v)
  | t => Exec.lift (m.module.ofNative t v)

/-- The address that an import names; without the library or the symbol there is an exception. -/
def resolveImport (m : Machine) (info : Import) (symbol : String) : Exec UInt64 := do
  match m.world.catalog.handle? info.library with
  | none =>
    Exec.raise "System.DllNotFoundException" ("Unable to load DLL '" ++ info.library ++ "'")
  | some handle =>
    let address := m.world.catalog.symbol handle symbol
    if address = 0 then
      Exec.raise "System.EntryPointNotFoundException"
        ("Unable to find an entry point named '" ++ symbol ++ "' in DLL '" ++ info.library ++ "'")
    else return address

/-- Calls the function that an import stub stands for. The copies of strings are freed before the
result is looked at. -/
def callImport (m : Machine) (call : NativeCall) (method : MethodDef) (info : Import)
    (args : List Value) : Exec (Option Value) := do
  let address ← m.resolveImport info (info.entryPoint.getD method.name)
  let passed ← (method.paramTypes.zip args).mapM fun (t, v) => m.passArgument info.charSet t v
  let outcome ← m.callPinned call address (passed.map Prod.fst)
  (passed.filterMap Prod.snd).forM Exec.free
  m.takeResult info.charSet method.returnType (← settle outcome)

end LateBind.Machine
