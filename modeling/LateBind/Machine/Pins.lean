import LateBind.Machine.State

/-! Pins: native copies of arrays, boxes and strings whose address managed code has taken. -/

namespace LateBind.Machine

/-- A string's characters start this far into its native copy, behind its length. -/
def stringDataOffset : Nat := 8

/-- The native copy of a string, which ends with a zero unit. -/
def stringImage (units : Units) : Bytes :=
  Bytes.ofNat 4 units.length ++ [0, 0, 0, 0] ++ Bytes.ofUnits units ++ [0, 0]

/-- What the native copy of a source holds now. -/
def pinnedBytes (m : Machine) (source : PinSource) : Exec Bytes := do
  match source with
  | .elements array start =>
    match ← Exec.object array with
    | .array element items =>
      return (← Exec.lift ((items.toList.drop start).mapM (m.module.encode element))).flatten
    | o => Exec.unsupported (.cannotPin o.className)
  | .boxed box =>
    match ← Exec.object box with
    | .boxed t v => Exec.lift (m.module.encode t v)
    | o => Exec.unsupported (.cannotPin o.className)
  | .str text =>
    match ← Exec.object text with
    | .str units => return stringImage units
    | o => Exec.unsupported (.cannotPin o.className)

/-- The address of the native copy of a source; there is one copy of each. -/
def pin (m : Machine) (source : PinSource) : Exec UInt64 := do
  match (← get).pins.find? (·.source == source) with
  | some p => return p.block
  | none =>
    let block ← Exec.allocBytes (← m.pinnedBytes source) .pinned
    modify fun s => { s with pins := s.pins ++ [⟨block, source⟩] }
    return block

def pinAddress (m : Machine) : Address → Exec UInt64
  | .element array index => m.pin (.elements array index)
  | .boxed box => m.pin (.boxed box)

def pinString (m : Machine) (r : ObjRef) : Exec UInt64 := do
  match ← Exec.object r with
  | .str _ => m.pin (.str r)
  | o => Exec.unsupported (.noAddress o.className)

/-- Brings a native copy up to date. -/
def refresh (m : Machine) (p : Pin) : Exec Unit := do
  let bytes ← m.pinnedBytes p.source
  Exec.setHeap (← Exec.access p.block (·.write? p.block bytes))

/-- Takes over what native code wrote; strings never change. A copy from behind the end of its array
cannot be read. -/
def takeBack (m : Machine) (p : Pin) : Exec Unit := do
  match p.source with
  | .elements array start =>
    match ← Exec.object array with
    | .array element items =>
      let size ← Exec.lift (m.module.size element)
      let data ← Exec.access p.block fun heap =>
        if start ≤ items.size then heap.read? p.block (size * (items.size - start)) else none
      let read ← Exec.lift ((data.chunks size).mapM (m.module.decode element))
      Exec.setObject array (.array element (items.take start ++ read))
    | _ => pure ()
  | .boxed box =>
    match ← Exec.object box with
    | .boxed t _ =>
      let size ← Exec.lift (m.module.size t)
      let data ← Exec.access p.block (·.read? p.block size)
      Exec.setObject box (.boxed t (← Exec.lift (m.module.decode t data)))
    | _ => pure ()
  | .str _ => pure ()

def refreshPins (m : Machine) : Exec Unit := do (← get).pins.forM m.refresh

def takeBackPins (m : Machine) : Exec Unit := do (← get).pins.forM m.takeBack

/-- Frees every native copy; after a copy that cannot be freed the others stay. -/
def releasePins : Exec Unit := do
  let pins := (← get).pins
  modify fun s => { s with pins := [] }
  pins.forM fun p => Exec.free p.block

end LateBind.Machine
