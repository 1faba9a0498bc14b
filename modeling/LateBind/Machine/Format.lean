import LateBind.Machine.State
import LateBind.Value.Format

/-! Values of a session as JSON, with what they refer to. -/

namespace LateBind.MachineState

/-- Strings, arrays, delegates and boxes come with their content, other objects as a word. `depth`
bounds how far references are followed. -/
def describe (s : MachineState) : Nat → Value → Json
  | depth + 1, .ref r =>
    match s.objects[r.index]? with
    | some (.str units) => .obj [("str", .str units.toText)]
    | some (.array _ items) => .obj [("array", .arr (items.toList.map (s.describe depth)))]
    | some (.delegate _ target) => .obj [("delegate", .pointer target)]
    | _ => .str "object"
  | depth + 1, .address (.boxed box) =>
    match s.objects[box.index]? with
    | some (.boxed _ v) => .obj [("boxed", s.describe depth v)]
    | _ => .str "address"
  | _, .address (.element _ index) => .obj [("element", .nat index)]
  | _, v => v.toJson

/-- A chain of references without a circle is no longer than there are objects. -/
def valueJson (s : MachineState) (v : Value) : Json := s.describe (s.objects.size + 1) v

end LateBind.MachineState
