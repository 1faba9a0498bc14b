/-! Names of types, qualified by a namespace. -/

namespace LateBind

structure TypeName where
  space : String
  name : String
  deriving DecidableEq, Repr

namespace TypeName

/-- Splits a dotted name at its last dot; a name without one has the empty namespace. -/
def parse (full : String) : TypeName :=
  let reversed := full.toList.reverse
  match reversed.dropWhile (· ≠ '.') with
  | [] => ⟨"", full⟩
  | _ :: before =>
    ⟨String.ofList before.reverse, String.ofList (reversed.takeWhile (· ≠ '.')).reverse⟩

def display (t : TypeName) : String :=
  if t.space.isEmpty then t.name else t.space ++ "." ++ t.name

end TypeName

end LateBind
