import LateBind.Bytes

/-! UTF-8 text of which some bytes may belong to no character. -/

namespace LateBind.Utf8

/-- A character, or a byte that belongs to none. -/
abbrev Symbol := Option Char

/-- Reads bytes behind symbols that have been read, which stand last first. A byte with which no
character starts is a symbol of its own. -/
def symbolsBehind (seen : List Symbol) (bytes : Bytes) : List Symbol :=
  match bytes with
  | [] => seen.reverse
  | byte :: rest =>
    match ByteArray.utf8DecodeChar? ⟨((byte :: rest).take 4).toArray⟩ 0 with
    | some c => symbolsBehind (some c :: seen) (rest.drop (c.utf8Size - 1))
    | none => symbolsBehind (none :: seen) rest
termination_by bytes.length
decreasing_by all_goals (simp only [List.length_cons, List.length_drop]; omega)

def symbols (bytes : Bytes) : List Symbol := symbolsBehind [] bytes

end LateBind.Utf8
