import LateBind.Text.CharClass
import LateBind.Text.Hex

/-! Quoted text for listings: whatever would not be seen as itself is escaped. -/

namespace LateBind.Text

def quoteChar (c : Char) : String :=
  match c with
  | '\t' => "\\t"
  | '\r' => "\\r"
  | '\n' => "\\n"
  | '\x00' => "\\0"
  | '"' => "\\\""
  | '\\' => "\\\\"
  | c =>
    if isGraphemeExtend c || !isPrintable c then "\\u\x7b" ++ Hex.ofNat c.toNat ++ "\x7d"
    else c.toString

def quote (s : String) : String :=
  "\"" ++ String.join (s.toList.map quoteChar) ++ "\""

end LateBind.Text
