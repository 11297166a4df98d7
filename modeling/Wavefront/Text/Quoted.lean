import Wavefront.Text.Blank
import Wavefront.Text.Escaped

/-!
# Quoted texts

A text in double quotes in which quotes, backslashes and the common controls are escaped by a
letter, and every other character that does not print on its own by its code point.
-/

namespace Wavefront.Text

/-- The escape of a code point. -/
def codeEscape (c : Char) : String := "\\u\x7b" ++ String.ofList (Nat.toDigits 16 c.toNat) ++ "\x7d"

/-- A character as it stands in a quoted text. -/
def quotedChar (c : Char) : String :=
  match c with
  | '\x00' => "\\0"
  | '\t' => "\\t"
  | '\n' => "\\n"
  | '\r' => "\\r"
  | '"' => "\\\""
  | '\\' => "\\\\"
  | _ => if isEscaped c then codeEscape c else String.singleton c

/-- A text in quotes. -/
def quoted (s : String) : String := "\"" ++ String.join (s.toList.map quotedChar) ++ "\""

end Wavefront.Text
