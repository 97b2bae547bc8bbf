/-
# Text in quotes

A text is shown between double quotes, with an escape for each character that would be misread:

| character | escape |
| --- | --- |
| NUL, tab, line feed, carriage return | `\0`, `\t`, `\n`, `\r` |
| quote, backslash | `\"`, `\\` |
| any other that is not printable | `\u{hex}`, without leading zeros |

A list of texts is shown between brackets, with `, ` between its members.
-/

import Bindery.Text.Digits
import Bindery.Text.Printable

namespace Bindery
namespace Text

/-- How a character is shown between quotes. -/
def shownChar (c : Char) : String :=
  match c with
  | '\x00' => "\\0"
  | '\t' => "\\t"
  | '\n' => "\\n"
  | '\r' => "\\r"
  | '"' => "\\\""
  | '\\' => "\\\\"
  | _ => if isPrintable c then String.singleton c else "\\u\x7b" ++ hexNat c.toNat ++ "\x7d"

/-- A text between quotes. -/
def quoted (s : String) : String := "\"" ++ String.join (s.toList.map shownChar) ++ "\""

/-- A list of texts between brackets. -/
def quotedList (texts : List String) : String := "[" ++ ", ".intercalate (texts.map quoted) ++ "]"

end Text
end Bindery
