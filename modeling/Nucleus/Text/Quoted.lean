import Nucleus.Text.Numeral
import Nucleus.Text.Escaped

/-!
# Quoted texts

A text between double quotes, so that it can be told apart from what stands around it: quotes and backslashes take a backslash,
the common controls have letters, and what could not be seen is shown by its number.
-/

namespace Nucleus

/-- How a character stands inside a quoted text. The single quote stands for itself. -/
def quotedChar (c : Char) : String :=
  match c with
  | '"' => "\\\""
  | '\\' => "\\\\"
  | '\t' => "\\t"
  | '\n' => "\\n"
  | '\r' => "\\r"
  | '\x00' => "\\0"
  | c =>
    if isShownByNumber c then "\\u\x7b" ++ hexText c.toNat ++ "\x7d" else String.singleton c

/-- A text between double quotes. -/
def quoted (text : String) : String :=
  "\"" ++ String.join (text.toList.map quotedChar) ++ "\""

/-- A list of texts: quoted, with a comma and a blank between them, in square brackets. -/
def quotedList (texts : List String) : String :=
  "[" ++ String.intercalate ", " (texts.map quoted) ++ "]"

end Nucleus
