import JniLink.Text.Hex
import JniLink.Text.Printable

/-!
# Quoted text

Text between double quotes for messages and reports: the usual controls, the double quote and the
backslash are escaped with a backslash, a character without a visible form is written by its number.
-/

namespace JniLink.Text

/-- How a character is written between double quotes; a single quote stands for itself. -/
def quoteChar (c : Char) : List Char :=
  match c with
  | '\x00' => ['\\', '0']
  | '\t' => ['\\', 't']
  | '\n' => ['\\', 'n']
  | '\r' => ['\\', 'r']
  | '"' => ['\\', '"']
  | '\\' => ['\\', '\\']
  | c =>
    if isPrintable c then [c]
    else ['\\', 'u', '\x7b'] ++ Hex.digits c.toNat ++ ['\x7d']

/-- A text between double quotes. -/
def quote (t : String) : String :=
  String.ofList ('"' :: t.toList.flatMap quoteChar ++ ['"'])

end JniLink.Text
