/-
  Quoted text: a string between double quotes, on one line, from which the string can be told.

  A double quote and a backslash are written behind a backslash, the common controls by a letter,
  and every other character that does not show by itself as `\u` with its code point in braces.
-/
import TypeTree.Text.Hex
import TypeTree.Text.Unprintable

namespace TypeTree.Text

/-- One character as it stands inside quotes. -/
def escape (c : Char) : List Char :=
  match c with
  | '"' => ['\\', '"']
  | '\\' => ['\\', '\\']
  | '\n' => ['\\', 'n']
  | '\r' => ['\\', 'r']
  | '\t' => ['\\', 't']
  | '\x00' => ['\\', '0']
  | c => if isUnprintable c then ['\\', 'u', '\x7b'] ++ hexDigits c.toNat ++ ['\x7d'] else [c]

/-- A string in quotes. -/
def quote (s : String) : String :=
  String.ofList ('"' :: s.toList.flatMap escape ++ ['"'])

end TypeTree.Text
