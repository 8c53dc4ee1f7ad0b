/-
  Text that a terminal only shows.

  Some controls make a terminal do something: bell, backspace, form feed, escape, delete, and the
  controls U+0080 to U+009F.  In a log each of them is spelled out.  All other characters, line
  breaks and tabs among them, stay as they are.
-/
import TypeTree.Text.Hex

namespace TypeTree.Text

/-- One character of a log. -/
def inertChar (c : Char) : List Char :=
  match c with
  | '\x07' => ['\\', 'x', '0', '7']
  | '\x08' => ['\\', 'x', '0', '8']
  | '\x0c' => ['\\', 'x', '0', 'c']
  | '\x1b' => ['\\', 'x', '1', 'b']
  | '\x7f' => ['\\', 'x', '7', 'f']
  | c =>
    if 0x80 ≤ c.toNat ∧ c.toNat ≤ 0x9F then ['\\', 'u', '\x7b'] ++ hexDigits c.toNat ++ ['\x7d']
    else [c]

/-- The text with the controls spelled out that a terminal would act on. -/
def inert (s : String) : String :=
  String.ofList (s.toList.flatMap inertChar)

end TypeTree.Text
