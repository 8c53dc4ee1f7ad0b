/-
  Writing JSON text, on one line (`compact`) or laid out over several (`pretty`).

  Members are written in the order in which the document has them.
-/
import TypeTree.Decimal.Layout
import TypeTree.Json.Value
import TypeTree.Text.Hex

namespace TypeTree.Json

/-! ## Scalars -/

/-- One character of a string.  Only the quote, the backslash and the controls below the space are
    escaped. -/
def escapeChar (c : Char) : List Char :=
  match c with
  | '"' => ['\\', '"']
  | '\\' => ['\\', '\\']
  | '\x08' => ['\\', 'b']
  | '\t' => ['\\', 't']
  | '\n' => ['\\', 'n']
  | '\x0c' => ['\\', 'f']
  | '\r' => ['\\', 'r']
  | c =>
    if c.toNat < 0x10 then ['\\', 'u', '0', '0', '0'] ++ Text.hexDigits c.toNat
    else if c.toNat < 0x20 then ['\\', 'u', '0', '0'] ++ Text.hexDigits c.toNat
    else [c]

/-- A string in quotes. -/
def quoted (s : String) : List Char :=
  '"' :: s.toList.flatMap escapeChar ++ ['"']

/-- A number. -/
def numberText : Number → List Char
  | .int n => if n < 0 then '-' :: Nat.toDigits 10 n.natAbs else Nat.toDigits 10 n.natAbs
  | .float x => Decimal.standard.render x

/-- A truth value. -/
def boolText (b : Bool) : List Char :=
  if b then ['t', 'r', 'u', 'e'] else ['f', 'a', 'l', 's', 'e']

/-- The text of `null`. -/
def nullText : List Char := ['n', 'u', 'l', 'l']

/-! ## One line -/

mutual

/-- The document without any white space. -/
def compactText : Json → List Char
  | null => nullText
  | bool b => boolText b
  | num n => numberText n
  | str s => quoted s
  | arr items => '[' :: compactItems items ++ [']']
  | obj members => '{' :: compactMembers members ++ ['}']

/-- The items with commas between them. -/
def compactItems : List Json → List Char
  | [] => []
  | item :: [] => compactText item
  | item :: next :: items => compactText item ++ ',' :: compactItems (next :: items)

/-- The members with commas between them. -/
def compactMembers : List (String × Json) → List Char
  | [] => []
  | (key, value) :: [] => quoted key ++ ':' :: compactText value
  | (key, value) :: next :: members =>
    quoted key ++ ':' :: compactText value ++ ',' :: compactMembers (next :: members)

end

/-- The document on one line. -/
def compact (j : Json) : String :=
  String.ofList (compactText j)

/-! ## Several lines -/

/-- A new line, indented by two spaces for each level. -/
def newLine (level : Nat) : List Char :=
  '\n' :: List.replicate (2 * level) ' '

mutual

/-- The document with each item and member on a line of its own, one level further in than the
    bracket around it.  An empty array or object stays on one line. -/
def prettyText (level : Nat) : Json → List Char
  | null => nullText
  | bool b => boolText b
  | num n => numberText n
  | str s => quoted s
  | arr [] => ['[', ']']
  | arr (item :: items) => '[' :: prettyItems (level + 1) (item :: items) ++ newLine level ++ [']']
  | obj [] => ['{', '}']
  | obj (m :: members) => '{' :: prettyMembers (level + 1) (m :: members) ++ newLine level ++ ['}']

/-- The items, each on a new line. -/
def prettyItems (level : Nat) : List Json → List Char
  | [] => []
  | item :: [] => newLine level ++ prettyText level item
  | item :: next :: items =>
    newLine level ++ prettyText level item ++ ',' :: prettyItems level (next :: items)

/-- The members, each on a new line. -/
def prettyMembers (level : Nat) : List (String × Json) → List Char
  | [] => []
  | (key, value) :: [] => newLine level ++ quoted key ++ ':' :: ' ' :: prettyText level value
  | (key, value) :: next :: members =>
    newLine level ++ quoted key ++ ':' :: ' ' :: prettyText level value ++
      ',' :: prettyMembers level (next :: members)

end

/-- The document over several lines, without a final line break. -/
def pretty (j : Json) : String :=
  String.ofList (prettyText 0 j)

end TypeTree.Json
