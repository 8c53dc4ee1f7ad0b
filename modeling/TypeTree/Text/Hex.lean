/-
  Hexadecimal digits, read and written.  Digits are written in lower case and read in either.
-/
import TypeTree.Text.Scanned

namespace TypeTree.Text

/-- The value of a hexadecimal digit. -/
def hexDigit? (c : Char) : Option Nat :=
  if '0' ≤ c ∧ c ≤ '9' then some (c.toNat - '0'.toNat)
  else if 'a' ≤ c ∧ c ≤ 'f' then some (c.toNat - 'a'.toNat + 10)
  else if 'A' ≤ c ∧ c ≤ 'F' then some (c.toNat - 'A'.toNat + 10)
  else none

/-- The value of a row of hexadecimal digits, if all of them are. -/
def hexValue? (digits : List Char) : Option Nat :=
  digits.foldlM (fun v c => (hexDigit? c).map (16 * v + ·)) 0

/-- Four hexadecimal digits at the front of a text, with their value. -/
def hexQuad? (s : List Char) : Option (Scanned (List Char × Nat) (s.length + 1)) :=
  match s with
  | a :: b :: c :: d :: t =>
    (hexValue? [a, b, c, d]).map fun v =>
      ⟨([a, b, c, d], v), t, by simp only [List.length_cons]; omega⟩
  | _ => none

/-- The hexadecimal digits of `n`, without leading zeros. -/
def hexDigits (n : Nat) : List Char :=
  Nat.toDigits 16 n

/-! ## Surrogates

Codes above 16 bits are written as two halves, a high and a low surrogate. -/

/-- `v` is the first half of a surrogate pair. -/
def isHighSurrogate (v : Nat) : Bool :=
  decide (0xD800 ≤ v) && decide (v ≤ 0xDBFF)

/-- `v` is the second half of a surrogate pair. -/
def isLowSurrogate (v : Nat) : Bool :=
  decide (0xDC00 ≤ v) && decide (v ≤ 0xDFFF)

/-- The character that a surrogate pair stands for. -/
def ofSurrogates (high low : Nat) : Char :=
  Char.ofNat (0x10000 + (high - 0xD800) * 0x400 + (low - 0xDC00))

end TypeTree.Text
