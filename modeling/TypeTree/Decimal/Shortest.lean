/-
  The shortest decimal that reads back as a given double.

  For one digit, two digits and so on, the two decimals nearest to the number with that many
  digits are tried; the first length at which one of them reads back wins, and of two that do, the
  nearer.  Seventeen digits always suffice.  Where both are equally near, the even one is taken.
-/
import TypeTree.Decimal.Binary

namespace TypeTree.Decimal

/-- The number `digits · 10^exponent`. -/
structure Scientific where
  digits : Nat
  exponent : Int
  deriving DecidableEq, Repr

/-- The least `k` for which the number is below `10^k`.  Every positive double is above
    `10^(-350)`, so the whole part of its `10^350`-fold has a first digit to count from. -/
def magnitude (b : Binary) : Int :=
  let (num, den) := b.ratio (-350)
  (Nat.toDigits 10 (num / den)).length - 350

/-- The decimal nearest to the number among the multiples of `10^e` that read back. -/
def nearest? (b : Binary) (e : Int) : Option Scientific :=
  let (num, den) := b.ratio e
  let below := num / den
  let beyond := 2 * (num % den)
  let upFirst := if beyond = den then below % 2 = 1 else den < beyond
  let (first, second) := if upFirst then (below + 1, below) else (below, below + 1)
  if b.readsBack first e then some ⟨first, e⟩
  else if b.readsBack second e then some ⟨second, e⟩
  else none

/-- Tries `fuel` lengths, each one digit longer than the last. -/
def shortestFrom (b : Binary) (e : Int) : Nat → Scientific
  | 0 => let (num, den) := b.ratio e; ⟨num / den, e⟩
  | fuel + 1 => (nearest? b e).getD (shortestFrom b (e - 1) fuel)

/-- Takes trailing zeros of the digits into the exponent. -/
def Scientific.trim (s : Scientific) : Scientific :=
  let zeros := ((Nat.toDigits 10 s.digits).reverse.takeWhile (· == '0')).length
  ⟨s.digits / Nat.pow 10 zeros, s.exponent + zeros⟩

/-- The shortest decimal that reads back as this positive number. -/
def shortest (b : Binary) : Scientific :=
  (shortestFrom b (magnitude b - 1) 17).trim

end TypeTree.Decimal
