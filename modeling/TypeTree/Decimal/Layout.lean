/-
  How a double is written: the shortest digits that read back, positionally where the exponent is
  small and in exponent form elsewhere.
-/
import TypeTree.Decimal.Shortest

namespace TypeTree.Decimal

/-- The choices that are left once the digits are known. -/
structure Layout where
  /-- the least exponent of the first digit that is still written positionally -/
  least : Int
  /-- the greatest such exponent -/
  greatest : Int
  deriving DecidableEq, Repr

/-- Numbers from 0.00001 to below 10^16 are written positionally. -/
def standard : Layout := ⟨-5, 15⟩

namespace Layout

/-- Digits with the point behind place `exponent`, and at least one digit on either side. -/
def positional (digits : List Char) (exponent : Int) : List Char :=
  if exponent < 0 then
    '0' :: '.' :: List.replicate (-exponent - 1).toNat '0' ++ digits
  else
    let places := exponent.toNat + 1
    let whole := digits.take places
    let fraction := digits.drop places
    whole ++ List.replicate (places - whole.length) '0' ++ '.' ::
      (if fraction.isEmpty then ['0'] else fraction)

/-- One digit before the point, and the exponent with its sign.  A single digit has no point. -/
def scientific (digits : List Char) (exponent : Int) : List Char :=
  let sign := if exponent < 0 then '-' else '+'
  let mantissa := match digits with
    | first :: second :: more => first :: '.' :: second :: more
    | single => single
  mantissa ++ 'e' :: sign :: Nat.toDigits 10 exponent.natAbs

/-- A finite double as text. -/
def render (l : Layout) (x : Float) : List Char :=
  let b := Binary.ofFloat x
  let sign := if x.toBits.toNat < 0x8000000000000000 then [] else ['-']
  if b.mantissa = 0 then sign ++ ['0', '.', '0']
  else
    let s := shortest b
    let digits := Nat.toDigits 10 s.digits
    let exponent := s.exponent + digits.length - 1
    sign ++
      if l.least ≤ exponent ∧ exponent ≤ l.greatest then positional digits exponent
      else scientific digits exponent

end Layout

end TypeTree.Decimal
