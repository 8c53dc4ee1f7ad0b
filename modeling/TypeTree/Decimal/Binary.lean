/-
  Floating-point numbers as exact rationals.

  A finite double is ± m · 2^q for natural `m` and integer `q`.  `Binary` holds `m` and `q` of its
  absolute value, together with the one further fact that rounding depends on: whether the next
  double below is only half as far away as the next one above.
-/

namespace TypeTree.Decimal

/-- The number `mantissa · 2^exponent`; `narrow` if the gap to the next double below is half the
    gap to the next one above. -/
structure Binary where
  mantissa : Nat
  exponent : Int
  narrow : Bool
  deriving DecidableEq, Repr

namespace Binary

/-- The absolute value of a finite double. -/
def ofFloat (x : Float) : Binary :=
  let bits := x.toBits.toNat
  let fraction : Nat := bits % 0x10000000000000
  let scale : Nat := bits / 0x10000000000000 % 0x800
  if scale = 0 then ⟨fraction, -1074, false⟩
  else ⟨0x10000000000000 + fraction, (scale : Int) - 1075, fraction = 0 && 1 < scale⟩

/-- The number divided by `10^e`, as a numerator and a denominator. -/
def ratio (b : Binary) (e : Int) : Nat × Nat :=
  (b.mantissa * Nat.pow 2 b.exponent.toNat * Nat.pow 10 (-e).toNat,
   Nat.pow 2 (-b.exponent).toNat * Nat.pow 10 e.toNat)

/-- `n · 10^e` is read as this number: it lies between the midpoints to the two neighbouring
    doubles, ends included where the mantissa is even.  All four terms are brought to quarters of
    `2^exponent`, the unit in which both midpoints are whole. -/
def readsBack (b : Binary) (n : Nat) (e : Int) : Bool :=
  let (num, den) := Binary.ratio ⟨1, b.exponent - 2, false⟩ e
  let value := n * den
  let low := (4 * b.mantissa - if b.narrow then 1 else 2) * num
  let high := (4 * b.mantissa + 2) * num
  if b.mantissa % 2 = 0 then decide (low ≤ value) && decide (value ≤ high)
  else decide (low < value) && decide (value < high)

end Binary

end TypeTree.Decimal
