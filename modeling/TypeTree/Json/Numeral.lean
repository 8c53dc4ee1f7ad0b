/-
  The value of a JSON numeral.

  A numeral without fraction and exponent is an exact integer as long as it fits a 64-bit word.
  Every other numeral is a double, found by collecting digits into a 64-bit significand and
  multiplying or dividing ONCE by a power of ten.  The product is not corrected, so the last bit may
  differ from that of the nearest double.
-/
import TypeTree.Json.Value

namespace TypeTree

/-- `c` is a decimal digit. -/
def isDigit (c : Char) : Bool :=
  decide ('0' ≤ c) && decide (c ≤ '9')

/-- The value of a decimal digit. -/
def digitValue (c : Char) : Nat :=
  c.toNat - '0'.toNat

/-- A numeral by its parts; the digits stand as they were written. -/
structure Numeral where
  negative : Bool
  whole : List Char
  fraction : Option (List Char)
  /-- the sign of the exponent (`true` for minus) and its digits -/
  exponent : Option (Bool × List Char)

namespace Numeral

/-- The greatest 64-bit word. -/
def wordMax : Nat := 0xFFFFFFFFFFFFFFFF

/-- The greatest exponent that is kept. -/
def exponentMax : Nat := 0x7FFFFFFF

/-- Digits collected so far, and the power of ten they are to be multiplied by. -/
structure Significand where
  digits : Nat
  exponent : Int

/-- Collects the digits of the whole part.  Once a digit does not fit, it and all later ones only
    raise the exponent. -/
def collectWhole (s : Significand) : List Char → Significand
  | [] => s
  | d :: ds =>
    if 10 * s.digits + digitValue d ≤ wordMax then
      collectWhole ⟨10 * s.digits + digitValue d, s.exponent⟩ ds
    else ⟨s.digits, s.exponent + (ds.length + 1 : Nat)⟩

/-- Collects the digits of the fraction.  Once a digit does not fit, it and all later ones are
    dropped. -/
def collectFraction (s : Significand) : List Char → Significand
  | [] => s
  | d :: ds =>
    if 10 * s.digits + digitValue d ≤ wordMax then
      collectFraction ⟨10 * s.digits + digitValue d, s.exponent - 1⟩ ds
    else s

/-- The value of the exponent's digits, or how many of them were still unread when it became too
    great. -/
def collectExponent (e : Nat) : List Char → Except Nat Nat
  | [] => .ok e
  | d :: ds =>
    if 10 * e + digitValue d ≤ exponentMax then collectExponent (10 * e + digitValue d) ds
    else .error ds.length

/-- `10^k` as a double. -/
def powerOfTen (k : Nat) : Float :=
  Float.ofScientific 1 false k

/-- `x · 10^e`, by one product or quotient where `10^|e|` is a double.  Below that range `x` is
    first divided by `10^308`.  There is no result above the greatest double. -/
def scale (x : Float) (e : Int) : Option Float :=
  if e.natAbs ≤ 308 then
    if 0 ≤ e then
      let y := x * powerOfTen e.toNat
      if y.isInf then none else some y
    else some (x / powerOfTen (-e).toNat)
  else if x == 0 then some x
  else if 0 ≤ e then none
  else scale (x / powerOfTen 308) (e + 308)
termination_by e.natAbs
decreasing_by omega

/-- Keeps an exponent within 32 bits. -/
def saturate (e : Int) : Int :=
  max (-0x80000000) (min e exponentMax)

/-- A double with the given sign. -/
def signed (negative : Bool) (x : Float) : Number :=
  .float (if negative then -x else x)

/-- The double `± digits · 10^exponent`. -/
def toDouble (negative : Bool) (s : Significand) : Except Nat Number :=
  match scale (UInt64.ofNat s.digits).toFloat s.exponent with
  | some x => .ok (signed negative x)
  | none => .error 0

/-- The number without fraction and exponent.  A negative zero, and a negative number below the
    signed 64-bit range, is a double. -/
def toInteger (negative : Bool) (n : Nat) : Number :=
  if !negative then .int n
  else if n = 0 ∨ 0x8000000000000000 < n then signed true (UInt64.ofNat n).toFloat
  else .int (-n)

/-- The value of a numeral, or, if it is out of range, how many digits at its end had not been
    looked at when that was clear. -/
def value (n : Numeral) : Except Nat Number :=
  let whole := collectWhole ⟨0, 0⟩ n.whole
  match n.fraction, n.exponent with
  | none, none =>
    if whole.exponent = 0 then .ok (toInteger n.negative whole.digits)
    else toDouble n.negative whole
  | fraction, none => toDouble n.negative (collectFraction whole (fraction.getD []))
  | fraction, some (down, digits) =>
    let s := collectFraction whole (fraction.getD [])
    match collectExponent 0 digits with
    | .ok e =>
      let exponent := if down then s.exponent - e else s.exponent + e
      toDouble n.negative ⟨s.digits, saturate exponent⟩
    | .error unread =>
      if s.digits = 0 ∨ down then .ok (signed n.negative 0) else .error unread

end Numeral

end TypeTree
