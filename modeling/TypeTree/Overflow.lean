/-
  Results that do not fit the machine.
-/

namespace TypeTree

/-- What is too great, or too small, for the machine. -/
inductive Overflow where
  /-- a difference of words is below zero -/
  | difference
  /-- a product of 64-bit words is no 64-bit word -/
  | product
  /-- a text would take more room than the greatest signed 64-bit word -/
  | capacity
  deriving DecidableEq, Repr

/-- The wording of an overflow. -/
def Overflow.message : Overflow → String
  | difference => "attempt to subtract with overflow"
  | product => "attempt to multiply with overflow"
  | capacity => "capacity overflow"

end TypeTree
