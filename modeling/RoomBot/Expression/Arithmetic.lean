/-!
# Whole-number arithmetic with a range

Expressions are evaluated over the whole numbers that fit 64 bits with a sign.  Nothing wraps:
an operation whose exact result lies outside that range is a fault, and so is a division by
zero.  Division drops the fraction, toward zero.
-/

namespace RoomBot.Expression

/-! ## Faults -/

/-- Why an expression has no value. -/
inductive Fault
  | divisionByZero
  | outOfRange
  | tooDeep
deriving DecidableEq, Repr

/-- The text of a fault. -/
def Fault.message : Fault → String
  | divisionByZero => "division by zero"
  | outOfRange => "number out of range"
  | tooDeep => "expression nested too deeply"

/-! ## The range -/

/-- The least number an expression may reach. -/
def least : Int := -9223372036854775808

/-- The greatest number an expression may reach. -/
def greatest : Int := 9223372036854775807

/-- A number, if it is in range. -/
def inRange (n : Int) : Except Fault Int :=
  if least ≤ n ∧ n ≤ greatest then .ok n else .error .outOfRange

theorem inRange_eq_ok_iff {n m : Int} : inRange n = .ok m ↔ n = m ∧ least ≤ n ∧ n ≤ greatest := by
  unfold inRange
  grind

/-! ## Operators -/

/-- The four operators between two operands. -/
inductive Operator
  | times
  | divided
  | plus
  | minus
deriving DecidableEq, Repr

namespace Operator

/-- The operators, tightest first. Each binds more tightly than all that follow it, so that
`8/2*2` is `8/(2*2)` and `5-2+1` is `5-(2+1)`: no two of them share a level. -/
def order : List Operator := [times, divided, plus, minus]

/-- The value of an operator between two numbers. -/
def apply : Operator → Int → Int → Except Fault Int
  | times, a, b => inRange (a * b)
  | divided, a, b => if b = 0 then .error .divisionByZero else inRange (a.tdiv b)
  | plus, a, b => inRange (a + b)
  | minus, a, b => inRange (a - b)

end Operator

end RoomBot.Expression
