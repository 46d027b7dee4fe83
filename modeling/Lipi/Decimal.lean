/-
Decimal numbers, and the double each one stands for.

A decimal is a coefficient times a power of ten. Reading one as a double is one
rule with no exceptions: the nearest double, ties to the even bit pattern. The
powers of ten in a text can be far beyond any double, so the two ends of the
range are settled first by bounds on the order of magnitude, and the exact quotient
is formed only in between; the bounds leave room on both sides, so they never decide
a case that rounding would decide differently.
-/
import Lipi.Binary64

set_option autoImplicit false

namespace Lipi

/-- `coefficient * 10 ^ exponent`. -/
structure Decimal where
  coefficient : Nat
  exponent : Int
deriving DecidableEq, Repr, Inhabited

namespace Decimal

/-- Decimals have a base to divide by. -/
theorem base_pos : 0 < 10 := by decide

/-- The decimal digits of the coefficient, the most significant first. -/
def digits (d : Decimal) : List Char :=
  Nat.toDigits 10 d.coefficient

/-- How many digits stand before the point when the decimal is written out;
negative when zeros follow the point. -/
def pointPosition (d : Decimal) : Int :=
  d.digits.length + d.exponent

/-- The exact value. -/
def value (d : Decimal) : Ratio :=
  Ratio.scaled d.coefficient 10 d.exponent base_pos

/-- A power of ten that the value reaches: three tenths of a bit are less than a
digit. -/
def lowerPower (d : Decimal) : Int :=
  d.exponent + (d.coefficient.log2 * 3 / 10 : Nat)

/-- A power of ten that the value stays below: thirty-one hundredths of a bit are
more than a digit. -/
def upperPower (d : Decimal) : Int :=
  d.exponent + ((d.coefficient.log2 + 1) * 31 / 100 + 1 : Nat)

/-- Every decimal that reaches this power of ten is beyond all doubles. -/
def hugePower : Int := 309

/-- Every decimal that stays below this power of ten is nearest to zero. -/
def tinyPower : Int := -330

/-- The magnitude pattern of the nearest double. -/
def nearest (d : Decimal) : Nat :=
  if d.coefficient = 0 then 0
  else if hugePower ≤ d.lowerPower then Binary64.infinity
  else if d.upperPower ≤ tinyPower then 0
  else Binary64.nearest d.value

/-- The nearest double, with a sign. -/
def toFloat (negative : Bool) (d : Decimal) : Float :=
  Binary64.ofMagnitude negative d.nearest

/-- The same value with a coefficient that does not end in a zero. -/
def trimmed (coefficient : Nat) (exponent : Int) : Decimal :=
  if coefficient % 10 = 0 ∧ 0 < coefficient then trimmed (coefficient / 10) (exponent + 1)
  else ⟨coefficient, exponent⟩
termination_by coefficient
decreasing_by omega

end Decimal

end Lipi
