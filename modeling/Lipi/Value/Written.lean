/-
How a value is printed.

Texts print as they are, truth values and null by their names, and numbers by the
fewest digits that read back. A number is written positionally as long as its
first digit stands between the sixth place after the point and the twenty-first
before it, and in scientific notation beyond; zero has no sign.
-/
import Lipi.Decimal.Layout
import Lipi.Value

set_option autoImplicit false

namespace Lipi.Value

/-- The magnitudes that are written positionally, by the place of the first digit:
`lowest` is the power of ten of the smallest, `highest` of the greatest. -/
structure PositionalRange where
  lowest : Int
  highest : Int
deriving Repr

/-- Values are written positionally from a millionth up to, but not including,
`10 ^ 21`. -/
def positionalRange : PositionalRange := ⟨-6, 20⟩

/-- A positive finite number, by its magnitude pattern. -/
def magnitudeText (bits : Nat) : List Char :=
  let d := Decimal.shortest bits
  let place := d.pointPosition - 1
  if positionalRange.lowest ≤ place ∧ place ≤ positionalRange.highest then d.positional
  else
    -- A power of ten below zero shows its sign, one above zero shows a plus.
    d.scientific

/-- A number as the log and the listing show it (`format_number`). -/
def numberText (x : Float) : String :=
  if x.isNaN then "NaN"
  else if x.isInf then if Binary64.isNegative x then "-Infinity" else "Infinity"
  else if Binary64.magnitude x = 0 then "0"
  else
    let body := magnitudeText (Binary64.magnitude x)
    String.ofList (if Binary64.isNegative x then '-' :: body else body)

/-- A value as the log shows it (`fmt` of `Value`). -/
def written : Value → String
  | number x => numberText x
  | text s => s
  | bool true => "true"
  | bool false => "false"
  | null => "null"

end Lipi.Value
