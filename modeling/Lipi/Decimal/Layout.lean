/-
Two ways to write a decimal down.

Positional notation puts the point where it belongs and fills up with zeros on
whichever side needs them; a whole number gets no point. Scientific notation
puts the point after the first digit and the power of ten after an `e`, with its
sign always shown. Neither loses or adds a digit, so which one is used is a
question of taste: tokens are always shown positionally, values switch to
scientific notation outside a range of magnitudes.
-/
import Lipi.Decimal.Shortest

set_option autoImplicit false

namespace Lipi.Decimal

/-- Positional notation. -/
def positional (d : Decimal) : List Char :=
  let ds := d.digits
  let point := d.pointPosition
  if 0 ≤ d.exponent then ds ++ List.replicate d.exponent.toNat '0'
  else if 0 < point then ds.take point.toNat ++ '.' :: ds.drop point.toNat
  else '0' :: '.' :: (List.replicate (-point).toNat '0' ++ ds)

/-- A whole number in decimal digits, with its sign even when positive. -/
def signedDigits (e : Int) : List Char :=
  (if e < 0 then '-' else '+') :: Nat.toDigits 10 e.natAbs

/-- Scientific notation. -/
def scientific (d : Decimal) : List Char :=
  let power := 'e' :: signedDigits (d.pointPosition - 1)
  match d.digits with
  | [] => power
  | [c] => c :: power
  | c :: c' :: cs => c :: '.' :: c' :: (cs ++ power)

/-- A double in positional notation whatever its magnitude, as source tokens show
it. -/
def positionalText (x : Float) : String :=
  let body :=
    if x.isNaN then "NaN".toList
    else if x.isInf then "inf".toList
    else (shortest (Binary64.magnitude x)).positional
  String.ofList (if Binary64.isNegative x && !x.isNaN then '-' :: body else body)

end Lipi.Decimal
