/-
Equality and order of values.

Two texts are compared as texts, by their characters; everything else that is
ordered at all is ordered by number. Loose equality compares across kinds by
number too, except that null equals nothing but null; strict equality demands one
kind. The number that is no number is neither equal to nor ordered with anything,
itself included.
-/
import Lipi.Value.Numeric

set_option autoImplicit false

namespace Lipi.Value

/-- The order of two numbers, if they have one. -/
def compareNumbers (x y : Float) : Option Ordering :=
  if x < y then some .lt
  else if x == y then some .eq
  else if y < x then some .gt
  else none

/-- Equality across kinds (`loose_eq`). -/
def looseEq : Value → Value → Bool
  | null, null => true
  | null, _ => false
  | _, null => false
  | text s, text t => s == t
  | bool a, bool b => a == b
  | v, w => v.toNumber == w.toNumber

/-- Equality within a kind (`strict_eq`). -/
def strictEq : Value → Value → Bool
  | number x, number y => x == y
  | text s, text t => s == t
  | bool a, bool b => a == b
  | null, null => true
  | _, _ => false

/-- The order of two values, if they have one: two texts by their characters,
anything else by number (`compare`). -/
def compare : Value → Value → Option Ordering
  | text s, text t => some (compareOfLessAndEq s t)
  | v, w => compareNumbers v.toNumber w.toNumber

end Lipi.Value
