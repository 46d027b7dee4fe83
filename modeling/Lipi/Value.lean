/-
Values: what a script computes with.

There are four kinds, numbers, texts, truth values and null, and any value can be
asked whether it counts as true. Conversions between kinds live beside this file:
`Value.Numeric` (what number a value stands for), `Value.Written` (how it is
printed) and `Value.Comparison` (equality and order), each a function of the
value alone.
-/

set_option autoImplicit false

namespace Lipi

/-- A value of a script (`Value`). -/
inductive Value where
  | number (x : Float)
  | text (s : String)
  | bool (b : Bool)
  | null
deriving DecidableEq, Repr, Inhabited

namespace Value

/-- Whether a value counts as true: everything does except false, zero of either sign,
the number that is no number, the empty text and null (`is_truthy`). -/
def isTruthy : Value → Bool
  | number x => x != 0 && !x.isNaN
  | text s => s != ""
  | bool b => b
  | null => false

/-- Whether a value is a text (`is_string`). -/
def isText : Value → Bool
  | text _ => true
  | _ => false

end Value

end Lipi
