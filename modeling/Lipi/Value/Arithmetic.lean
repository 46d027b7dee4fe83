/-
Operators on values.

A sum with a text in it joins texts; every other arithmetic operator works on the
numbers its operands stand for, and none of them can fail: a division by zero and a
text that spells no number have numbers for answers too. Comparisons are those of
`Value.Comparison`, and values without an order are neither less nor greater nor
equal. The two operators that may leave their right side alone are given here for
two values that are already known.
-/
import Lipi.Binary64
import Lipi.Expr
import Lipi.Value.Comparison
import Lipi.Value.Written

set_option autoImplicit false

namespace Lipi

/-- What an operator before a value makes of it. -/
def UnaryOp.apply : UnaryOp → Value → Value
  | negate, v => .number (-v.toNumber)
  | plus, v => .number v.toNumber
  | not, v => .bool (!v.isTruthy)

/-- A sum of numbers, or a text if one of the two is a text. -/
def Value.add (v w : Value) : Value :=
  if v.isText || w.isText then .text (v.written ++ w.written)
  else .number (v.toNumber + w.toNumber)

/-- What an operator between two values makes of them (`apply_binary`). -/
def BinaryOp.apply (op : BinaryOp) (v w : Value) : Value :=
  match op with
  | add => v.add w
  | sub => .number (v.toNumber - w.toNumber)
  | mul => .number (v.toNumber * w.toNumber)
  | div => .number (v.toNumber / w.toNumber)
  | rem => .number (Binary64.remainder v.toNumber w.toNumber)
  | eq => .bool (v.looseEq w)
  | ne => .bool (!v.looseEq w)
  | strictEq => .bool (v.strictEq w)
  | strictNe => .bool (!v.strictEq w)
  | lt => .bool (v.compare w == some .lt)
  | gt => .bool (v.compare w == some .gt)
  | le => .bool (v.compare w == some .lt || v.compare w == some .eq)
  | ge => .bool (v.compare w == some .gt || v.compare w == some .eq)
  | and => if v.isTruthy then w else v
  | or => if v.isTruthy then v else w

/-- What a step makes of a number. -/
def UpdateOp.apply : UpdateOp → Float → Float
  | increment, x => x + 1
  | decrement, x => x - 1

end Lipi
