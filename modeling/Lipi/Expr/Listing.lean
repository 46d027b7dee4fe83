/-
Expressions as a listing shows them.

An operator between two operands is always wrapped in parentheses, so the listing
shows how an expression was grouped; everything else is written bare. Values are
written as the log would print them, except that a text stands in quotes.
-/
import Lipi.Expr
import Lipi.Text.Quoted
import Lipi.Value.Written

set_option autoImplicit false

namespace Lipi

/-- A value as a listing shows it. -/
def Value.listed : Value → String
  | .text s => Text.quoted s
  | v => v.written

/-- What stands between the name and the value of an assignment. -/
def Expr.assignSign : Option BinaryOp → String
  | some op => op.symbol ++ "="
  | none => "="

/-- An expression as a listing shows it (`fmt` of `Expr`). -/
def Expr.listed : Expr → String
  | .literal v => v.listed
  | .var name => name
  | .unary op operand => op.symbol ++ operand.listed
  | .binary op left right => "(" ++ left.listed ++ " " ++ op.symbol ++ " " ++ right.listed ++ ")"
  | .assign name op value => name ++ " " ++ assignSign op ++ " " ++ value.listed
  | .update name op true => op.symbol ++ name
  | .update name op false => name ++ op.symbol

end Lipi
