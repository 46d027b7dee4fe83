/-
Expressions.

An expression is a value, a variable, an operator applied to one or two
expressions, an assignment, or a step up or down of a variable. An assignment
may carry a binary operator, which then combines the old value of the variable
with the new one. The tree says nothing about how it was grouped in the source:
parentheses are gone, and so are the two spellings of an operator.
-/
import Lipi.Value

set_option autoImplicit false

namespace Lipi

/-- Operators before an operand (`UnOp`). -/
inductive UnaryOp where
  | negate
  | plus
  | not
deriving DecidableEq, Repr, Inhabited

/-- Operators between two operands (`BinOp`). -/
inductive BinaryOp where
  | add
  | sub
  | mul
  | div
  | rem
  | eq
  | ne
  | strictEq
  | strictNe
  | lt
  | le
  | gt
  | ge
  | and
  | or
deriving DecidableEq, Repr, Inhabited

/-- Steps of a variable by one (`UpdateOp`). -/
inductive UpdateOp where
  | increment
  | decrement
deriving DecidableEq, Repr, Inhabited

/-- An expression. An update is `leading` when its sign stands before the name:
it then yields the new value, otherwise the old one. -/
inductive Expr where
  | literal (v : Value)
  | var (name : String)
  | unary (op : UnaryOp) (operand : Expr)
  | binary (op : BinaryOp) (left right : Expr)
  | assign (name : String) (op : Option BinaryOp) (value : Expr)
  | update (name : String) (op : UpdateOp) (leading : Bool)
deriving DecidableEq, Repr, Inhabited

/-- The sign of a unary operator (`symbol`). -/
def UnaryOp.symbol : UnaryOp → String
  | negate => "-"
  | plus => "+"
  | not => "!"

/-- Every unary operator. -/
def UnaryOp.all : List UnaryOp := [negate, plus, not]

/-- The sign of a binary operator (`symbol`). -/
def BinaryOp.symbol : BinaryOp → String
  | add => "+"
  | sub => "-"
  | mul => "*"
  | div => "/"
  | rem => "%"
  | eq => "=="
  | ne => "!="
  | strictEq => "==="
  | strictNe => "!=="
  | lt => "<"
  | le => "<="
  | gt => ">"
  | ge => ">="
  | and => "&&"
  | or => "||"

/-- Every binary operator. -/
def BinaryOp.all : List BinaryOp :=
  [add, sub, mul, div, rem, eq, ne, strictEq, strictNe, lt, le, gt, ge, and, or]

/-- The sign of an update (`symbol`). -/
def UpdateOp.symbol : UpdateOp → String
  | increment => "++"
  | decrement => "--"

/-- Every update. -/
def UpdateOp.all : List UpdateOp := [increment, decrement]

/-- The height of an expression, a single node counting as one. -/
def Expr.height : Expr → Nat
  | literal _ => 1
  | var _ => 1
  | unary _ operand => operand.height + 1
  | binary _ left right => max left.height right.height + 1
  | assign _ _ value => value.height + 1
  | update _ _ _ => 1

end Lipi
