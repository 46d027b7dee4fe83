/-
What an expression comes to.

Evaluating an expression gives a value or a fault, and either way an environment,
for what was assigned before a fault stays assigned. Operands are taken from left
to right. An assignment with an operator takes its right side first and only then
the old value of the name, so a right side that assigns to the same name is seen by
the operator. A step of a name stores a number whatever was there before.
-/
import Lipi.Environment
import Lipi.Value.Arithmetic

set_option autoImplicit false

namespace Lipi

/-- A computation on an environment that may end in a fault. -/
abbrev Evaluation (α : Type) := ExceptT Fault (StateM Environment) α

namespace Evaluation

/-- The value that a name means. -/
def read (name : String) : Evaluation Value := fun env => (env.get name, env)

/-- Assigns to a name. -/
def store (name : String) (value : Value) : Evaluation Unit := fun env =>
  match env.assign name value with
  | .ok changed => (.ok (), changed)
  | .error fault => (.error fault, env)

end Evaluation

open Evaluation

/-- What an expression comes to (`evaluate`). -/
def Expr.eval : Expr → Evaluation Value
  | .literal v => return v
  | .var name => read name
  | .unary op operand => return op.apply (← operand.eval)
  | .binary .and left right => do
    let v ← left.eval
    if v.isTruthy then right.eval else return v
  | .binary .or left right => do
    let v ← left.eval
    if v.isTruthy then return v else right.eval
  | .binary op left right => do
    let v ← left.eval
    let w ← right.eval
    return op.apply v w
  | .assign name none value => do
    let v ← value.eval
    store name v
    return v
  | .assign name (some op) value => do
    let w ← value.eval
    let v ← read name
    store name (op.apply v w)
    return op.apply v w
  | .update name op leading => do
    let old := (← read name).toNumber
    store name (.number (op.apply old))
    return .number (if leading then op.apply old else old)

/-- What the expressions of a row come to, up to the first fault. -/
def Expr.evalAll : List Expr → Evaluation (List Value)
  | [] => return []
  | e :: rest => do
    let v ← e.eval
    return v :: (← Expr.evalAll rest)

end Lipi
