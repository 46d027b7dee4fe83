/-
What an expression is made of when it is evaluated.

Evaluating an expression is reading names that occur in it (`Expr.names`) and assigning to
those that it has for targets (`Expr.targets`), one after another; which ones are reached
and in which order depends on the values, and nothing else does anything. So what holds of
reading such a name and of assigning to such a target, and of any sequence of which it
holds of each step, holds of every expression (`Expr.eval_of_law`). The names and the
targets are given as predicates, which may hold of more than the expression has: what is
supposed of an operator is then supposed of its operands as it stands.
-/
import Lipi.Expr.Evaluation

set_option autoImplicit false

namespace Lipi

/-! ## Names and targets -/

/-- The names that occur in an expression. -/
def Expr.names : Expr → List String
  | literal _ => []
  | var name => [name]
  | unary _ operand => operand.names
  | binary _ left right => left.names ++ right.names
  | assign name _ value => name :: value.names
  | update name _ _ => [name]

/-- The names that an expression assigns to. -/
def Expr.targets : Expr → List String
  | literal _ => []
  | var _ => []
  | unary _ operand => operand.targets
  | binary _ left right => left.targets ++ right.targets
  | assign name _ value => name :: value.targets
  | update name _ _ => [name]

/-! ## Evaluation -/

/-- What holds of reading some names, of assigning to those of them that are targets, and
of doing one thing after another if it holds of each. -/
structure Evaluation.Law (names targets : String → Prop)
    (law : (α : Type) → Evaluation α → Prop) : Prop where
  pure : ∀ {α : Type} (a : α), law α (pure a)
  bind : ∀ {α β : Type} {x : Evaluation α} {f : α → Evaluation β}, law α x →
    (∀ a, law β (f a)) → law β (x >>= f)
  read : ∀ {name : String}, names name → law Value (read name)
  store : ∀ {name : String}, names name → targets name → ∀ value, law Unit (store name value)

namespace Expr

/-- The operators that take both operands, whatever the left one is. -/
theorem eval_binary {op : BinaryOp} (hand : op ≠ .and) (hor : op ≠ .or) (left right : Expr) :
    (binary op left right).eval = (do
      let v ← left.eval
      let w ← right.eval
      return op.apply v w) := by
  cases op with
  | and => exact absurd rfl hand
  | or => exact absurd rfl hor
  | _ => rfl

variable {names targets : String → Prop} {law : (α : Type) → Evaluation α → Prop}

/-- **An expression is made of reading its names and assigning to its targets.** -/
theorem eval_of_law (hlaw : Evaluation.Law names targets law) (e : Expr)
    (hnames : ∀ name ∈ e.names, names name) (htargets : ∀ name ∈ e.targets, targets name) :
    law Value e.eval := by
  induction e with
  | literal v => exact hlaw.pure v
  | var name => exact hlaw.read (hnames name List.mem_cons_self)
  | unary op operand ih =>
    have hoperand := ih hnames htargets
    exact hlaw.bind hoperand fun v => hlaw.pure _
  | binary op left right ihl ihr =>
    have hleft := ihl (List.forall_mem_append.mp hnames).1 (List.forall_mem_append.mp htargets).1
    have hright := ihr (List.forall_mem_append.mp hnames).2 (List.forall_mem_append.mp htargets).2
    -- Two operators may leave out their right operand, depending on the left one.
    by_cases hand : op = .and
    · subst hand
      refine hlaw.bind hleft fun v => ?_
      by_cases hv : v.isTruthy = true
      · rw [if_pos hv]
        exact hright
      · rw [if_neg hv]
        exact hlaw.pure v
    · by_cases hor : op = .or
      · subst hor
        refine hlaw.bind hleft fun v => ?_
        by_cases hv : v.isTruthy = true
        · rw [if_pos hv]
          exact hlaw.pure v
        · rw [if_neg hv]
          exact hright
      · rw [eval_binary hand hor]
        refine hlaw.bind hleft fun v => ?_
        exact hlaw.bind hright fun w => hlaw.pure _
  | assign name op value ih =>
    obtain ⟨hname, hnames'⟩ := List.forall_mem_cons.mp hnames
    obtain ⟨htarget, htargets'⟩ := List.forall_mem_cons.mp htargets
    have hvalue := ih hnames' htargets'
    cases op with
    | none =>
      refine hlaw.bind hvalue fun v => ?_
      exact hlaw.bind (hlaw.store hname htarget v) fun _ => hlaw.pure v
    | some op =>
      refine hlaw.bind hvalue fun w => ?_
      refine hlaw.bind (hlaw.read hname) fun v => ?_
      exact hlaw.bind (hlaw.store hname htarget _) fun _ => hlaw.pure _
  | update name op leading =>
    have hname := hnames name List.mem_cons_self
    have htarget := htargets name List.mem_cons_self
    refine hlaw.bind (hlaw.read hname) fun v => ?_
    exact hlaw.bind (hlaw.store hname htarget _) fun _ => hlaw.pure _

/-- The same for a row of expressions. -/
theorem evalAll_of_law (hlaw : Evaluation.Law names targets law) (es : List Expr)
    (hnames : ∀ name ∈ es.flatMap Expr.names, names name)
    (htargets : ∀ name ∈ es.flatMap Expr.targets, targets name) :
    law (List Value) (evalAll es) := by
  induction es with
  | nil => exact hlaw.pure []
  | cons e es ih =>
    rw [List.flatMap_cons] at hnames htargets
    have hfirst := eval_of_law hlaw e (List.forall_mem_append.mp hnames).1
      (List.forall_mem_append.mp htargets).1
    have hrest := ih (List.forall_mem_append.mp hnames).2 (List.forall_mem_append.mp htargets).2
    refine hlaw.bind hfirst fun v => ?_
    exact hlaw.bind hrest fun vs => hlaw.pure _

end Expr

end Lipi
