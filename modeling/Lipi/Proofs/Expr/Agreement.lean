/-
What an expression sees of an environment.

An expression reads and assigns only the names that occur in it. So if two environments
agree on these, it comes to the same value or to the same fault in both, and leaves
environments that still agree (`Expr.same_eval`).
-/
import Lipi.Proofs.Environment
import Lipi.Proofs.Expr.Evaluation

set_option autoImplicit false

namespace Lipi

open Procedure

namespace Evaluation

/-- Two evaluations with the same outcome in environments that agree on some names. -/
abbrev Same {α : Type} (names : String → Prop) (x y : Evaluation α) : Prop :=
  Alike (Environment.Agrees names) (fun a b => a = b) (fun a b => a = b) x y

variable {names : String → Prop} {name : String}

theorem same_read (hname : names name) : Same names (read name) (read name) := by
  intro e f h
  refine ⟨?_, h⟩
  show Agree _ _ (e.get name) (f.get name)
  rw [h.get hname]
  cases f.get name with
  | ok v => exact .ok rfl
  | error fault => exact .error rfl

theorem same_store (hname : names name) (value : Value) :
    Same names (store name value) (store name value) := by
  intro e f h
  have hassign := h.assign hname value
  unfold store
  generalize e.assign name value = outcome, f.assign name value = outcome' at hassign
  cases hassign with
  | ok hstate => exact ⟨.ok rfl, hstate⟩
  | error hfault => exact ⟨.error hfault, h⟩

/-- Evaluations that do the same first and then go on in the same way are the same. -/
theorem Same.bind {α β : Type} {x y : Evaluation α} {f g : α → Evaluation β}
    (hx : Same names x y) (hf : ∀ a, Same names (f a) (g a)) :
    Same names (x >>= f) (y >>= g) := by
  refine Alike.bind hx fun a b hab => ?_
  rw [hab]
  exact hf b

end Evaluation

open Evaluation

/-- Being the same holds of whatever is made of reading and assigning names that agree. -/
theorem Evaluation.law_same (names : String → Prop) :
    Law names (fun _ => True) fun _ x => Same names x x where
  pure _ := alike_pure rfl
  bind hx hf := hx.bind hf
  read hname := same_read hname
  store hname _ value := same_store hname value

/-- **An expression sees only its own names.** -/
theorem Expr.same_eval {names : String → Prop} (e : Expr) (h : ∀ name ∈ e.names, names name) :
    Same names e.eval e.eval :=
  eval_of_law (law_same names) e h fun _ _ => trivial

/-- The same for a row of expressions. -/
theorem Expr.same_evalAll {names : String → Prop} (es : List Expr)
    (h : ∀ name ∈ es.flatMap Expr.names, names name) :
    Same names (Expr.evalAll es) (Expr.evalAll es) :=
  evalAll_of_law (law_same names) es h fun _ _ => trivial

end Lipi
