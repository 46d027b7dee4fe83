/-
Assignments that carry an operator.

`x += e` is short for `x = x + e`, but the two take `x` at different times. Written out,
the sum reads `x` first and `e` is evaluated after that, as with every operator; the short
form evaluates `e` first and reads `x` then. So an `e` that changes `x` on the way is told
apart, and so is one that faults or assigns where there is no `x` at all
(`compound_reads_late`). In every other case they come to the same value or fault and
leave the same environment. Which cases these are is said here exactly
(`Expr.Spares`, `Expr.eval_compound_eq_iff`); a name that is there and to which `e` nowhere
assigns is always one of them (`Expr.spares_of_not_mem_targets`).
-/
import Lipi.Proofs.Expr.Slices
import Lipi.Proofs.Sandbox.Frame

set_option autoImplicit false

namespace Lipi

open Procedure

/-- No operator of arithmetic leaves out its right side. -/
theorem BinaryOp.ne_of_arithmetic {op : BinaryOp} (h : op ∈ arithmetic) : op ≠ and ∧ op ≠ or := by
  constructor
  · rintro rfl
    exact absurd h (by decide)
  · rintro rfl
    exact absurd h (by decide)

/-! ## What an expression leaves of a name -/

namespace Expr

/-- An expression declares nothing: a name means something afterwards if it did before. -/
theorem kept_binding? (e : Expr) (env : Environment) (name : String) :
    Binding.KeptEntry (· ∈ e.targets) name (env.binding? name)
      ((e.eval env).2.binding? name) :=
  Environment.Framed.binding? (frames_eval e (fun _ h => h) env) name

end Expr

namespace Environment

variable {env : Environment} {name : String}

theorem get_of_binding? {b : Binding} (h : env.binding? name = some b) :
    env.get name = .ok b.value := by
  rw [get, h]

theorem get_of_binding?_none (h : env.binding? name = none) :
    env.get name = .error (.undefined name) := by
  rw [get, h]

end Environment

/-! ## Both forms -/

namespace Evaluation

theorem read_apply (name : String) (env : Environment) : read name env = (env.get name, env) := rfl

/-- Assigns a value to a name and answers with it. -/
def assigning (name : String) (value : Value) : Evaluation Value := do
  store name value
  return value

/-- Two values are told apart when they are assigned, except by a constant. -/
theorem assigning_eq_iff {env : Environment} {name : String} {b : Binding} {v w : Value}
    (hb : env.binding? name = some b) (hconstant : b.mutability = .constant → v = w) :
    assigning name v env = assigning name w env ↔ v = w := by
  refine ⟨fun h => ?_, fun h => h ▸ rfl⟩
  cases hm : b.mutability with
  | constant => exact hconstant hm
  | mutable =>
    have hstore : ∀ u, assigning name u env = (.ok u, env.update name u) := by
      intro u
      show (store name u >>= fun _ => pure u) env = _
      rw [bind_apply]
      simp only [store, Environment.assign, hb, hm]
      rfl
    rw [hstore, hstore] at h
    cases h
    rfl

end Evaluation

open Evaluation

namespace Expr

/-- What an assignment with an operator is short for. -/
def writtenOut (name : String) (op : BinaryOp) (e : Expr) : Expr :=
  .assign name none (.binary op (.var name) e)

/-- The short form evaluates its right side and then reads the name. -/
theorem eval_compound (name : String) (op : BinaryOp) (e : Expr) (env : Environment) :
    (assign name (some op) e).eval env = match e.eval env with
      | (.error fault, after) => (.error fault, after)
      | (.ok w, after) => match after.get name with
        | .error fault => (.error fault, after)
        | .ok v => assigning name (op.apply v w) after := by
  show (e.eval >>= fun w => read name >>= fun v => assigning name (op.apply v w)) env = _
  rw [bind_apply]
  rcases e.eval env with ⟨_ | w, after⟩
  · rfl
  · show (read name >>= fun v => assigning name (op.apply v w)) after = _
    rw [bind_apply, read_apply]
    dsimp only
    cases after.get name <;> rfl

/-- Written out, the name is read and then the right side evaluated. -/
theorem eval_writtenOut {op : BinaryOp} (hop : op ∈ BinaryOp.arithmetic) (name : String) (e : Expr)
    (env : Environment) :
    (writtenOut name op e).eval env = match env.get name with
      | .error fault => (.error fault, env)
      | .ok old => match e.eval env with
        | (.error fault, after) => (.error fault, after)
        | (.ok w, after) => assigning name (op.apply old w) after := by
  obtain ⟨hand, hor⟩ := BinaryOp.ne_of_arithmetic hop
  show ((binary op (var name) e).eval >>= assigning name) env = _
  rw [eval_binary hand hor, bind_apply, bind_apply, eval, read_apply]
  cases env.get name with
  | error fault => rfl
  | ok old =>
    dsimp only
    rw [bind_apply]
    rcases e.eval env with ⟨_ | w, after⟩ <;> rfl

/-! ## When they come to the same -/

/-- The right side of an assignment with an operator does not come between the name and
the operator. Where the name is there, a right side that comes to a value must leave to the
name one that makes no difference to the operator. Where it is not, the right side must
change nothing, and may only come to the fault that the name comes to. -/
def Spares (e : Expr) (name : String) (op : BinaryOp) (env : Environment) : Prop :=
  match env.get name, e.eval env with
  | .ok old, (.ok w, after) => ∃ v, after.get name = .ok v ∧ op.apply v w = op.apply old w
  | .ok _, (.error _, _) => True
  | .error _, (.ok _, after) => after = env
  | .error fault, (.error fault', after) => fault' = fault ∧ after = env

/-- A name that is there and is no target of the right side is spared. -/
theorem spares_of_not_mem_targets {e : Expr} {name : String} {env : Environment} {old : Value}
    (hget : env.get name = .ok old) (hname : name ∉ e.targets) (op : BinaryOp) :
    e.Spares name op env := by
  have hkept := e.kept_binding? env name
  unfold Spares
  rw [hget]
  rcases heval : e.eval env with ⟨_ | w, after⟩
  · trivial
  · rw [heval] at hkept
    cases hb : env.binding? name with
    | none =>
      rw [Environment.get_of_binding?_none hb] at hget
      cases hget
    | some b =>
      rw [Environment.get_of_binding? hb] at hget
      cases hget
      rw [hb] at hkept
      generalize hafter : Environment.binding? (Except.ok w, after).2 name = x at hkept
      cases hkept with
      | some hkept =>
        refine ⟨_, Environment.get_of_binding? hafter, ?_⟩
        rw [hkept.untouched hname]

/-- **An assignment with an operator means what it is short for exactly if its right side
spares the name**: then, and only then, both forms come to the same value or the same fault
and leave the same environment. -/
theorem eval_compound_eq_iff {op : BinaryOp} (hop : op ∈ BinaryOp.arithmetic) (name : String)
    (e : Expr) (env : Environment) :
    (assign name (some op) e).eval env = (writtenOut name op e).eval env
      ↔ e.Spares name op env := by
  have hkept := e.kept_binding? env name
  rw [eval_compound, eval_writtenOut hop]
  unfold Spares
  cases hb : env.binding? name with
  | none =>
    -- The name stays undefined, and the short form finds out too late.
    rw [Environment.get_of_binding?_none hb]
    rcases heval : e.eval env with ⟨fault | w, after⟩
    · rw [Prod.mk.injEq, Except.error.injEq]
    · rw [heval, hb] at hkept
      generalize hafter : Environment.binding? (Except.ok w, after).2 name = x at hkept
      cases hkept
      dsimp only at hafter ⊢
      rw [Environment.get_of_binding?_none hafter, Prod.mk.injEq]
      exact and_iff_right rfl
  | some b =>
    rw [Environment.get_of_binding? hb]
    rcases heval : e.eval env with ⟨fault | w, after⟩
    · simp only
    · rw [heval, hb] at hkept
      generalize hafter : Environment.binding? (Except.ok w, after).2 name = x at hkept
      cases hkept with
      | @some _ b' hkept =>
        -- The value of a constant is still the old one.
        have hconstant : b'.mutability = .constant →
            op.apply b'.value w = op.apply b.value w := by
          intro hm
          rw [hkept.constant (hkept.mutability ▸ hm)]
        simp only [Environment.get_of_binding? hafter, Except.ok.injEq, exists_eq_left']
        exact assigning_eq_iff hafter hconstant

end Expr

/-- Two names for texts. -/
def twoTexts : Environment := ⟨[("y", ⟨.text "c", .mutable⟩), ("x", ⟨.text "a", .mutable⟩)], []⟩

/-- A right side that assigns to another name. -/
theorem eval_compound_eq_iff_sparing :
    BinaryOp.add ∈ BinaryOp.arithmetic
      ∧ (Expr.assign "x" (some .add) (.assign "y" none (.literal (.text "b")))).eval twoTexts
        = (Expr.writtenOut "x" .add (.assign "y" none (.literal (.text "b")))).eval twoTexts :=
  ⟨by decide, (Expr.eval_compound_eq_iff (by decide) _ _ _).mpr
    (Expr.spares_of_not_mem_targets rfl (by decide) .add)⟩

/-- **The short form reads its name late**: with an `x` of `a`, the assignment
`x += (x = "b")` comes to `bb`, while `x = x + (x = "b")` comes to `ab`. -/
theorem compound_reads_late :
    (Expr.assign "x" (some .add) (.assign "x" none (.literal (.text "b")))).eval twoTexts
        = (.ok (.text "bb"), twoTexts.update "x" (.text "bb"))
      ∧ (Expr.writtenOut "x" .add (.assign "x" none (.literal (.text "b")))).eval twoTexts
        = (.ok (.text "ab"), twoTexts.update "x" (.text "ab")) :=
  ⟨rfl, rfl⟩

end Lipi
