/-
What lowering makes of a program.

A command is well formed inside a number of loops if it leaves a pass only where a loop
stands around it, every loop has the usual limit and opens and goes on as one of the two
forms can, every print has an argument, and every assignment inside an expression carries
at most an operator of arithmetic (`Command.WellFormed`).

Lowering makes nothing else (`Statement.wellFormed_lower`): it refuses what leaves a loop
where none is counted, and counts one more for the body of a loop, which is what well-formed
commands count. The rest is what the slices of a statement are read as.
-/
import Lipi.Proofs.Expr.Slices
import Lipi.Proofs.Procedure
import Lipi.Proofs.Script.Slices

set_option autoImplicit false

namespace Lipi

/-! ## Well-formed commands -/

/-- A command that a loop can open with: a declaration or an expression. -/
def Command.Opens : Command → Prop
  | .declare _ _ _ value => value.Arithmetic
  | .eval _ value => value.Arithmetic
  | _ => False

/-- The control of a loop, with what the loop opens with. -/
structure LoopControl.WellFormed (control : LoopControl) (initial : Option Command) : Prop where
  limit : control.guard.limit = Guard.usualLimit
  opens : ∀ c, initial = some c → c.Opens
  condition : ∀ e, control.condition = some e → e.Arithmetic
  increment : ∀ e, control.increment = some e → e.Arithmetic
  onCondition : control.form = .onCondition →
    control.condition.isSome = true ∧ initial = none ∧ control.increment = none

mutual

/-- A command that is as it should be inside a number of loops. -/
def Command.WellFormed (loops : Nat) : Command → Prop
  | .declare _ _ _ value => value.Arithmetic
  | .assign _ _ value => value.Arithmetic
  | .capture _ arguments => arguments ≠ [] ∧ ∀ e ∈ arguments, e.Arithmetic
  | .choice _ chain => chain.WellFormed loops
  | .loop control initial body =>
    control.WellFormed initial ∧ Command.AllWellFormed (loops + 1) body
  | .breakLoop => 0 < loops
  | .continueLoop => 0 < loops
  | .eval _ value => value.Arithmetic
termination_by structural c => c

/-- A chain that is as it should be inside a number of loops. -/
def CommandChain.WellFormed (loops : Nat) : CommandChain → Prop
  | .test condition body rest =>
    condition.Arithmetic ∧ Command.AllWellFormed loops body ∧ rest.WellFormed loops
  | .otherwise body => Command.AllWellFormed loops body
  | .done => True
termination_by structural c => c

/-- A row of commands that is as it should be inside a number of loops. -/
def Command.AllWellFormed (loops : Nat) : List Command → Prop
  | [] => True
  | c :: rest => c.WellFormed loops ∧ Command.AllWellFormed loops rest
termination_by structural cs => cs

end

/-! ## Lowering -/

namespace Lowering

open Procedure

theorem yields_parse (slice : List Token) :
    Yields (fun e => e.Arithmetic) (liftM (Expr.parse slice) : Lowering Expr) :=
  yields_liftM fun _ h => Expr.arithmetic_of_parse h

theorem yields_parseList (slice : List Token) :
    Yields (fun es => es ≠ [] ∧ ∀ e ∈ es, e.Arithmetic)
      (liftM (Expr.parseList slice) : Lowering (List Expr)) := by
  refine yields_liftM fun es h => ?_
  obtain ⟨_, -, hitems⟩ := Expr.items_of_parseList h
  exact ⟨hitems.ne_nil, hitems.arithmetic⟩

theorem yields_exprOrNone (slice : List Token) :
    Yields (fun x => ∀ e, x = some e → e.Arithmetic)
      (liftM (exprOrNone slice) : Lowering (Option Expr)) := by
  refine yields_liftM fun x h => ?_
  rcases exprOrNone_cases h with ⟨-, rfl⟩ | ⟨e, he, rfl⟩
  · exact nofun
  · rintro _ ⟨⟩
    exact Expr.arithmetic_of_parse he

theorem yields_opening (loop : Location) (slice : List Token) :
    Yields (fun x => ∀ c, x = some c → c.Opens)
      (liftM (opening loop slice) : Lowering (Option Command)) := by
  refine yields_liftM fun x h => ?_
  rcases opening_cases h with ⟨-, rfl⟩ | ⟨_, _, _, _, _, _, e, -, he, rfl⟩ | ⟨_, e, he, rfl⟩
  · exact nofun
  · rintro _ ⟨⟩
    exact Expr.arithmetic_of_parse he
  · rintro _ ⟨⟩
    exact Expr.arithmetic_of_parse he

end Lowering

open Procedure Lowering

mutual

/-- **Lowering makes well-formed commands.** -/
theorem Statement.wellFormed_lower (loops : Nat) (s : Statement) :
    Yields (fun c => c.WellFormed loops) (s.lower loops) := by
  match s with
  | .declare place mutability name value =>
    exact (yields_parse value).bind fun e he => yields_pure he
  | .assign place name value =>
    exact (yields_parse value).bind fun e he => yields_pure he
  | .output place value =>
    exact (yields_parseList value).bind fun es hes => yields_pure hes
  | .choice place chain =>
    exact (chain.wellFormed_lower loops).bind fun c hc => yields_pure hc
  | .whileLoop place condition body =>
    refine yields_newGuard.bind fun g hg => ?_
    refine (yields_parse condition).bind fun e he => ?_
    refine (Statement.allWellFormed_lowerAll (loops + 1) body).bind fun cs hcs => yields_pure ?_
    refine ⟨⟨hg, nofun, ?_, nofun, fun _ => ⟨rfl, rfl, rfl⟩⟩, hcs⟩
    rintro _ ⟨⟩
    exact he
  | .forLoop place initial condition increment body =>
    refine yields_newGuard.bind fun g hg => ?_
    refine (yields_opening place initial).bind fun i hi => ?_
    refine (yields_exprOrNone condition).bind fun x hx => ?_
    refine (yields_exprOrNone increment).bind fun y hy => ?_
    refine (Statement.allWellFormed_lowerAll (loops + 1) body).bind fun cs hcs => yields_pure ?_
    exact ⟨⟨hg, hi, hx, hy, nofun⟩, hcs⟩
  | .breakLoop place =>
    refine yields_liftM fun c hc => ?_
    obtain ⟨rfl, hloops⟩ := leaving_cases hc
    exact hloops
  | .continueLoop place =>
    refine yields_liftM fun c hc => ?_
    obtain ⟨rfl, hloops⟩ := leaving_cases hc
    exact hloops
termination_by structural s

/-- The same for a chain. -/
theorem StatementChain.wellFormed_lower (loops : Nat) (c : StatementChain) :
    Yields (fun c => c.WellFormed loops) (c.lower loops) := by
  match c with
  | .test condition body rest =>
    refine (yields_parse condition).bind fun e he => ?_
    refine (Statement.allWellFormed_lowerAll loops body).bind fun cs hcs => ?_
    exact (rest.wellFormed_lower loops).bind fun c hc => yields_pure ⟨he, hcs, hc⟩
  | .otherwise body =>
    exact (Statement.allWellFormed_lowerAll loops body).bind fun cs hcs => yields_pure hcs
  | .done => exact yields_pure trivial
termination_by structural c

/-- The same for a row of statements. -/
theorem Statement.allWellFormed_lowerAll (loops : Nat) (ss : List Statement) :
    Yields (fun cs => Command.AllWellFormed loops cs) (Statement.lowerAll loops ss) := by
  match ss with
  | [] => exact yields_pure trivial
  | s :: ss =>
    refine (s.wellFormed_lower loops).bind fun c hc => ?_
    exact (Statement.allWellFormed_lowerAll loops ss).bind fun cs hcs => yields_pure ⟨hc, hcs⟩
termination_by structural ss

end

end Lipi
