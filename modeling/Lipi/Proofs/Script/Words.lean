/-
What a script has of its source.

A script that is lowered from statements made of some tokens is made of them too: the names
of its commands are identifiers among the tokens, and so are the names and values of its
expressions. The one name that is not from the source is that of a guard, which is numbered.
A row of commands never holds an expression by itself; only a loop can open with one
(`Command.Within`, `Statement.within_lower`).

A source that compiles therefore has a script made of its tokens (`exists_within_of_compile`).
-/
import Lipi.Proofs.Expr.Leaves
import Lipi.Proofs.Script.Blame

set_option autoImplicit false

namespace Lipi

open Procedure

variable {source : List Token}

/-! ## Commands made of given tokens -/

/-- A command that a loop can open with, made of some tokens. -/
def Command.OpensWithin (source : List Token) : Command → Prop
  | .declare _ _ name value => .identifier name ∈ Token.kinds source ∧ value.Within source
  | .eval _ value => value.Within source
  | _ => False

/-- The control of a loop and what it opens with, made of some tokens. -/
structure LoopControl.Within (source : List Token) (control : LoopControl)
    (initial : Option Command) : Prop where
  guard : ∃ n, control.guard = .numbered n
  opens : ∀ c, initial = some c → c.OpensWithin source
  condition : ∀ e, control.condition = some e → e.Within source
  increment : ∀ e, control.increment = some e → e.Within source

mutual

/-- A command of a row, made of some tokens. -/
def Command.Within (source : List Token) : Command → Prop
  | .declare _ _ name value => .identifier name ∈ Token.kinds source ∧ value.Within source
  | .assign _ name value => .identifier name ∈ Token.kinds source ∧ value.Within source
  | .capture _ arguments => ∀ e ∈ arguments, e.Within source
  | .choice _ chain => chain.Within source
  | .loop control initial body => control.Within source initial ∧ Command.AllWithin source body
  | .breakLoop => True
  | .continueLoop => True
  | .eval _ _ => False
termination_by structural c => c

/-- The same for a chain. -/
def CommandChain.Within (source : List Token) : CommandChain → Prop
  | .test condition body rest =>
    condition.Within source ∧ Command.AllWithin source body ∧ rest.Within source
  | .otherwise body => Command.AllWithin source body
  | .done => True
termination_by structural c => c

/-- The same for a row of commands. -/
def Command.AllWithin (source : List Token) : List Command → Prop
  | [] => True
  | c :: rest => c.Within source ∧ Command.AllWithin source rest
termination_by structural cs => cs

end

/-! ## Lowering -/

namespace Lowering

theorem within_newGuard : Yields (fun g => ∃ n, g = Guard.numbered n) newGuard := by
  intro n g hg
  cases hg
  exact ⟨n, rfl⟩

variable {slice : List Token}

theorem within_parse (hslice : slice ⊆ source) :
    Yields (fun e => e.Within source) (liftM (Expr.parse slice) : Lowering Expr) :=
  yields_liftM fun _ h => Expr.within_of_parse hslice h

theorem within_parseList (hslice : slice ⊆ source) :
    Yields (fun es => ∀ e ∈ es, e.Within source)
      (liftM (Expr.parseList slice) : Lowering (List Expr)) :=
  yields_liftM fun _ h => Expr.within_of_parseList hslice h

theorem within_exprOrNone (hslice : slice ⊆ source) :
    Yields (fun x => ∀ e, x = some e → e.Within source)
      (liftM (exprOrNone slice) : Lowering (Option Expr)) := by
  refine yields_liftM fun x h => ?_
  rcases exprOrNone_cases h with ⟨-, rfl⟩ | ⟨e, he, rfl⟩
  · exact nofun
  · rintro _ ⟨⟩
    exact Expr.within_of_parse hslice he

theorem within_opening (loop : Location) (hslice : slice ⊆ source) :
    Yields (fun x => ∀ c, x = some c → c.OpensWithin source)
      (liftM (opening loop slice) : Lowering (Option Command)) := by
  refine yields_liftM fun x h => ?_
  rcases opening_cases h with ⟨-, rfl⟩ | ⟨l, l₁, l₂, _, name, value, e, rfl, he, rfl⟩ | ⟨_, e, he, rfl⟩
  · rintro _ ⟨⟩
  · rintro _ ⟨⟩
    obtain ⟨-, hname, -, hvalue⟩ := List.cons_subset.mp hslice
      |>.imp_right fun h => List.cons_subset.mp h |>.imp_right List.cons_subset.mp
    exact ⟨Token.identifier_mem_kinds hname rfl, Expr.within_of_parse hvalue he⟩
  · rintro _ ⟨⟩
    exact Expr.within_of_parse hslice he

end Lowering

open Lowering

mutual

/-- **Lowering brings nothing into a command** but what the statement is made of. -/
theorem Statement.within_lower (loops : Nat) (s : Statement) (h : s.Within source) :
    Yields (fun c => c.Within source) (s.lower loops) := by
  match s with
  | .declare place mutability name value =>
    obtain ⟨-, hname, hvalue⟩ := h
    exact (within_parse hvalue.1).bind fun e he => yields_pure ⟨hname, he⟩
  | .assign place name value =>
    obtain ⟨-, hname, hvalue⟩ := h
    exact (within_parse hvalue.1).bind fun e he => yields_pure ⟨hname, he⟩
  | .output place value => exact (within_parseList h.2.1).bind fun es hes => yields_pure hes
  | .choice place chain => exact (chain.within_lower loops h.2).bind fun c hc => yields_pure hc
  | .whileLoop place condition body =>
    obtain ⟨-, hcondition, hbody⟩ := h
    -- The guard is numbered before anything of the loop is lowered, and owes nothing to it.
    refine within_newGuard.bind fun g hg => ?_
    refine (within_parse hcondition.1).bind fun e he => ?_
    refine (Statement.within_lowerAll (loops + 1) body hbody).bind fun cs hcs => yields_pure ?_
    refine ⟨⟨hg, nofun, ?_, nofun⟩, hcs⟩
    rintro _ ⟨⟩
    exact he
  | .forLoop place initial condition increment body =>
    obtain ⟨-, hinitial, hcondition, hincrement, hbody⟩ := h
    refine within_newGuard.bind fun g hg => ?_
    refine (within_opening place hinitial).bind fun i hi => ?_
    refine (within_exprOrNone hcondition).bind fun x hx => ?_
    refine (within_exprOrNone hincrement).bind fun y hy => ?_
    refine (Statement.within_lowerAll (loops + 1) body hbody).bind fun cs hcs => yields_pure ?_
    exact ⟨⟨hg, hi, hx, hy⟩, hcs⟩
  | .breakLoop place =>
    refine yields_liftM fun c hc => ?_
    obtain ⟨rfl, -⟩ := leaving_cases hc
    trivial
  | .continueLoop place =>
    refine yields_liftM fun c hc => ?_
    obtain ⟨rfl, -⟩ := leaving_cases hc
    trivial
termination_by structural s

/-- The same for a chain. -/
theorem StatementChain.within_lower (loops : Nat) (c : StatementChain) (h : c.Within source) :
    Yields (fun c => c.Within source) (c.lower loops) := by
  match c with
  | .test condition body rest =>
    obtain ⟨hcondition, hbody, hrest⟩ := h
    refine (within_parse hcondition.1).bind fun e he => ?_
    refine (Statement.within_lowerAll loops body hbody).bind fun cs hcs => ?_
    exact (rest.within_lower loops hrest).bind fun c hc => yields_pure ⟨he, hcs, hc⟩
  | .otherwise body =>
    exact (Statement.within_lowerAll loops body h).bind fun cs hcs => yields_pure hcs
  | .done => exact yields_pure trivial
termination_by structural c

/-- The same for a row of statements. -/
theorem Statement.within_lowerAll (loops : Nat) (ss : List Statement)
    (h : Statement.AllWithin source ss) :
    Yields (fun cs => Command.AllWithin source cs) (Statement.lowerAll loops ss) := by
  match ss with
  | [] => exact yields_pure trivial
  | s :: ss =>
    refine (s.within_lower loops h.1).bind fun c hc => ?_
    exact (Statement.within_lowerAll loops ss h.2).bind fun cs hcs => yields_pure ⟨hc, hcs⟩
termination_by structural ss

end

/-- **A script is made of the tokens of its source.** -/
theorem exists_within_of_compile {text : String} {script : Script}
    (h : compile text = .ok script) :
    ∃ tokens, tokenize text = .ok tokens ∧ Command.AllWithin tokens script.body := by
  obtain ⟨tokens, p, htokens, hp, hscript⟩ := compile_eq_ok_iff.mp h
  -- A program takes tokens, and then its statements are made of them.
  have hne : tokens ≠ [] := by
    rintro rfl
    cases hp
  have hbody := Program.blaming_parse hne
  rw [hp] at hbody
  exact ⟨tokens, htokens,
    Statement.within_lowerAll 0 p.body hbody 0 script.body (Program.script_eq_ok_iff.mp hscript)⟩

end Lipi
