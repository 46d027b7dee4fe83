/-
How deep a script can be.

A script is a tree of two kinds: blocks stand in commands, and expressions are trees of their
own. Both are bounded by what the parsers let through. A block of the script comes from a block
of the program, of which at most `nestingLimit` are open at once, and every expression comes
from a slice that was read, so it is no higher than `heightLimit`.

To say so of a whole script, `Command.Inside` finds every command there is in a row of commands,
with the number of blocks around it, and `Command.expressions` are the expressions that stand in
the command itself. A row of commands is bounded (`Command.Bounded`) if all that is found in it
is. Lowering a statement makes a command that is bounded by the depth of the statement
(`Statement.bounded_lower`), and so every script that a program comes to is bounded by the
ceiling of the parser (`Program.bounded_script`).
-/
import Lipi.Proofs.Compilation
import Lipi.Proofs.Program.WellFormed

set_option autoImplicit false

namespace Lipi

/-! ## Commands of a script -/

/-- The conditions of a chain. -/
def CommandChain.conditions : CommandChain → List Expr
  | .test condition _ rest => condition :: rest.conditions
  | .otherwise _ => []
  | .done => []
termination_by structural c => c

/-- The blocks of a chain. -/
def CommandChain.blocks : CommandChain → List (List Command)
  | .test _ body rest => body :: rest.blocks
  | .otherwise body => [body]
  | .done => []
termination_by structural c => c

namespace Command

/-- The expressions of a command: values, arguments, conditions and increments. What stands in
its blocks, and what it opens with, are commands of their own. -/
def expressions : Command → List Expr
  | declare _ _ _ value => [value]
  | assign _ _ value => [value]
  | capture _ arguments => arguments
  | choice _ chain => chain.conditions
  | loop control _ _ => control.condition.toList ++ control.increment.toList
  | breakLoop => []
  | continueLoop => []
  | eval _ value => [value]

/-- The blocks of a command. -/
def blocks : Command → List (List Command)
  | choice _ chain => chain.blocks
  | loop _ _ body => [body]
  | _ => []

/-- What a command opens with. -/
def openings : Command → List Command
  | loop _ initial _ => initial.toList
  | _ => []

/-- A command stands in a row of commands, inside a number of blocks. What a loop opens with
stands where the loop does. -/
inductive Inside : Nat → Command → List Command → Prop where
  | here {c : Command} {cs : List Command} (h : c ∈ cs) : Inside 0 c cs
  | opening {n : Nat} {c around : Command} {cs : List Command} (haround : around ∈ cs)
      (h : Inside n c around.openings) : Inside n c cs
  | block {n : Nat} {c around : Command} {cs body : List Command} (haround : around ∈ cs)
      (hbody : body ∈ around.blocks) (h : Inside n c body) : Inside (n + 1) c cs

/-- No command of a row, at any depth, has more blocks around it than a limit, or an expression
that is higher than the ceiling. -/
def Bounded (limit : Nat) (cs : List Command) : Prop :=
  ∀ n c, Inside n c cs → n ≤ limit ∧ ∀ e ∈ c.expressions, e.height ≤ heightLimit

variable {limit : Nat} {cs : List Command}

/-- A row is bounded if each command of it is: in its own expressions, in what it opens with, and
in its blocks by one less. -/
theorem bounded_of_forall (h : ∀ c ∈ cs, (∀ e ∈ c.expressions, e.height ≤ heightLimit)
    ∧ Bounded limit c.openings ∧ ∀ body ∈ c.blocks, ∃ k < limit, Bounded k body) :
    Bounded limit cs := by
  intro n c hinside
  cases hinside with
  | here hmem => exact ⟨Nat.zero_le _, (h c hmem).1⟩
  | opening haround hinside => exact (h _ haround).2.1 n c hinside
  | block haround hbody hinside =>
    obtain ⟨k, hk, hbounded⟩ := (h _ haround).2.2 _ hbody
    obtain ⟨hle, hheight⟩ := hbounded _ c hinside
    refine ⟨?_, hheight⟩
    omega

theorem bounded_nil (limit : Nat) : Bounded limit [] := by
  apply bounded_of_forall
  intro c hmem
  cases hmem

/-- A command without blocks of its own that opens with nothing. -/
theorem bounded_simple {c : Command} (hopenings : c.openings = []) (hblocks : c.blocks = [])
    (h : ∀ e ∈ c.expressions, e.height ≤ heightLimit) : Bounded limit [c] := by
  apply bounded_of_forall
  intro c' hmem
  rw [List.mem_singleton.mp hmem, hopenings, hblocks]
  exact ⟨h, bounded_nil limit, List.forall_mem_nil _⟩

theorem Bounded.cons {c : Command} (hc : Bounded limit [c]) (hcs : Bounded limit cs) :
    Bounded limit (c :: cs) := by
  intro n d hinside
  have hsplit : Inside n d [c] ∨ Inside n d cs := by
    cases hinside with
    | here hmem =>
      rcases List.mem_cons.mp hmem with rfl | hmem
      · exact .inl (.here (List.mem_singleton_self _))
      · exact .inr (.here hmem)
    | opening haround h =>
      rcases List.mem_cons.mp haround with rfl | haround
      · exact .inl (.opening (List.mem_singleton_self _) h)
      · exact .inr (.opening haround h)
    | block haround hbody h =>
      rcases List.mem_cons.mp haround with rfl | haround
      · exact .inl (.block (List.mem_singleton_self _) hbody h)
      · exact .inr (.block haround hbody h)
  rcases hsplit with h | h
  · exact hc n d h
  · exact hcs n d h

end Command

/-- A chain whose conditions and blocks a choice within a limit may have. -/
structure CommandChain.Bounded (limit : Nat) (chain : CommandChain) : Prop where
  conditions : ∀ e ∈ chain.conditions, e.height ≤ heightLimit
  blocks : ∀ body ∈ chain.blocks, ∃ k < limit, Command.Bounded k body

theorem CommandChain.Bounded.choice {limit : Nat} {chain : CommandChain} (h : chain.Bounded limit)
    (place : Location) : Command.Bounded limit [.choice place chain] := by
  apply Command.bounded_of_forall
  intro c hmem
  rw [List.mem_singleton.mp hmem]
  exact ⟨h.conditions, Command.bounded_nil limit, h.blocks⟩

/-- A loop whose body has a block less to stand in. -/
theorem Command.bounded_loop {limit k : Nat} {control : LoopControl} {initial : Option Command}
    {body : List Command} (hcondition : ∀ e, control.condition = some e → e.height ≤ heightLimit)
    (hincrement : ∀ e, control.increment = some e → e.height ≤ heightLimit)
    (hinitial : Bounded limit initial.toList) (hk : k < limit) (hbody : Bounded k body) :
    Bounded limit [.loop control initial body] := by
  apply bounded_of_forall
  intro c hmem
  rw [List.mem_singleton.mp hmem]
  refine ⟨?_, hinitial, ?_⟩
  · intro e he
    rcases List.mem_append.mp he with he | he
    · exact hcondition e (Option.mem_toList.mp he)
    · exact hincrement e (Option.mem_toList.mp he)
  · intro block hblock
    rw [List.mem_singleton.mp hblock]
    exact ⟨k, hk, hbody⟩

/-! ## Lowering -/

namespace Lowering

open Procedure

theorem bounded_parse (slice : List Token) :
    Yields (fun e => e.height ≤ heightLimit) (liftM (Expr.parse slice) : Lowering Expr) := by
  apply yields_liftM
  intro e h
  obtain ⟨_, _, -, -, -, hheight⟩ := Expr.derives_of_parse h
  exact hheight

theorem bounded_parseList (slice : List Token) :
    Yields (fun es => ∀ e ∈ es, e.height ≤ heightLimit)
      (liftM (Expr.parseList slice) : Lowering (List Expr)) :=
  yields_liftM fun _ h => Expr.height_le_of_parseList h

theorem bounded_exprOrNone (slice : List Token) :
    Yields (fun x => ∀ e, x = some e → e.height ≤ heightLimit)
      (liftM (exprOrNone slice) : Lowering (Option Expr)) := by
  apply yields_liftM
  intro x h
  rcases exprOrNone_cases h with ⟨-, rfl⟩ | ⟨e, he, rfl⟩
  · intro e he
    cases he
  · obtain ⟨_, _, -, -, -, hheight⟩ := Expr.derives_of_parse he
    intro e' he'
    cases he'
    exact hheight

/-- What a loop opens with is one command, which has no blocks. -/
theorem bounded_opening (limit : Nat) (loop : Location) (slice : List Token) :
    Yields (fun x => Command.Bounded limit x.toList)
      (liftM (opening loop slice) : Lowering (Option Command)) := by
  apply yields_liftM
  intro x h
  rcases opening_cases h with ⟨-, rfl⟩ | ⟨_, _, _, _, _, _, e, -, he, rfl⟩ | ⟨_, e, he, rfl⟩
  · exact Command.bounded_nil limit
  · obtain ⟨_, _, -, -, -, hheight⟩ := Expr.derives_of_parse he
    exact Command.bounded_simple rfl rfl (List.forall_mem_singleton.mpr hheight)
  · obtain ⟨_, _, -, -, -, hheight⟩ := Expr.derives_of_parse he
    exact Command.bounded_simple rfl rfl (List.forall_mem_singleton.mpr hheight)

end Lowering

open Procedure Lowering

mutual

/-- **A command is bounded by the depth of the statement that it comes from.** -/
theorem Statement.bounded_lower (loops : Nat) (s : Statement) {limit : Nat}
    (h : s.depth ≤ limit) : Yields (fun c => Command.Bounded limit [c]) (s.lower loops) := by
  match s with
  | .declare place mutability name value =>
    refine (bounded_parse value).bind fun e he => yields_pure ?_
    exact Command.bounded_simple rfl rfl (List.forall_mem_singleton.mpr he)
  | .assign place name value =>
    refine (bounded_parse value).bind fun e he => yields_pure ?_
    exact Command.bounded_simple rfl rfl (List.forall_mem_singleton.mpr he)
  | .output place value =>
    refine (bounded_parseList value).bind fun es hes => yields_pure ?_
    exact Command.bounded_simple rfl rfl hes
  | .choice place chain =>
    rw [Statement.depth] at h
    exact (chain.bounded_lower loops h).bind fun c hc => yields_pure (hc.choice place)
  | .whileLoop place condition body =>
    rw [Statement.depth] at h
    refine yields_newGuard.bind fun g _ => ?_
    refine (bounded_parse condition).bind fun e he => ?_
    refine (Statement.bounded_lowerAll (loops + 1) body (Nat.le_refl _)).bind
      fun cs hcs => yields_pure ?_
    refine Command.bounded_loop ?_ ?_ (Command.bounded_nil limit) h hcs
    · intro e' he'
      cases he'
      exact he
    · intro e' he'
      cases he'
  | .forLoop place initial condition increment body =>
    rw [Statement.depth] at h
    refine yields_newGuard.bind fun g _ => ?_
    refine (bounded_opening limit place initial).bind fun i hi => ?_
    refine (bounded_exprOrNone condition).bind fun x hx => ?_
    refine (bounded_exprOrNone increment).bind fun y hy => ?_
    refine (Statement.bounded_lowerAll (loops + 1) body (Nat.le_refl _)).bind
      fun cs hcs => yields_pure ?_
    exact Command.bounded_loop hx hy hi h hcs
  | .breakLoop place =>
    refine yields_liftM fun c hc => ?_
    obtain ⟨rfl, -⟩ := leaving_cases hc
    exact Command.bounded_simple rfl rfl (List.forall_mem_nil _)
  | .continueLoop place =>
    refine yields_liftM fun c hc => ?_
    obtain ⟨rfl, -⟩ := leaving_cases hc
    exact Command.bounded_simple rfl rfl (List.forall_mem_nil _)
termination_by structural s

/-- The same for a chain. -/
theorem StatementChain.bounded_lower (loops : Nat) (c : StatementChain) {limit : Nat}
    (h : c.depth ≤ limit) : Yields (fun c => c.Bounded limit) (c.lower loops) := by
  match c with
  | .test condition body rest =>
    rw [StatementChain.depth] at h
    obtain ⟨hbody, hrest⟩ := Nat.max_le.mp h
    refine (bounded_parse condition).bind fun e he => ?_
    refine (Statement.bounded_lowerAll loops body (Nat.le_refl _)).bind fun cs hcs => ?_
    refine (rest.bounded_lower loops hrest).bind fun c hc => yields_pure ⟨?_, ?_⟩
    · exact List.forall_mem_cons.mpr ⟨he, hc.conditions⟩
    · exact List.forall_mem_cons.mpr ⟨⟨_, hbody, hcs⟩, hc.blocks⟩
  | .otherwise body =>
    rw [StatementChain.depth] at h
    refine (Statement.bounded_lowerAll loops body (Nat.le_refl _)).bind
      fun cs hcs => yields_pure ⟨List.forall_mem_nil _, ?_⟩
    exact List.forall_mem_singleton.mpr ⟨_, h, hcs⟩
  | .done => exact yields_pure ⟨List.forall_mem_nil _, List.forall_mem_nil _⟩
termination_by structural c

/-- The same for a row of statements. -/
theorem Statement.bounded_lowerAll (loops : Nat) (ss : List Statement) {limit : Nat}
    (h : Statement.depthOfAll ss ≤ limit) :
    Yields (fun cs => Command.Bounded limit cs) (Statement.lowerAll loops ss) := by
  match ss with
  | [] => exact yields_pure (Command.bounded_nil limit)
  | s :: ss =>
    rw [Statement.depthOfAll] at h
    obtain ⟨hs, hss⟩ := Nat.max_le.mp h
    refine (s.bounded_lower loops hs).bind fun c hc => ?_
    exact (Statement.bounded_lowerAll loops ss hss).bind fun cs hcs => yields_pure (hc.cons hcs)
termination_by structural ss

end

/-- **A script is bounded by the ceilings of the parsers.** -/
theorem Program.bounded_script {tokens : List Token} {p : Program} {script : Script}
    (hp : Program.parse tokens = .ok p) (h : p.script = .ok script) :
    Command.Bounded nestingLimit script.body :=
  Statement.bounded_lowerAll 0 p.body (wellFormed_of_parse hp).depth 0 script.body
    (script_eq_ok_iff.mp h)

end Lipi
