/-
Scripts without what does not matter when they run.

Places, the names of guards and what a loop was written as are for messages and for the
listing. `bare` forgets them and keeps everything else, limits of guards included, so two
scripts that differ in nothing but these have the same bare form. More generally a script
can be seen without its places and with as much of its loops as a view shows
(`Command.seen`), and the bare form is what the barest of these views shows (`seen_bare`).

Lowering depends on as little. The places in a program and the number of guards made
before decide nothing about whether it can be lowered, and nothing about what is seen of
the commands that come of it, in a view that overlooks both (`Statement.same_lower`). So a
program that is lowered after others comes out as it does by itself.
-/
import Lipi.Proofs.Procedure
import Lipi.Proofs.Expr.Relocation
import Lipi.Proofs.Program.Relocation
import Lipi.Script.Lowering

set_option autoImplicit false

namespace Lipi

/-! ## Bare scripts -/

/-- A guard without its name. -/
def Guard.bare (g : Guard) : Guard := ⟨"", g.limit⟩

/-- A loop's control without its place, its form and the name of its guard. -/
def LoopControl.bare (c : LoopControl) : LoopControl :=
  ⟨.nowhere, .onCondition, c.guard.bare, c.condition, c.increment⟩

mutual

/-- A command without places, forms of loops and names of guards. -/
def Command.bare : Command → Command
  | .declare _ mutability name value => .declare .nowhere mutability name value
  | .assign _ name value => .assign .nowhere name value
  | .capture _ arguments => .capture .nowhere arguments
  | .choice _ chain => .choice .nowhere chain.bare
  | .loop control none body => .loop control.bare none (Command.bareAll body)
  | .loop control (some initial) body =>
    .loop control.bare (some initial.bare) (Command.bareAll body)
  | .breakLoop => .breakLoop
  | .continueLoop => .continueLoop
  | .eval _ value => .eval .nowhere value
termination_by structural c => c

/-- A chain without places, forms of loops and names of guards. -/
def CommandChain.bare : CommandChain → CommandChain
  | .test condition body rest => .test condition (Command.bareAll body) rest.bare
  | .otherwise body => .otherwise (Command.bareAll body)
  | .done => .done
termination_by structural c => c

/-- A row of commands without places, forms of loops and names of guards. -/
def Command.bareAll : List Command → List Command
  | [] => []
  | c :: rest => c.bare :: Command.bareAll rest
termination_by structural cs => cs

end

theorem Command.bareAll_append (a b : List Command) :
    bareAll (a ++ b) = bareAll a ++ bareAll b := by
  induction a with
  | nil => rfl
  | cons c a ih => rw [List.cons_append, bareAll, ih, bareAll, List.cons_append]

/-! ## Views -/

mutual

/-- A command without places, and with what a view shows of its loops. -/
def Command.seen (view : LoopControl → LoopControl) : Command → Command
  | .declare _ mutability name value => .declare .nowhere mutability name value
  | .assign _ name value => .assign .nowhere name value
  | .capture _ arguments => .capture .nowhere arguments
  | .choice _ chain => .choice .nowhere (chain.seen view)
  | .loop control none body => .loop (view control) none (Command.seenAll view body)
  | .loop control (some initial) body =>
    .loop (view control) (some (initial.seen view)) (Command.seenAll view body)
  | .breakLoop => .breakLoop
  | .continueLoop => .continueLoop
  | .eval _ value => .eval .nowhere value
termination_by structural c => c

/-- A chain without places, and with what a view shows of its loops. -/
def CommandChain.seen (view : LoopControl → LoopControl) : CommandChain → CommandChain
  | .test condition body rest => .test condition (Command.seenAll view body) (rest.seen view)
  | .otherwise body => .otherwise (Command.seenAll view body)
  | .done => .done
termination_by structural c => c

/-- A row of commands without places, and with what a view shows of their loops. -/
def Command.seenAll (view : LoopControl → LoopControl) : List Command → List Command
  | [] => []
  | c :: rest => c.seen view :: Command.seenAll view rest
termination_by structural cs => cs

end

theorem Command.seen_loop (view : LoopControl → LoopControl) (control : LoopControl)
    (initial : Option Command) (body : List Command) :
    (loop control initial body).seen view
      = loop (view control) (initial.map (seen view)) (seenAll view body) := by
  cases initial <;> rfl

mutual

/-- The bare form is a view. -/
theorem Command.seen_bare (c : Command) : c.seen LoopControl.bare = c.bare := by
  match c with
  | .declare _ _ _ _ => rfl
  | .assign _ _ _ => rfl
  | .capture _ _ => rfl
  | .choice _ chain => rw [Command.seen, Command.bare, chain.seen_bare]
  | .loop control none body => rw [Command.seen, Command.bare, Command.seenAll_bare body]
  | .loop control (some initial) body =>
    rw [Command.seen, Command.bare, initial.seen_bare, Command.seenAll_bare body]
  | .breakLoop => rfl
  | .continueLoop => rfl
  | .eval _ _ => rfl
termination_by structural c

/-- The same for a chain. -/
theorem CommandChain.seen_bare (c : CommandChain) : c.seen LoopControl.bare = c.bare := by
  match c with
  | .test condition body rest =>
    rw [CommandChain.seen, CommandChain.bare, Command.seenAll_bare body, rest.seen_bare]
  | .otherwise body => rw [CommandChain.seen, CommandChain.bare, Command.seenAll_bare body]
  | .done => rfl
termination_by structural c

/-- The same for a row of commands. -/
theorem Command.seenAll_bare (cs : List Command) :
    Command.seenAll LoopControl.bare cs = Command.bareAll cs := by
  match cs with
  | [] => rfl
  | c :: cs => rw [Command.seenAll, Command.bareAll, c.seen_bare, Command.seenAll_bare cs]
termination_by structural cs

end

/-! ## Lowering -/

namespace Lowering

open Procedure

/-- Two lowerings that both fail or come to related results, from related numbers of guards
made before to related numbers. -/
abbrev Same {α β : Type} (counts : Nat → Nat → Prop) (r : α → β → Prop) (x : Lowering α)
    (y : Lowering β) : Prop :=
  Alike counts (fun _ _ => True) r x y

/-- A view that shows neither the places of loops nor which of two related numbers of guards
were made before. -/
structure Overlooks (counts : Nat → Nat → Prop) (view : LoopControl → LoopControl) : Prop where
  next : ∀ {n m : Nat}, counts n m → counts (n + 1) (m + 1)
  loop : ∀ {n m : Nat}, counts n m → ∀ place place' form condition increment,
    view ⟨place, form, .numbered n, condition, increment⟩
      = view ⟨place', form, .numbered m, condition, increment⟩

/-- The bare form shows no numbers at all. -/
theorem overlooks_bare : Overlooks (fun _ _ => True) LoopControl.bare where
  next _ := trivial
  loop _ _ _ _ _ _ := rfl

variable {counts : Nat → Nat → Prop} {view : LoopControl → LoopControl}

theorem same_newGuard (hview : Overlooks counts view) :
    Same counts (fun g h => ∀ place place' form condition increment,
      view ⟨place, form, g, condition, increment⟩ = view ⟨place', form, h, condition, increment⟩)
      newGuard newGuard := by
  intro n m hcounts
  exact ⟨.ok (hview.loop hcounts), hview.next hcounts⟩

/-- Reading slices of the same kinds has related outcomes. -/
theorem agree_of_kinds {α : Type} {read : List Token → Except SyntaxError α}
    (hread : ∀ {a b : List Token} {x : α}, read a = .ok x → Token.kinds b = Token.kinds a →
      read b = .ok x) {a b : List Token} (h : Token.kinds a = Token.kinds b) :
    Agree (fun _ _ => True) (fun x y => x = y) (read a) (read b) := by
  cases ha : read a with
  | ok x =>
    rw [hread ha h.symm]
    exact .ok rfl
  | error e =>
    cases hb : read b with
    | ok y =>
      -- What reads the one slice would have read the other.
      rw [hread hb h] at ha
      cases ha
    | error f => exact .error trivial

theorem agree_parse {a b : List Token} (h : Token.kinds a = Token.kinds b) :
    Agree (fun _ _ => True) (fun x y => x = y) (Expr.parse a) (Expr.parse b) :=
  agree_of_kinds Expr.parse_of_kinds h

theorem agree_exprOrNone {a b : List Token} (h : Token.kinds a = Token.kinds b) :
    Agree (fun _ _ => True) (fun x y => x = y) (exprOrNone a) (exprOrNone b) := by
  refine agree_of_kinds ?_ h
  intro a b x ha hkinds
  unfold exprOrNone at ha ⊢
  cases a with
  | nil =>
    obtain rfl := List.map_eq_nil_iff.mp hkinds
    exact ha
  | cons t a =>
    obtain ⟨l, b, rfl, -⟩ := Program.exists_of_kinds_eq_cons hkinds
    cases hparse : Expr.parse (t :: a) with
    | error e =>
      rw [hparse] at ha
      cases ha
    | ok e =>
      rw [hparse] at ha
      rw [Expr.parse_of_kinds hparse hkinds]
      exact ha

theorem agree_openingDeclaration {loop loop' : Location} {mutability : Mutability}
    {keyword keyword' : Token} {a b : List Token} (h : Token.kinds a = Token.kinds b) :
    Agree (fun _ _ => True) (fun x y => x.seen view = y.seen view)
      (openingDeclaration loop mutability keyword a)
      (openingDeclaration loop' mutability keyword' b) := by
  rcases a with _ | ⟨⟨k, l⟩, a⟩
  · obtain rfl := List.map_eq_nil_iff.mp h.symm
    exact .error trivial
  · obtain ⟨l', b, rfl, hb⟩ := Program.exists_of_kinds_eq_cons h.symm
    cases k with
    | identifier name =>
      rcases a with _ | ⟨sign, a⟩
      · obtain rfl := List.map_eq_nil_iff.mp hb
        exact .error trivial
      · obtain ⟨l'', b, rfl, hvalue⟩ := Program.exists_of_kinds_eq_cons hb
        have hempty : b.isEmpty = a.isEmpty := by
          have := congrArg List.isEmpty hvalue
          simpa [Token.kinds] using this
        have hsign : (Token.mk sign.kind l'').isOperator .assign = sign.isOperator .assign := rfl
        simp only [openingDeclaration, Token.name?, hempty, hsign]
        by_cases hvalid : (sign.isOperator .assign && !a.isEmpty) = true
        · simp only [hvalid, if_true]
          exact (agree_parse hvalue.symm).map fun _ _ he => by rw [he]; rfl
        · simp only [hvalid]
          exact .error trivial
    | _ => exact .error trivial

theorem agree_opening (loop loop' : Location) {a b : List Token}
    (h : Token.kinds a = Token.kinds b) :
    Agree (fun _ _ => True) (fun x y => x.map (Command.seen view) = y.map (Command.seen view))
      (opening loop a) (opening loop' b) := by
  rcases a with _ | ⟨⟨k, l⟩, a⟩
  · obtain rfl := List.map_eq_nil_iff.mp h.symm
    exact .ok rfl
  · obtain ⟨l', b, rfl, hb⟩ := Program.exists_of_kinds_eq_cons h.symm
    have hdeclares : ∀ mutability, Agree (fun _ _ => True)
        (fun x y => x.map (Command.seen view) = y.map (Command.seen view))
        ((openingDeclaration loop mutability ⟨k, l⟩ a).map some)
        ((openingDeclaration loop' mutability ⟨k, l'⟩ b).map some) := fun mutability =>
      (agree_openingDeclaration hb.symm).map fun _ _ he => congrArg some he
    have hevaluates : Agree (fun _ _ => True)
        (fun x y => x.map (Command.seen view) = y.map (Command.seen view))
        ((Expr.parse (⟨k, l⟩ :: a)).map fun e => some (Command.eval l e))
        ((Expr.parse (⟨k, l'⟩ :: b)).map fun e => some (Command.eval l' e)) :=
      (agree_parse h).map fun _ _ he => by rw [he]; rfl
    by_cases hlet : k = .keyword .letDecl
    · subst hlet
      exact hdeclares .mutable
    · by_cases hconst : k = .keyword .constDecl
      · subst hconst
        exact hdeclares .constant
      · simp only [opening, Token.isKeyword, beq_eq_false_iff_ne.mpr hlet,
          beq_eq_false_iff_ne.mpr hconst, Bool.false_eq_true, if_false]
        exact hevaluates

theorem agree_leaving (k : Keyword) (command : Command) (loops : Nat) (place place' : Location) :
    Agree (fun _ _ => True) (fun c d => c.seen view = d.seen view) (leaving k command loops place)
      (leaving k command loops place') := by
  unfold leaving
  by_cases h : loops = 0
  · rw [if_pos h, if_pos h]
    exact .error trivial
  · rw [if_neg h, if_neg h]
    exact .ok rfl

end Lowering

theorem Token.kinds_map_unlocated (tokens : List Token) :
    kinds (tokens.map unlocated) = kinds tokens := by
  rw [kinds, List.map_map]
  rfl

open Procedure Lowering

section Views

variable {counts : Nat → Nat → Prop} {view : LoopControl → LoopControl}

mutual

/-- **Places and guards made before decide nothing** about what is seen of a statement's
command, in a view that overlooks them. -/
theorem Statement.same_lower (hview : Overlooks counts view) (loops : Nat) (s : Statement) :
    Same counts (fun c d => c.seen view = d.seen view) (s.lower loops)
      (s.unlocated.lower loops) := by
  match s with
  | .declare place mutability name value =>
    have hvalue := agree_parse (Token.kinds_map_unlocated value).symm
    exact (alike_liftM hvalue).bind fun _ _ he => alike_pure (by rw [he]; rfl)
  | .assign place name value =>
    have hvalue := agree_parse (Token.kinds_map_unlocated value).symm
    exact (alike_liftM hvalue).bind fun _ _ he => alike_pure (by rw [he]; rfl)
  | .output place value =>
    have hvalue := agree_of_kinds Expr.parseList_of_kinds (Token.kinds_map_unlocated value).symm
    exact (alike_liftM hvalue).bind fun _ _ he => alike_pure (by rw [he]; rfl)
  | .choice place chain =>
    refine (chain.same_lower hview loops).bind fun c d hc => alike_pure ?_
    rw [Command.seen, Command.seen, hc]
  | .whileLoop place condition body =>
    have hcondition := agree_parse (Token.kinds_map_unlocated condition).symm
    -- The guard is made before anything of the loop is read.
    refine (same_newGuard hview).bind fun g h hg => ?_
    refine (alike_liftM hcondition).bind fun x y he => ?_
    refine (Statement.same_lowerAll hview (loops + 1) body).bind fun cs ds hcs => alike_pure ?_
    rw [Command.seen, Command.seen, hg _ Location.nowhere, he, hcs]
  | .forLoop place initial condition increment body =>
    have hinitial := @agree_opening view place .nowhere _ _
      (Token.kinds_map_unlocated initial).symm
    have hcondition := agree_exprOrNone (Token.kinds_map_unlocated condition).symm
    have hincrement := agree_exprOrNone (Token.kinds_map_unlocated increment).symm
    refine (same_newGuard hview).bind fun g h hg => ?_
    refine (alike_liftM hinitial).bind fun i j hi => ?_
    refine (alike_liftM hcondition).bind fun x y hx => ?_
    refine (alike_liftM hincrement).bind fun x' y' hx' => ?_
    refine (Statement.same_lowerAll hview (loops + 1) body).bind fun cs ds hcs => alike_pure ?_
    rw [Command.seen_loop, Command.seen_loop, hg _ Location.nowhere, hi, hx, hx', hcs]
  | .breakLoop place => exact alike_liftM (agree_leaving .breakLoop .breakLoop loops _ _)
  | .continueLoop place => exact alike_liftM (agree_leaving .continueLoop .continueLoop loops _ _)
termination_by structural s

/-- The same for a chain. -/
theorem StatementChain.same_lower (hview : Overlooks counts view) (loops : Nat)
    (c : StatementChain) :
    Same counts (fun c d => c.seen view = d.seen view) (c.lower loops)
      (c.unlocated.lower loops) := by
  match c with
  | .test condition body rest =>
    have hcondition := agree_parse (Token.kinds_map_unlocated condition).symm
    refine (alike_liftM hcondition).bind fun x y he => ?_
    refine (Statement.same_lowerAll hview loops body).bind fun cs ds hcs => ?_
    refine (rest.same_lower hview loops).bind fun c d hc => alike_pure ?_
    rw [CommandChain.seen, CommandChain.seen, he, hcs, hc]
  | .otherwise body =>
    refine (Statement.same_lowerAll hview loops body).bind fun cs ds hcs => alike_pure ?_
    rw [CommandChain.seen, CommandChain.seen, hcs]
  | .done => exact alike_pure rfl
termination_by structural c

/-- The same for a row of statements. -/
theorem Statement.same_lowerAll (hview : Overlooks counts view) (loops : Nat)
    (ss : List Statement) :
    Same counts (fun c d => Command.seenAll view c = Command.seenAll view d)
      (Statement.lowerAll loops ss) (Statement.lowerAll loops (Statement.unlocatedAll ss)) := by
  match ss with
  | [] => exact alike_pure rfl
  | s :: ss =>
    refine (s.same_lower hview loops).bind fun c d hc => ?_
    refine (Statement.same_lowerAll hview loops ss).bind fun cs ds hcs => alike_pure ?_
    rw [Command.seenAll, Command.seenAll, hc, hcs]
termination_by structural ss

end

/-- **A program lowered under other circumstances.** Statements that are the same but for
places are lowered to commands of which the same is seen, if the numbers of guards made
before are both related to a third. -/
theorem Statement.seen_of_unlocated (hview : Overlooks counts view) {loops made made' : Nat}
    {ss ss' : List Statement} {cs : List Command}
    (h : (Statement.lowerAll loops ss made).1 = .ok cs)
    (hsame : Statement.unlocatedAll ss' = Statement.unlocatedAll ss) (third : Nat)
    (hmade : counts made third) (hmade' : counts made' third) :
    ∃ ds, (Statement.lowerAll loops ss' made').1 = .ok ds
      ∧ Command.seenAll view ds = Command.seenAll view cs := by
  have hleft := (Statement.same_lowerAll hview loops ss made third hmade).1
  have hright := (Statement.same_lowerAll hview loops ss' made' third hmade').1
  rw [h] at hleft
  rw [hsame] at hright
  generalize (lowerAll loops (unlocatedAll ss) third).1 = x at hleft hright
  cases hleft with
  | ok hcs =>
    generalize (lowerAll loops ss' made').1 = y at hright
    cases hright with
    | ok hds => exact ⟨_, rfl, hds.trans hcs.symm⟩

end Views

/-- After any number of guards, statements that are the same but for places are lowered to
the same bare commands. -/
theorem Statement.lowered_of_unlocated {loops made : Nat} {ss ss' : List Statement}
    {cs : List Command} (h : (Statement.lowerAll loops ss made).1 = .ok cs)
    (hsame : Statement.unlocatedAll ss' = Statement.unlocatedAll ss) (made' : Nat) :
    ∃ ds, (Statement.lowerAll loops ss' made').1 = .ok ds
      ∧ Command.bareAll ds = Command.bareAll cs := by
  obtain ⟨ds, hds, hbare⟩ := seen_of_unlocated overlooks_bare h hsame made trivial trivial
  rw [Command.seenAll_bare, Command.seenAll_bare] at hbare
  exact ⟨ds, hds, hbare⟩

end Lipi
