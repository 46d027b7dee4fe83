/-
Every run ends, after so many lines.

The machine that runs a script takes finitely many steps, whatever the script and the
sandbox, and adds at most one line more than the products of limits around the prints allow.
A script that was compiled has the usual limit on every loop (`usualLimits_of_compile`), so
for each print the product is a power of it, with an exponent that the nesting of loops in
the script bounds (`Command.withinDepth`). Together this is `Sandbox.bounded_run`.
-/
import Lipi.Proofs.Compilation
import Lipi.Proofs.Sandbox.Machine
import Lipi.Proofs.Sandbox.Output
import Mathlib.Algebra.Order.BigOperators.Group.List

set_option autoImplicit false

namespace Lipi

/-! ## Nesting -/

mutual

/-- How deep loops are nested in a command. -/
def Command.loopDepth : Command → Nat
  | .declare _ _ _ _ => 0
  | .assign _ _ _ => 0
  | .capture _ _ => 0
  | .choice _ chain => chain.loopDepth
  | .loop _ none body => Command.loopDepthOfAll body + 1
  | .loop _ (some initial) body => max initial.loopDepth (Command.loopDepthOfAll body + 1)
  | .breakLoop => 0
  | .continueLoop => 0
  | .eval _ _ => 0
termination_by structural c => c

/-- How deep loops are nested in a chain. -/
def CommandChain.loopDepth : CommandChain → Nat
  | .test _ body rest => max (Command.loopDepthOfAll body) rest.loopDepth
  | .otherwise body => Command.loopDepthOfAll body
  | .done => 0
termination_by structural c => c

/-- How deep loops are nested in a row of commands. -/
def Command.loopDepthOfAll : List Command → Nat
  | [] => 0
  | c :: rest => max c.loopDepth (Command.loopDepthOfAll rest)
termination_by structural cs => cs

end

/-- Whether every print has at most so many loops around it. -/
def WithinDepth (depth : Nat) (captures : List (List Nat)) : Prop :=
  ∀ limits ∈ captures, limits.length ≤ depth

namespace WithinDepth

variable {depth depth' : Nat} {a b : List (List Nat)}

theorem nil (depth : Nat) : WithinDepth depth [] := nofun

theorem append (ha : WithinDepth depth a) (hb : WithinDepth depth' b) :
    WithinDepth (max depth depth') (a ++ b) := by
  intro limits hlimits
  rcases List.mem_append.mp hlimits with h | h
  · exact Nat.le_trans (ha limits h) (Nat.le_max_left _ _)
  · exact Nat.le_trans (hb limits h) (Nat.le_max_right _ _)

theorem map_cons (limit : Nat) (ha : WithinDepth depth a) :
    WithinDepth (depth + 1) (a.map (limit :: ·)) := by
  intro limits hlimits
  obtain ⟨inner, hinner, rfl⟩ := List.mem_map.mp hlimits
  exact Nat.succ_le_succ (ha inner hinner)

end WithinDepth

mutual

/-- No more loops stand around a print than the nesting says. -/
theorem Command.withinDepth (c : Command) : WithinDepth c.loopDepth c.captures := by
  match c with
  | .declare place mutability name value => exact .nil 0
  | .assign place name value => exact .nil 0
  | .capture place arguments =>
    intro limits hlimits
    rw [List.mem_singleton.mp hlimits]
    exact Nat.le_refl 0
  | .choice place chain => exact chain.withinDepth
  | .loop control none body => exact (Command.withinDepth_all body).map_cons _
  | .loop control (some initial) body =>
    exact initial.withinDepth.append ((Command.withinDepth_all body).map_cons _)
  | .breakLoop => exact .nil 0
  | .continueLoop => exact .nil 0
  | .eval place value => exact .nil 0
termination_by structural c

/-- The same for a chain. -/
theorem CommandChain.withinDepth (c : CommandChain) : WithinDepth c.loopDepth c.captures := by
  match c with
  | .test condition body rest => exact (Command.withinDepth_all body).append rest.withinDepth
  | .otherwise body => exact Command.withinDepth_all body
  | .done => exact .nil 0
termination_by structural c

/-- The same for a row of commands. -/
theorem Command.withinDepth_all (cs : List Command) :
    WithinDepth (Command.loopDepthOfAll cs) (Command.capturesOfAll cs) := by
  match cs with
  | [] => exact .nil 0
  | c :: cs => exact c.withinDepth.append (Command.withinDepth_all cs)
termination_by structural cs

end

/-! ## Limits of compiled scripts -/

/-- Whether all loops around prints have the usual limit. -/
def UsualLimits (captures : List (List Nat)) : Prop :=
  ∀ limits ∈ captures, ∀ n ∈ limits, n = Guard.usualLimit

namespace UsualLimits

variable {a b : List (List Nat)}

theorem nil : UsualLimits [] := nofun

theorem append (ha : UsualLimits a) (hb : UsualLimits b) : UsualLimits (a ++ b) := by
  intro limits hlimits
  rcases List.mem_append.mp hlimits with h | h
  · exact ha limits h
  · exact hb limits h

theorem map_cons {limit : Nat} (hlimit : limit = Guard.usualLimit) (ha : UsualLimits a) :
    UsualLimits (a.map (limit :: ·)) := by
  intro limits hlimits
  obtain ⟨inner, hinner, rfl⟩ := List.mem_map.mp hlimits
  exact List.forall_mem_cons.mpr ⟨hlimit, ha inner hinner⟩

/-- As many lines as a loop nest of this depth allows for each print. -/
theorem mostLines_le {depth : Nat} (ha : UsualLimits a) (hdepth : WithinDepth depth a) :
    mostLines a ≤ a.length * Guard.usualLimit ^ depth := by
  have hprod : ∀ n ∈ a.map List.prod, n ≤ Guard.usualLimit ^ depth := by
    intro n hn
    obtain ⟨limits, hlimits, rfl⟩ := List.mem_map.mp hn
    rw [List.prod_eq_pow_card limits Guard.usualLimit (ha limits hlimits)]
    exact Nat.pow_le_pow_right (by decide) (hdepth limits hlimits)
  have hsum := List.sum_le_card_nsmul (a.map List.prod) _ hprod
  rw [List.length_map] at hsum
  exact hsum

end UsualLimits

/-- What a loop opens with prints nothing. -/
theorem Command.Opens.captures {c : Command} (h : c.Opens) : c.captures = [] := by
  cases c with
  | declare place mutability name value => rfl
  | eval place value => rfl
  | _ => cases h

mutual

/-- The loops in a well-formed command have the usual limit. -/
theorem Command.usualLimits {loops : Nat} (c : Command) (h : c.WellFormed loops) :
    UsualLimits c.captures := by
  match c with
  | .declare place mutability name value => exact .nil
  | .assign place name value => exact .nil
  | .capture place arguments =>
    intro limits hlimits
    rw [List.mem_singleton.mp hlimits]
    nofun
  | .choice place chain => exact chain.usualLimits h
  | .loop control none body =>
    exact (Command.usualLimits_all body h.2).map_cons h.1.limit
  | .loop control (some initial) body =>
    have hopening : initial.captures = [] := (h.1.opens initial rfl).captures
    rw [Command.captures, hopening]
    exact (Command.usualLimits_all body h.2).map_cons h.1.limit
  | .breakLoop => exact .nil
  | .continueLoop => exact .nil
  | .eval place value => exact .nil
termination_by structural c

/-- The same for a chain. -/
theorem CommandChain.usualLimits {loops : Nat} (c : CommandChain) (h : c.WellFormed loops) :
    UsualLimits c.captures := by
  match c with
  | .test condition body rest =>
    obtain ⟨-, hbody, hrest⟩ := h
    exact (Command.usualLimits_all body hbody).append (rest.usualLimits hrest)
  | .otherwise body => exact Command.usualLimits_all body h
  | .done => exact .nil
termination_by structural c

/-- The same for a row of commands. -/
theorem Command.usualLimits_all {loops : Nat} (cs : List Command)
    (h : Command.AllWellFormed loops cs) : UsualLimits (Command.capturesOfAll cs) := by
  match cs with
  | [] => exact .nil
  | c :: cs => exact (c.usualLimits h.1).append (Command.usualLimits_all cs h.2)
termination_by structural cs

end

/-- How deep loops are nested in a script. -/
def Script.loopDepth (script : Script) : Nat := Command.loopDepthOfAll script.body

/-- **The prints of a compiled script** are within loops of the usual limit. -/
theorem usualLimits_of_compile {source : String} {script : Script}
    (h : compile source = .ok script) : UsualLimits script.captures := by
  obtain ⟨tokens, p, -, -, hp⟩ := compile_eq_ok_iff.mp h
  exact Command.usualLimits_all script.body (Program.allWellFormed_script hp)

/-! ## Runs -/

namespace Sandbox

/-- **Every run ends, having printed so much at most.** The machine that runs a script comes
to a stop, and no sequence of its steps is longer than the one that leads there. The lines
that it adds to the log are one more at most than the sum, over all prints, of the products
of the limits of the loops around each. In a script that was compiled this is one line, and
for each print ten thousand to the power of the depth of loops. -/
theorem bounded_run (script : Script) (s : Sandbox) :
    (∃ ms t, Machine.Steps (script.start s) ms ⟨.ended (s.outcome script), [], t⟩
        ∧ s.run script = closed (s.outcome script, t)
        ∧ ∀ ms' m', Machine.Steps (script.start s) ms' m' → ms'.length ≤ ms.length)
      ∧ (∃ lines, (s.run script).log.lines = s.log.lines ++ lines
          ∧ lines.size ≤ 1 + (script.captures.map List.prod).sum)
      ∧ ∀ source, compile source = .ok script →
          1 + (script.captures.map List.prod).sum
            ≤ 1 + script.captures.length * 10000 ^ script.loopDepth := by
  refine ⟨?_, ?_, ?_⟩
  · obtain ⟨ms, t, hms, hrun⟩ := reaches_run script s
    exact ⟨ms, t, hms, hrun, fun ms' m' hms' => hms.length_le rfl hms'⟩
  · obtain ⟨lines, hlines, hle⟩ := prints_script script s
    refine ⟨lines, hlines, ?_⟩
    rwa [Nat.add_comm]
  · intro source hsource
    have hdepth : WithinDepth script.loopDepth script.captures := Command.withinDepth_all script.body
    have hmost := (usualLimits_of_compile hsource).mostLines_le hdepth
    exact Nat.add_le_add_left hmost 1

end Sandbox

end Lipi
