/-
How much a command prints.

A command adds lines to the log and does nothing else to it, so what was printed before
stays where it is. How many lines it can add follows from its text: each print adds one,
and it is reached once a pass of every loop around it, so at most as often as the product
of the limits of these loops says. What a loop opens with is not in its body and is reached
once each time the loop is. The limits around each print are listed (`Command.captures`),
and the bound is the sum of the products (`mostLines`, `Command.prints_run`).

The rules for activities say how the bounds of two steps add up. A loop multiplies the
bound of its body by the number of passes that may still begin, and the induction is on
that number.
-/
import Lipi.Proofs.Sandbox.Agreement
import Mathlib.Algebra.BigOperators.Group.List.Basic
import Mathlib.Algebra.Order.Ring.Nat

set_option autoImplicit false

namespace Lipi

open Procedure

/-! ## Bounds -/

mutual

/-- For each print in a command, the limits of the loops that have it in their bodies. -/
def Command.captures : Command → List (List Nat)
  | .declare _ _ _ _ => []
  | .assign _ _ _ => []
  | .capture _ _ => [[]]
  | .choice _ chain => chain.captures
  | .loop control none body => (Command.capturesOfAll body).map (control.guard.limit :: ·)
  | .loop control (some initial) body =>
    initial.captures ++ (Command.capturesOfAll body).map (control.guard.limit :: ·)
  | .breakLoop => []
  | .continueLoop => []
  | .eval _ _ => []
termination_by structural c => c

/-- The same for the prints in a chain. -/
def CommandChain.captures : CommandChain → List (List Nat)
  | .test _ body rest => Command.capturesOfAll body ++ rest.captures
  | .otherwise body => Command.capturesOfAll body
  | .done => []
termination_by structural c => c

/-- The same for the prints in a row of commands. -/
def Command.capturesOfAll : List Command → List (List Nat)
  | [] => []
  | c :: rest => c.captures ++ Command.capturesOfAll rest
termination_by structural cs => cs

end

/-- How many lines prints can add in all, if each adds one and is reached at most as often
as the loops around it allow. -/
def mostLines (captures : List (List Nat)) : Nat := (captures.map List.prod).sum

theorem mostLines_append (a b : List (List Nat)) :
    mostLines (a ++ b) = mostLines a + mostLines b := by
  rw [mostLines, List.map_append, List.sum_append, mostLines, mostLines]

/-- A loop around all of them multiplies their number. -/
theorem mostLines_map_cons (limit : Nat) (captures : List (List Nat)) :
    mostLines (captures.map (limit :: ·)) = limit * mostLines captures := by
  induction captures with
  | nil => rfl
  | cons limits captures ih =>
    have hfirst : mostLines ((limit :: limits) :: captures.map (limit :: ·))
        = limit * limits.prod + mostLines (captures.map (limit :: ·)) := by
      rw [mostLines, List.map_cons, List.sum_cons, List.prod_cons, mostLines]
    rw [List.map_cons, hfirst, ih, mostLines, mostLines, List.map_cons, List.sum_cons, Nat.mul_add]

/-! ## Sandboxes -/

/-- A sandbox with some more lines in its log, at most a given number. -/
def Sandbox.Prints (n : Nat) (s t : Sandbox) : Prop :=
  ∃ lines, t.log.lines = s.log.lines ++ lines ∧ lines.size ≤ n

namespace Sandbox.Prints

variable {n m : Nat} {s t u : Sandbox}

theorem of_log_eq (h : t.log = s.log) : Prints 0 s t :=
  ⟨#[], by rw [h, Array.append_empty], Nat.le_refl 0⟩

/-- Where no line is added, the log is the same. -/
theorem log_eq (h : Prints 0 s t) : t.log = s.log := by
  obtain ⟨lines, hst, hle⟩ := h
  have hnone : lines = #[] := Array.eq_empty_of_size_eq_zero (Nat.le_zero.mp hle)
  rw [hnone, Array.append_empty] at hst
  exact congrArg OutputLog.mk hst

theorem print (line : String) (s : Sandbox) : Prints 1 s (s.print line) :=
  ⟨#[line], Array.append_singleton.symm, Nat.le_refl 1⟩

theorem trans (h : Prints n s t) (h' : Prints m t u) : Prints (n + m) s u := by
  obtain ⟨lines, hst, hle⟩ := h
  obtain ⟨lines', htu, hle'⟩ := h'
  refine ⟨lines ++ lines', ?_, ?_⟩
  · rw [htu, hst, Array.append_assoc]
  · rw [Array.size_append]
    omega

theorem mono (h : Prints n s t) (hnm : n ≤ m) : Prints m s t := by
  obtain ⟨lines, hst, hle⟩ := h
  exact ⟨lines, hst, Nat.le_trans hle hnm⟩

end Sandbox.Prints

/-! ## Activities -/

namespace Activity

/-- An activity that adds at most a number of lines, however it ends, and leaves the lines
before them. -/
abbrev Prints {α : Type} (n : Nat) (x : Activity α) : Prop := Keeps (Sandbox.Prints n) x

variable {α β : Type} {n m : Nat}

theorem prints_pure (a : α) : Prints 0 (pure a) := fun _ => .of_log_eq rfl

theorem prints_throw (fault : Fault) : Prints 0 (throw fault : Activity α) :=
  fun _ => .of_log_eq rfl

theorem Prints.mono {x : Activity α} (h : Prints n x) (hnm : n ≤ m) : Prints m x :=
  fun s => (h s).mono hnm

theorem Prints.bind {x : Activity α} {f : α → Activity β} (hx : Prints n x)
    (hf : ∀ a, Prints m (f a)) : Prints (n + m) (x >>= f) := by
  intro s
  have hfirst := hx s
  rw [bind_apply]
  cases hs : x s with
  | mk outcome t =>
    rw [hs] at hfirst
    cases outcome with
    | error fault => exact hfirst.mono (Nat.le_add_right n m)
    | ok a => exact hfirst.trans (hf a t)

/-- Going on in silence. -/
theorem Prints.before {x : Activity α} {f : α → Activity β} (hx : Prints n x)
    (hf : ∀ a, Prints 0 (f a)) : Prints n (x >>= f) :=
  hx.bind hf

/-- Beginning in silence. -/
theorem Prints.after {x : Activity α} {f : α → Activity β} (hx : Prints 0 x)
    (hf : ∀ a, Prints n (f a)) : Prints n (x >>= f) := by
  have hboth := hx.bind hf
  rwa [Nat.zero_add] at hboth

/-- Changing something else about the sandbox. -/
theorem prints_change {f : Sandbox → Sandbox} (h : ∀ s, (f s).log = s.log) :
    Prints 0 (change f) :=
  fun s => .of_log_eq (h s)

theorem prints_moveTo (place : Location) : Prints 0 (change (·.moveTo place)) :=
  prints_change fun _ => rfl

theorem prints_note (entry : Journal.Entry) : Prints 0 (change (·.note entry)) :=
  prints_change fun _ => rfl

theorem prints_print (line : String) : Prints 1 (change (·.print line)) :=
  fun s => .print line s

/-- An evaluation knows nothing of the log. -/
theorem prints_evaluation (x : Evaluation α) : Prints 0 (evaluation x) :=
  fun _ => .of_log_eq rfl

theorem prints_outcome {x : Activity α} (h : Prints n x) : Prints n (outcome x) := h

theorem prints_inScope {x : Activity α} (h : Prints n x) : Prints n (inScope x) :=
  fun s => h s.enter

theorem prints_declare (name : String) (b : Binding) : Prints 0 (declare name b) := by
  intro s
  unfold declare
  cases s.environment.declare name b with
  | ok environment => exact .of_log_eq rfl
  | error fault => exact .of_log_eq rfl

end Activity

open Activity

/-! ## Loops -/

namespace LoopControl

variable {n : Nat} (control : LoopControl)

theorem prints_evalOwn (e : Expr) : Activity.Prints 0 (control.evalOwn e) :=
  (prints_moveTo _).after fun _ => prints_evaluation _

theorem prints_holds : Activity.Prints 0 control.holds := by
  unfold holds
  cases control.condition with
  | none => exact prints_pure true
  | some condition => exact (prints_evalOwn control condition).after fun v => prints_pure _

theorem prints_advance : Activity.Prints 0 control.advance := by
  unfold advance
  cases control.increment with
  | none => exact prints_pure ()
  | some increment => exact (prints_evalOwn control increment).after fun _ => prints_pure ()

/-- What a loop does when its condition holds and `left` passes may still begin. -/
def pass (control : LoopControl) (body : Activity Flow) : (left made : Nat) → Activity Nat
  | 0, _ => throw (.iterationLimit control.guard.name control.guard.limit)
  | left + 1, made => do
    match ← inScope body with
    | .leaveLoop => return made + 1
    | _ =>
      control.advance
      control.passes body left (made + 1)

theorem passes_eq (body : Activity Flow) (left made : Nat) :
    control.passes body left made = (do
      if ← control.holds then control.pass body left made else return made) := by
  cases left with
  | zero => rw [passes]; rfl
  | succ left => rw [passes]; rfl

theorem prints_passes_of_pass {body : Activity Flow} {left made : Nat}
    (h : Activity.Prints n (control.pass body left made)) :
    Activity.Prints n (control.passes body left made) := by
  rw [passes_eq]
  refine (prints_holds control).after fun goesOn => ?_
  cases goesOn with
  | false => exact (prints_pure made).mono (Nat.zero_le n)
  | true => exact h

/-- A pass and those after it print at most what the body does, as often as a pass may
begin. -/
theorem prints_pass {body : Activity Flow} (hbody : Activity.Prints n body) (left made : Nat) :
    Activity.Prints (left * n) (control.pass body left made) := by
  induction left generalizing made with
  | zero =>
    rw [Nat.zero_mul]
    exact prints_throw _
  | succ left ih =>
    have hothers := prints_passes_of_pass control (ih (made + 1))
    have hnext := (prints_advance control).after fun _ => hothers
    rw [Nat.succ_mul, Nat.add_comm]
    refine (prints_inScope hbody).bind fun flow => ?_
    cases flow with
    | leaveLoop => exact (prints_pure _).mono (Nat.zero_le _)
    | done => exact hnext
    | nextPass => exact hnext

theorem prints_passes {body : Activity Flow} (hbody : Activity.Prints n body) (left made : Nat) :
    Activity.Prints (left * n) (control.passes body left made) :=
  prints_passes_of_pass control (prints_pass control hbody left made)

theorem prints_run {m : Nat} {initial : Activity Unit} {body : Activity Flow}
    (hinitial : Activity.Prints m initial) (hbody : Activity.Prints n body) :
    Activity.Prints (m + control.guard.limit * n) (control.run initial body) := by
  refine prints_inScope (hinitial.bind fun _ => ?_)
  refine (prints_note _).after fun _ => ?_
  exact (prints_passes control hbody _ _).before fun _ => prints_note _

end LoopControl

/-! ## Commands -/

mutual

/-- **A command prints** at most what the limits around its prints allow. -/
theorem Command.prints_run (c : Command) : Activity.Prints (mostLines c.captures) c.run := by
  match c with
  | .declare place mutability name value =>
    refine (prints_moveTo _).after fun _ => ?_
    refine (prints_evaluation _).after fun v => ?_
    exact (prints_declare name _).after fun _ => prints_pure _
  | .assign place name value =>
    refine (prints_moveTo _).after fun _ => ?_
    refine (prints_evaluation _).after fun v => ?_
    exact (prints_evaluation _).after fun _ => prints_pure _
  | .capture place arguments =>
    refine (prints_moveTo _).after fun _ => ?_
    refine (prints_outcome (prints_evaluation _)).after fun _ => ?_
    exact (prints_print _).before fun _ => prints_pure _
  | .choice place chain => exact (prints_moveTo _).after fun _ => chain.prints_run
  | .loop control none body =>
    have hpass := Command.prints_runAll body
    have hloop := LoopControl.prints_run control (prints_pure ()) hpass
    rw [Nat.zero_add, ← mostLines_map_cons] at hloop
    refine (prints_moveTo _).after fun _ => ?_
    exact hloop.before fun _ => prints_pure _
  | .loop control (some initial) body =>
    have hpass := Command.prints_runAll body
    have hopening := initial.prints_run.before fun _ => prints_pure ()
    have hloop := LoopControl.prints_run control hopening hpass
    rw [← mostLines_map_cons, ← mostLines_append] at hloop
    refine (prints_moveTo _).after fun _ => ?_
    exact hloop.before fun _ => prints_pure _
  | .breakLoop => exact prints_pure _
  | .continueLoop => exact prints_pure _
  | .eval place value =>
    refine (prints_moveTo _).after fun _ => ?_
    exact (prints_evaluation _).after fun _ => prints_pure _
termination_by structural c

/-- The same for a chain, of whose blocks one is run at most. -/
theorem CommandChain.prints_run (c : CommandChain) :
    Activity.Prints (mostLines c.captures) c.run := by
  match c with
  | .test condition body rest =>
    have hbody := Command.prints_runAll body
    have hrest := rest.prints_run
    have hsum : mostLines (CommandChain.test condition body rest).captures
        = mostLines (Command.capturesOfAll body) + mostLines rest.captures :=
      mostLines_append _ _
    rw [hsum]
    refine (prints_evaluation _).after fun v => ?_
    by_cases hholds : v.isTruthy = true
    · rw [if_pos hholds]
      exact (prints_inScope hbody).mono (Nat.le_add_right _ _)
    · rw [if_neg hholds]
      exact hrest.mono (Nat.le_add_left _ _)
  | .otherwise body => exact prints_inScope (Command.prints_runAll body)
  | .done => exact prints_pure _
termination_by structural c

/-- The same for a row of commands. -/
theorem Command.prints_runAll (cs : List Command) :
    Activity.Prints (mostLines (Command.capturesOfAll cs)) (Command.runAll cs) := by
  match cs with
  | [] => exact prints_pure _
  | c :: cs =>
    have hfirst := c.prints_run
    have hrest := Command.prints_runAll cs
    have hsum : mostLines (Command.capturesOfAll (c :: cs))
        = mostLines c.captures + mostLines (Command.capturesOfAll cs) :=
      mostLines_append _ _
    rw [hsum]
    refine hfirst.bind fun flow => ?_
    cases flow with
    | done => exact hrest
    | leaveLoop => exact (prints_pure _).mono (Nat.zero_le _)
    | nextPass => exact (prints_pure _).mono (Nat.zero_le _)
termination_by structural cs

end

/-! ## Scripts -/

/-- For each print in a script, the limits of the loops that have it in their bodies. -/
def Script.captures (script : Script) : List (List Nat) := Command.capturesOfAll script.body

namespace Sandbox

/-- The end of a run is worth a line at most, that of a fault. -/
theorem prints_closed (x : Except Fault Flow × Sandbox) : Prints 1 x.2 (closed x) := by
  obtain ⟨outcome, s⟩ := x
  cases outcome with
  | ok flow => exact (Prints.of_log_eq rfl).mono (Nat.zero_le 1)
  | error fault => exact .print fault.fatalLine (s.note _)

/-- **A run prints** at most one line more than the prints in its script. -/
theorem prints_script (script : Script) (s : Sandbox) :
    Prints (mostLines script.captures + 1) s (s.run script) := by
  have hcommands := Command.prints_runAll script.body (s.note (.executing script.body.length))
  rw [run_eq]
  exact Prints.trans hcommands (prints_closed _)

end Sandbox

end Lipi
