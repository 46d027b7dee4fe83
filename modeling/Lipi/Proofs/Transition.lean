/-
Machines that take one step after another.

The parsers of this library are functions, and a function has no moment at which a counter
could be looked at. Where a statement is about such moments, the function is compared with a
machine that keeps the counter and a stack of what it has put off, and takes one step at a
time. A machine is a function from states to states that may stop (`StateTransition`), and
some of its states are failures.

What has to be shown of a machine is of two kinds. It comes to the answers of the function
(`StepMachine.ComesTo`): to the state that stands for an answer, or to a failure with the
error. And something holds of every state on the way because no step loses it
(`StepMachine.invariant`). Since a machine has one way to go, the way to the answer has every
state that the machine reaches.
-/
import Lipi.SyntaxError
import Mathlib.Computability.StateTransition

set_option autoImplicit false

namespace Lipi

open StateTransition Relation

/-- A machine: the step it takes from a state, unless it stops there, and the error of a state
in which it has failed. -/
structure StepMachine (σ : Type) where
  step : σ → Option σ
  failure? : σ → Option SyntaxError

namespace StepMachine

variable {σ α : Type} {machine : StepMachine σ} {m m' : σ} {answered : α → σ}
  {x : Except SyntaxError α}

/-- In some number of steps, perhaps none, one state leads to another. -/
def Reaches (machine : StepMachine σ) : σ → σ → Prop := StateTransition.Reaches machine.step

theorem Reaches.refl (m : σ) : machine.Reaches m m := ReflTransGen.refl

theorem Reaches.trans {m'' : σ} (h : machine.Reaches m m') (h' : machine.Reaches m' m'') :
    machine.Reaches m m'' :=
  ReflTransGen.trans h h'

theorem Reaches.head {m'' : σ} (h : machine.step m = some m') (h' : machine.Reaches m' m'') :
    machine.Reaches m m'' :=
  ReflTransGen.head (Option.mem_def.mpr h) h'

/-- What no step loses holds of every state that is reached. -/
theorem invariant {P : σ → Prop} (hstep : ∀ m m', machine.step m = some m' → P m → P m')
    (hm : P m) (h : machine.Reaches m m') : P m' := by
  induction h with
  | refl => exact hm
  | tail _ hlast ih => exact hstep _ _ (Option.mem_def.mp hlast) ih

/-- From a state a machine comes to what a function answers: to the state that stands for the
answer, or to one in which it has failed with the error. -/
def ComesTo (machine : StepMachine σ) (answered : α → σ) (m : σ) : Except SyntaxError α → Prop
  | .ok a => machine.Reaches m (answered a)
  | .error e => ∃ m', machine.Reaches m m' ∧ machine.failure? m' = some e

theorem comesTo_failed {e : SyntaxError} (h : machine.failure? m = some e) :
    machine.ComesTo answered m (.error e) :=
  ⟨m, Reaches.refl m, h⟩

theorem ComesTo.after (h : machine.Reaches m m') (h' : machine.ComesTo answered m' x) :
    machine.ComesTo answered m x := by
  cases x with
  | ok a => exact h.trans h'
  | error e =>
    obtain ⟨stop, hreach, hfailure⟩ := h'
    exact ⟨stop, h.trans hreach, hfailure⟩

theorem ComesTo.head (m' : σ) (h : machine.step m = some m')
    (h' : machine.ComesTo answered m' x) : machine.ComesTo answered m x :=
  ComesTo.after (Reaches.head h (Reaches.refl m')) h'

/-- One answer after another: where the first is given, the machine goes on to the second. -/
theorem ComesTo.bind {β : Type} {answered' : β → σ} {f : α → Except SyntaxError β}
    (h : machine.ComesTo answered m x) (h' : ∀ a, machine.ComesTo answered' (answered a) (f a)) :
    machine.ComesTo answered' m (x >>= f) := by
  cases x with
  | ok a => exact ComesTo.after h (h' a)
  | error e => exact h

theorem ComesTo.map {β : Type} {answered' : β → σ} {f : α → β}
    (h : machine.ComesTo (fun a => answered' (f a)) m x) :
    machine.ComesTo answered' m (x.map f) := by
  cases x with
  | ok a => exact h
  | error e => exact h

end StepMachine

/-! ## Counters -/

/-- A counter that has the counted frames of a stack, no more of them than a limit. -/
structure Counts {φ : Type} (counted : φ → Bool) (limit : Nat) (frames : List φ) (n : Nat) :
    Prop where
  eq : n = frames.countP counted
  le : n ≤ limit

namespace Counts

variable {φ : Type} {counted : φ → Bool} {limit n : Nat} {frames : List φ} {frame : φ}

/-- A frame that is not counted leaves the counter as it is. -/
theorem uncounted_iff (h : counted frame = false) :
    Counts counted limit (frame :: frames) n ↔ Counts counted limit frames n := by
  have hcount : (frame :: frames).countP counted = frames.countP counted :=
    List.countP_cons_of_neg (by rw [h]; exact Bool.false_ne_true)
  constructor
  · intro hcounts
    exact ⟨hcounts.eq.trans hcount, hcounts.le⟩
  · intro hcounts
    exact ⟨hcounts.eq.trans hcount.symm, hcounts.le⟩

/-- A frame may be replaced by one that is counted as it is. -/
theorem replace {other : φ} (hcounts : Counts counted limit (frame :: frames) n)
    (h : counted other = counted frame) : Counts counted limit (other :: frames) n := by
  refine ⟨?_, hcounts.le⟩
  rw [List.countP_cons, h, ← List.countP_cons]
  exact hcounts.eq

/-- A frame that is counted, if the limit allows one more. -/
theorem enter (hcounts : Counts counted limit frames n) (h : counted frame = true)
    (hlt : n < limit) : Counts counted limit (frame :: frames) (n + 1) := by
  refine ⟨?_, hlt⟩
  rw [List.countP_cons_of_pos h, ← hcounts.eq]

/-- A frame that is counted is taken off again: there is one to take from the counter. -/
theorem leave (hcounts : Counts counted limit (frame :: frames) n) (h : counted frame = true) :
    ∃ k, n = k + 1 ∧ Counts counted limit frames k := by
  have hcount := hcounts.eq
  rw [List.countP_cons_of_pos h] at hcount
  refine ⟨frames.countP counted, hcount, rfl, ?_⟩
  have hle := hcounts.le
  omega

end Counts

end Lipi
