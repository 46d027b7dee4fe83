/-
The guard of a loop, pass by pass.

A pass of a loop is completed if its condition held, its body ended without a fault and did not
leave the loop, and its increment had no fault (`LoopControl.Round`). A loop has spent its limit
if as many passes are completed as the limit allows and the condition holds once more
(`LoopControl.Spends`). This is said of the activities of the loop alone, without a counter.

What happens in one run of a loop is a row of events (`LoopControl.Course`): it looks at its
condition, begins a body, takes its increment, and may exceed its limit. The course has one
constructor for each way in which a pass can go, and the number of passes that may still begin
goes down with each. So by induction on the course no more bodies begin than may, and the limit
is exceeded exactly if it is spent, with every number of events determined then.
-/
import Lipi.Sandbox.Execution

set_option autoImplicit false

namespace Lipi

open Activity

/-! ## Passes -/

namespace LoopControl

section Passes

variable (control : LoopControl) (x : Activity Flow)

/-- A completed pass of a loop with a given body, from one sandbox to the next. -/
inductive Round : Sandbox → Sandbox → Prop where
  | mk {s t u v : Sandbox} {flow : Flow} (hholds : control.holds s = (.ok true, t))
      (hbody : inScope x t = (.ok flow, u)) (hflow : flow ≠ .leaveLoop)
      (hadvance : control.advance u = (.ok (), v)) : Round s v

/-- So many completed passes, one after another. -/
inductive Rounds : Nat → Sandbox → Sandbox → Prop where
  | zero (s : Sandbox) : Rounds 0 s s
  | succ {n : Nat} {s t u : Sandbox} (h : Round control x s t) (hrest : Rounds n t u) :
      Rounds (n + 1) s u

/-- After so many completed passes the condition holds once more. -/
def Spends (n : Nat) (s : Sandbox) : Prop :=
  ∃ t u, Rounds control x n s t ∧ control.holds t = (.ok true, u)

end Passes

variable {control : LoopControl} {x : Activity Flow} {n : Nat} {s t : Sandbox}

/-- The same pass leads to the same sandbox. -/
theorem Round.unique {t' : Sandbox} (h : Round control x s t) (h' : Round control x s t') :
    t = t' := by
  obtain ⟨hholds, hbody, -, hadvance⟩ := h
  obtain ⟨hholds', hbody', -, hadvance'⟩ := h'
  rw [hholds] at hholds'
  cases hholds'
  rw [hbody] at hbody'
  cases hbody'
  rw [hadvance] at hadvance'
  cases hadvance'
  rfl

theorem Spends.exists_round (h : Spends control x (n + 1) s) :
    ∃ t, Round control x s t ∧ Spends control x n t := by
  obtain ⟨u, v, hrounds, hholds⟩ := h
  cases hrounds with
  | succ hround hrest => exact ⟨_, hround, u, v, hrest, hholds⟩

/-- A loop that spends its limit begins with a condition that holds. -/
theorem Spends.exists_holds (h : Spends control x n s) : ∃ t, control.holds s = (.ok true, t) := by
  cases n with
  | zero =>
    obtain ⟨_, t, hrounds, hholds⟩ := h
    cases hrounds
    exact ⟨t, hholds⟩
  | succ n =>
    obtain ⟨_, ⟨hholds, -, -, -⟩, -⟩ := h.exists_round
    exact ⟨_, hholds⟩

theorem spends_zero {t : Sandbox} (h : control.holds s = (.ok true, t)) :
    Spends control x 0 s :=
  ⟨s, t, .zero s, h⟩

/-- After a completed pass, as much is spent as is spent from there. -/
theorem Round.spends_succ_iff (h : Round control x s t) :
    Spends control x (n + 1) s ↔ Spends control x n t := by
  constructor
  · intro hspends
    obtain ⟨t', hround, hrest⟩ := hspends.exists_round
    rw [h.unique hround]
    exact hrest
  · rintro ⟨u, v, hrounds, hholds⟩
    exact ⟨u, v, .succ h hrounds, hholds⟩

end LoopControl

/-! ## Events -/

/-- What a loop does itself, apart from what its body does. -/
inductive LoopEvent where
  /-- Its condition is evaluated. -/
  | condition
  /-- A pass of its body begins. -/
  | body
  /-- Its increment is evaluated. -/
  | increment
  /-- It raises the fault of a limit that is exceeded. -/
  | exceeded
deriving DecidableEq, Repr

namespace LoopControl

/-- The event of a test: none if there is no condition to evaluate. -/
def tested (control : LoopControl) : List LoopEvent :=
  if control.condition.isSome then [.condition] else []

/-- The event between two passes: none if there is no increment to evaluate. -/
def advanced (control : LoopControl) : List LoopEvent :=
  if control.increment.isSome then [.increment] else []

section Counts

variable (control : LoopControl)

theorem mem_tested {e : LoopEvent} (h : e ∈ control.tested) : e = .condition := by
  unfold tested at h
  split at h
  · exact List.mem_singleton.mp h
  · cases h

theorem mem_advanced {e : LoopEvent} (h : e ∈ control.advanced) : e = .increment := by
  unfold advanced at h
  split at h
  · exact List.mem_singleton.mp h
  · cases h

@[simp]
theorem not_mem_tested {e : LoopEvent} (h : e ≠ .condition) : e ∉ control.tested :=
  fun he => h (control.mem_tested he)

@[simp]
theorem not_mem_advanced {e : LoopEvent} (h : e ≠ .increment) : e ∉ control.advanced :=
  fun he => h (control.mem_advanced he)

@[simp]
theorem count_tested : control.tested.count .condition = control.tested.length :=
  List.count_eq_length.mpr fun _ he => (control.mem_tested he).symm

@[simp]
theorem count_advanced : control.advanced.count .increment = control.advanced.length :=
  List.count_eq_length.mpr fun _ he => (control.mem_advanced he).symm

@[simp]
theorem count_tested_of_ne {e : LoopEvent} (h : e ≠ .condition) : control.tested.count e = 0 :=
  List.count_eq_zero_of_not_mem (control.not_mem_tested h)

@[simp]
theorem count_advanced_of_ne {e : LoopEvent} (h : e ≠ .increment) :
    control.advanced.count e = 0 :=
  List.count_eq_zero_of_not_mem (control.not_mem_advanced h)

end Counts

/-! ## Courses -/

/-- The events of a loop with a given body, from a sandbox in which it is about to test its
condition, when so many passes may still begin. -/
inductive Course (control : LoopControl) (x : Activity Flow) :
    Nat → Sandbox → List LoopEvent → Prop where
  /-- The condition does not hold, or a fault comes up in it. -/
  | ends {left : Nat} {s : Sandbox} (h : ∀ t, control.holds s ≠ (.ok true, t)) :
      Course control x left s control.tested
  /-- The condition holds, but no pass may begin. -/
  | exceeds {s t : Sandbox} (h : control.holds s = (.ok true, t)) :
      Course control x 0 s (control.tested ++ [.exceeded])
  /-- The body leaves the loop, or a fault comes up in it. -/
  | leaves {left : Nat} {s t : Sandbox} (h : control.holds s = (.ok true, t))
      (hbody : ∀ flow u, inScope x t = (.ok flow, u) → flow = .leaveLoop) :
      Course control x (left + 1) s (control.tested ++ [.body])
  /-- A fault comes up in the increment. -/
  | stops {left : Nat} {s t u : Sandbox} {flow : Flow} (h : control.holds s = (.ok true, t))
      (hbody : inScope x t = (.ok flow, u)) (hadvance : ∀ v, control.advance u ≠ (.ok (), v)) :
      Course control x (left + 1) s (control.tested ++ .body :: control.advanced)
  /-- A pass is completed, and the loop goes on. -/
  | next {left : Nat} {s t : Sandbox} {events : List LoopEvent} (h : Round control x s t)
      (hrest : Course control x left t events) :
      Course control x (left + 1) s (control.tested ++ .body :: (control.advanced ++ events))

namespace Course

variable {control : LoopControl} {x : Activity Flow} {left : Nat} {s : Sandbox}
  {events : List LoopEvent}

/-- **No more bodies begin than may.** -/
theorem count_body_le (h : Course control x left s events) : events.count .body ≤ left := by
  induction h with
  | ends => simp
  | exceeds => simp
  | leaves => simp
  | stops => simp
  | next _ _ ih =>
    simp only [List.count_append, List.count_cons_self, ne_eq, reduceCtorEq, not_false_eq_true,
      count_tested_of_ne, count_advanced_of_ne]
    omega

/-- **The limit is exceeded exactly if it is spent.** -/
theorem exceeded_mem_iff (h : Course control x left s events) :
    .exceeded ∈ events ↔ Spends control x left s := by
  induction h with
  | ends h =>
    refine iff_of_false (by simp) fun hspends => ?_
    obtain ⟨t, hholds⟩ := hspends.exists_holds
    exact h t hholds
  | exceeds h => exact iff_of_true (by simp) (spends_zero h)
  | leaves h hbody =>
    refine iff_of_false (by simp) fun hspends => ?_
    obtain ⟨_, ⟨hholds, hbody', hflow, -⟩, -⟩ := hspends.exists_round
    rw [h] at hholds
    cases hholds
    exact hflow (hbody _ _ hbody')
  | stops h hbody hadvance =>
    refine iff_of_false (by simp) fun hspends => ?_
    obtain ⟨_, ⟨hholds, hbody', -, hadvance'⟩, -⟩ := hspends.exists_round
    rw [h] at hholds
    cases hholds
    rw [hbody] at hbody'
    cases hbody'
    exact hadvance _ hadvance'
  | next h _ ih => simp [h.spends_succ_iff, ih]

/-- **Where the limit is exceeded, every number is determined**: as many bodies and increments as
could begin, and one condition more. -/
theorem counts (h : Course control x left s events) (hexceeded : .exceeded ∈ events) :
    events.count .body = left
      ∧ events.count .increment = left * control.advanced.length
      ∧ events.count .condition = (left + 1) * control.tested.length := by
  induction h with
  | exceeds => simp
  | ends | leaves | stops => simp at hexceeded
  | @next left _ _ events _ _ ih =>
    have hmem : .exceeded ∈ events := by simpa using hexceeded
    obtain ⟨hbody, hincrement, hcondition⟩ := ih hmem
    refine ⟨?_, ?_, ?_⟩
    · simp [hbody]
    · simp [hincrement, Nat.succ_mul, Nat.add_comm]
    · rw [Nat.succ_mul (left + 1)]
      simp [hcondition, Nat.add_comm]

end Course

end LoopControl

end Lipi
