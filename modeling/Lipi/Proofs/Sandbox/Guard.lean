/-
What the guard of a loop does, seen step by step.

A loop that is entered is work of many steps of the machine (`Machine`), most of them steps of
its body, which may hold other loops, or the same loop again. What the loop does itself is told
from the rest by the height of the stack: at the height where the loop stands there are only its
own tests and the ends of its own passes, and everything that is put off by its body is higher
(`Machine.loopEvents`).

That the body stays higher is not said by what the machine comes to. It follows from the fact
that no step looks below what it has put off itself: a machine takes the same steps with other
frames under its own (`Machine.step_under`). So what a body does can be taken from a run of the
body with nothing under it, and none of that is at the height of the loop
(`Machine.Performs.exists_silent`).

The events of a loop are then a course as its guard allows it (`Machine.exists_course`, by
induction on the passes that may still begin), and what is known of courses is known of every
entry of a loop (`Sandbox.guarded_loops`).
-/
import Lipi.Proofs.Sandbox.Discipline
import Lipi.Proofs.Sandbox.Rounds

set_option autoImplicit false

namespace Lipi

open Procedure Activity

namespace Machine

/-! ## Frames underneath -/

/-- The same machine with more frames put off before. -/
def under (base : List Frame) (m : Machine) : Machine := { m with frames := m.frames ++ base }

section Under

variable (base frames : List Frame) (s : Sandbox)

theorem beginCommand_under (c : Command) :
    (beginCommand frames s c).under base = beginCommand (frames ++ base) s c := by
  match c with
  | .loop control none body => rfl
  | .loop control (some initial) body => rfl
  | .declare _ _ _ _ | .assign _ _ _ | .capture _ _ | .choice _ _ | .breakLoop | .continueLoop
  | .eval _ _ => rfl

theorem beginRow_under (cs : List Command) :
    (beginRow frames s cs).under base = beginRow (frames ++ base) s cs := by
  cases cs <;> rfl

theorem beginChain_under (c : CommandChain) :
    (beginChain frames s c).under base = beginChain (frames ++ base) s c := by
  cases c with
  | test condition body rest =>
    rw [beginChain, beginChain]
    cases evaluation condition.eval s with
    | mk outcome t =>
      cases outcome with
      | error fault => rfl
      | ok v =>
        by_cases hholds : v.isTruthy = true
        · simp only [if_pos hholds]
          rfl
        · simp only [if_neg hholds]
          rfl
  | otherwise body => rfl
  | done => rfl

variable (control : LoopControl) (body : List Command) (made : Nat)

theorem beginPass_under :
    (beginPass frames s control body made).under base
      = beginPass (frames ++ base) s control body made := by
  rw [beginPass, beginPass]
  by_cases hlimit : control.guard.limit < made + 1
  · rw [if_pos hlimit, if_pos hlimit]
    rfl
  · rw [if_neg hlimit, if_neg hlimit]
    rfl

theorem testLoop_under :
    (testLoop frames s control body made).under base
      = testLoop (frames ++ base) s control body made := by
  rw [testLoop, testLoop]
  cases control.holds s with
  | mk outcome t =>
    cases outcome with
    | error fault => rfl
    | ok goesOn =>
      cases goesOn with
      | false => rfl
      | true => exact beginPass_under base frames t control body made

theorem advanceLoop_under :
    (advanceLoop frames s control body made).under base
      = advanceLoop (frames ++ base) s control body made := by
  rw [advanceLoop, advanceLoop]
  cases control.advance s with
  | mk outcome t => cases outcome <;> rfl

theorem resume_under (outcome : Except Fault Flow) (frame : Frame) :
    (resume frames s outcome frame).under base = resume (frames ++ base) s outcome frame := by
  cases frame with
  | scope => rfl
  | rest cs =>
    cases outcome with
    | error fault => rfl
    | ok flow => cases flow <;> rfl
  | opening control body => cases outcome <;> rfl
  | pass control body made =>
    cases outcome with
    | error fault => rfl
    | ok flow =>
      cases flow with
      | leaveLoop => rfl
      | done | nextPass => exact advanceLoop_under base frames s control body made

end Under

variable {m m' m'' stop : Machine} {ms : List Machine}

/-- **A step does not look below what the machine has put off.** -/
theorem step_under (base : List Frame) (h : m.step = some m') :
    (m.under base).step = some (m'.under base) := by
  obtain ⟨task, frames, s⟩ := m
  cases task with
  | command c =>
    cases h
    exact congrArg some (beginCommand_under base frames s c).symm
  | row cs =>
    cases h
    exact congrArg some (beginRow_under base frames s cs).symm
  | chain c =>
    cases h
    exact congrArg some (beginChain_under base frames s c).symm
  | test control body made =>
    cases h
    exact congrArg some (testLoop_under base frames s control body made).symm
  | ended outcome =>
    cases frames with
    | nil => cases h
    | cons frame frames =>
      cases h
      exact congrArg some (resume_under base frames s outcome frame).symm

theorem Steps.under (h : Steps m ms m') (base : List Frame) :
    Steps (m.under base) (ms.map (under base)) (m'.under base) := by
  induction h with
  | refl m => exact .refl _
  | head hstep _ ih => exact .head (step_under base hstep) ih

/-! ## Parts of a run -/

theorem Steps.step (h : m.step = some m') : Steps m [m] m' := .head h (.refl m')

/-- A machine on the way has the rest of the way before it. -/
theorem Steps.drop {before after : List Machine} (h : Steps m (before ++ m' :: after) stop) :
    Steps m' (m' :: after) stop := by
  induction before generalizing m with
  | nil =>
    cases h with
    | head hstep hrest => exact .head hstep hrest
  | cons _ before ih =>
    cases h with
    | head _ hrest => exact ih hrest

/-- A machine has one way to go, so what it does first is the front of all that it does. -/
theorem Steps.isPrefix {ms' : List Machine} (h : Steps m ms stop) (hstop : stop.step = none)
    (h' : Steps m ms' m') : ms' <+: ms := by
  induction h generalizing ms' with
  | refl m =>
    cases h' with
    | refl => exact List.prefix_refl _
    | head hstep _ =>
      rw [hstop] at hstep
      cases hstep
  | head hstep _ ih =>
    cases h' with
    | refl => exact List.nil_prefix
    | head hstep' hrest =>
      rw [hstep] at hstep'
      cases hstep'
      exact (List.prefix_cons_inj _).mpr (ih hstop hrest)

/-! ## Events -/

/-- What a test shows besides the evaluation of the condition, by what the condition comes to
and what the loop goes on to: a pass begins, or a fault comes up that is not the condition's. -/
def testedTo (held : Except Fault Bool) : Task → List LoopEvent
  | .row _ => [.body]
  | .ended (.error _) =>
    match held with
    | .ok _ => [.exceeded]
    | .error _ => []
  | _ => []

/-- The events of the loop that stands at a height of the stack. -/
def loopEvents (height : Nat) (m : Machine) : List LoopEvent :=
  match m.task with
  | .test control body made =>
    if m.frames.length = height then
      control.tested
        ++ testedTo (control.holds m.sandbox).1 (testLoop m.frames m.sandbox control body made).task
    else []
  | .ended (.ok flow) =>
    match m.frames with
    | .pass control _ _ :: frames =>
      if frames.length = height ∧ flow ≠ .leaveLoop then control.advanced else []
    | _ => []
  | _ => []

/-- The events of the loop at a height in a part of a run. -/
def eventsOf (height : Nat) (ms : List Machine) : List LoopEvent := ms.flatMap (loopEvents height)

theorem eventsOf_append (height : Nat) (ms ms' : List Machine) :
    eventsOf height (ms ++ ms') = eventsOf height ms ++ eventsOf height ms' :=
  List.flatMap_append

theorem eventsOf_cons (height : Nat) (m : Machine) (ms : List Machine) :
    eventsOf height (m :: ms) = loopEvents height m ++ eventsOf height ms :=
  List.flatMap_cons

theorem eventsOf_singleton (height : Nat) (m : Machine) :
    eventsOf height [m] = loopEvents height m :=
  List.flatMap_singleton _ _

/-- Where a limit is exceeded, a fault is the next thing. -/
theorem exists_fault_of_exceeded {height : Nat} (h : .exceeded ∈ m.loopEvents height)
    (hstep : m.step = some m') : ∃ fault, m'.fault? = some fault := by
  obtain ⟨task, frames, s⟩ := m
  cases task with
  | test control body made =>
    cases hstep
    dsimp only [loopEvents] at h
    split at h
    · rcases List.mem_append.mp h with h | h
      · exact absurd h (control.not_mem_tested nofun)
      · unfold testedTo at h
        unfold fault?
        split at h
        · simp at h
        · next fault htask => exact ⟨fault, by rw [htask]⟩
        · cases h
    · cases h
  | ended outcome =>
    cases outcome with
    | error fault => cases h
    | ok flow =>
      dsimp only [loopEvents] at h
      split at h
      · split at h
        · exact absurd h (LoopControl.not_mem_advanced _ nofun)
        · cases h
      · cases h
  | _ => cases h

/-- Nothing but the end of a pass is an event where something has ended. -/
theorem loopEvents_ended {height : Nat} (frame : Frame)
    (hframe : ∀ control body made, frame ≠ .pass control body made) (outcome : Except Fault Flow)
    (frames : List Frame) (s : Sandbox) :
    loopEvents height ⟨.ended outcome, frame :: frames, s⟩ = [] := by
  cases outcome with
  | error fault => rfl
  | ok flow =>
    cases frame with
    | pass control body made => exact absurd rfl (hframe control body made)
    | _ => rfl

/-- What is higher than a loop is not an event of it. -/
theorem loopEvents_under {height : Nat} {frame : Frame} {more : List Frame}
    (hframe : ∀ control body made, frame ≠ .pass control body made)
    (hheight : height ≤ more.length) (m : Machine) :
    (m.under (frame :: more)).loopEvents height = [] := by
  obtain ⟨task, frames, s⟩ := m
  cases task with
  | test control body made =>
    refine if_neg ?_
    dsimp only [under]
    rw [List.length_append, List.length_cons]
    omega
  | ended outcome =>
    rcases frames with _ | ⟨first, frames⟩
    · exact loopEvents_ended frame hframe outcome more s
    · cases outcome with
      | error fault => rfl
      | ok flow =>
        cases first with
        | pass control body made =>
          refine if_neg fun h => ?_
          have hlength := h.1
          simp only [List.append_eq, List.length_append, List.length_cons] at hlength
          omega
        | _ => rfl
  | _ => rfl

variable {control : LoopControl} {body : List Command} {x : Activity Flow} {left made : Nat}

/-- **What runs on top of a loop is silent.** -/
theorem Performs.exists_silent {task : Task} (h : Performs task x) {height : Nat} (frame : Frame)
    (hframe : ∀ control body made, frame ≠ .pass control body made) (more : List Frame)
    (hheight : height ≤ more.length) (s : Sandbox) :
    ∃ ms, Steps ⟨task, frame :: more, s⟩ ms ⟨.ended (x s).1, frame :: more, (x s).2⟩
      ∧ eventsOf height ms = [] := by
  obtain ⟨ms, hms⟩ := h [] s
  refine ⟨ms.map (under (frame :: more)), hms.under (frame :: more), ?_⟩
  refine List.flatMap_eq_nil_iff.mpr fun m hm => ?_
  obtain ⟨m, -, rfl⟩ := List.mem_map.mp hm
  exact loopEvents_under hframe hheight m

/-! ## Passes -/

/-- A body runs in a scope on top of its loop. -/
theorem Performs.exists_pass (hbody : Performs (.row body) x) (control : LoopControl) (made : Nat)
    (frames : List Frame) (s : Sandbox) :
    ∃ ms, Steps ⟨.row body, .scope :: .pass control body made :: frames, s.enter⟩ ms
        ⟨.ended (Activity.inScope x s).1, .pass control body made :: frames,
          (Activity.inScope x s).2⟩
      ∧ eventsOf frames.length ms = [] := by
  obtain ⟨ms, hms, hsilent⟩ := hbody.exists_silent .scope nofun
    (.pass control body made :: frames) (Nat.le_succ frames.length) s.enter
  refine ⟨_, hms.trans (.step rfl), ?_⟩
  rw [eventsOf_append, hsilent, eventsOf_singleton, loopEvents_ended .scope nofun]
  rfl

/-- The events of a test at the height of the loop. -/
theorem loopEvents_test (frames : List Frame) (s : Sandbox) :
    loopEvents frames.length ⟨.test control body made, frames, s⟩
      = control.tested
        ++ testedTo (control.holds s).1 (testLoop frames s control body made).task :=
  if_pos rfl

/-- A loop that is about to test its condition comes to its end in a course. -/
def Runs (control : LoopControl) (body : List Command) (x : Activity Flow) (left made : Nat)
    (frames : List Frame) (s : Sandbox) : Prop :=
  ∃ ms, Steps ⟨.test control body made, frames, s⟩ ms
      ⟨.ended (remaining control x left made s).1, frames, (remaining control x left made s).2⟩
    ∧ control.Course x left s (eventsOf frames.length ms)

/-- A loop whose condition does not hold has only tested it. -/
theorem runs_of_not_holds (frames : List Frame) (s : Sandbox)
    (h : ∀ t, control.holds s ≠ (.ok true, t)) : Runs control body x left made frames s := by
  obtain ⟨y, hy⟩ : ∃ y : Activity Flow, remaining control x left made
      = (do if ← control.holds then y else release control made) := by
    cases left with
    | zero => exact ⟨_, remaining_zero⟩
    | succ left => exact ⟨_, remaining_succ⟩
  have hboth : testLoop frames s control body made
        = ⟨.ended (remaining control x left made s).1, frames, (remaining control x left made s).2⟩
      ∧ testedTo (control.holds s).1 (testLoop frames s control body made).task = [] := by
    rw [hy, bind_apply, testLoop]
    cases hholds : control.holds s with
    | mk outcome t =>
      cases outcome with
      | error fault => exact ⟨rfl, rfl⟩
      | ok goesOn =>
        cases goesOn with
        | false => exact ⟨rfl, rfl⟩
        | true => exact absurd hholds (h t)
  obtain ⟨htest, hnothing⟩ := hboth
  refine ⟨[⟨.test control body made, frames, s⟩], .step (congrArg some htest), ?_⟩
  rw [eventsOf_singleton, loopEvents_test, hnothing, List.append_nil]
  exact .ends h

/-- A loop that may begin no other pass, although its condition holds, exceeds its limit. -/
theorem runs_of_exceeded (hlimit : control.guard.limit < made + 1) (frames : List Frame)
    {s t : Sandbox} (hholds : control.holds s = (.ok true, t)) :
    Runs control body x 0 made frames s := by
  have htest : testLoop frames s control body made
      = ⟨.ended (.error (.iterationLimit control.guard.name control.guard.limit)), frames, t⟩ := by
    rw [testLoop, hholds]
    exact if_pos hlimit
  refine ⟨[⟨.test control body made, frames, s⟩], ?_, ?_⟩
  · rw [remaining_zero, bind_apply, hholds]
    exact .step (congrArg some htest)
  · rw [eventsOf_singleton, loopEvents_test, htest, hholds]
    exact .exceeds hholds

section Remaining

variable {s t u : Sandbox} (h : control.holds s = (.ok true, t))

include h

/-- A fault in the body ends a loop. -/
theorem remaining_of_fault {fault : Fault} (hrun : inScope x t = (.error fault, u)) :
    remaining control x (left + 1) made s = (.error fault, u) := by
  rw [remaining_succ, bind_apply, h]
  dsimp only
  rw [if_pos rfl, bind_apply, hrun]

/-- So does leaving it. -/
theorem remaining_of_leave (hrun : inScope x t = (.ok .leaveLoop, u)) :
    remaining control x (left + 1) made s
      = (.ok .done, u.note (.released control.guard.name (made + 1))) := by
  rw [remaining_succ, bind_apply, h]
  dsimp only
  rw [if_pos rfl, bind_apply, hrun]
  rfl

/-- Otherwise the loop goes on. -/
theorem remaining_of_stay {flow : Flow} (hrun : inScope x t = (.ok flow, u))
    (hflow : flow ≠ .leaveLoop) :
    remaining control x (left + 1) made s
      = (do control.advance; remaining control x left (made + 1) : Activity Flow) u := by
  rw [remaining_succ, bind_apply, h]
  dsimp only
  rw [if_pos rfl, bind_apply, hrun]
  cases flow with
  | leaveLoop => exact absurd rfl hflow
  | done | nextPass => rfl

end Remaining

/-- After a pass that has not left the loop comes the increment, and if no fault comes up in it,
the next test. -/
theorem exists_events_of_flow {frames : List Frame}
    (hnext : ∀ s, Runs control body x left made frames s) {flow : Flow} (hflow : flow ≠ .leaveLoop)
    (s : Sandbox) :
    ∃ ms, Steps ⟨.ended (.ok flow), .pass control body made :: frames, s⟩ ms
        ⟨.ended ((do control.advance; remaining control x left made : Activity Flow) s).1, frames,
          ((do control.advance; remaining control x left made : Activity Flow) s).2⟩
      ∧ ((∃ t events, control.advance s = (.ok (), t) ∧ control.Course x left t events
          ∧ eventsOf frames.length ms = control.advanced ++ events)
        ∨ (∀ t, control.advance s ≠ (.ok (), t))
          ∧ eventsOf frames.length ms = control.advanced) := by
  have hevents : loopEvents frames.length ⟨.ended (.ok flow), .pass control body made :: frames, s⟩
      = control.advanced := if_pos ⟨rfl, hflow⟩
  rw [bind_apply]
  cases hadvance : control.advance s with
  | mk outcome t =>
    cases outcome with
    | error fault =>
      refine ⟨_, .step ?_, .inr ⟨nofun, (eventsOf_singleton _ _).trans hevents⟩⟩
      rw [step_pass hflow, advanceLoop, hadvance]
    | ok _ =>
      obtain ⟨ms, hms, hcourse⟩ := hnext t
      refine ⟨_, .head ?_ hms, .inl ⟨t, _, rfl, hcourse, ?_⟩⟩
      · rw [step_pass hflow, advanceLoop, hadvance]
      · rw [eventsOf_cons, hevents]

/-- A loop that may begin another pass begins it if its condition holds, and what the pass comes
to decides how the loop goes on. -/
theorem runs_of_pass (hbody : Performs (.row body) x) (hlimit : ¬ control.guard.limit < made + 1)
    {frames : List Frame} (hnext : ∀ s, Runs control body x left (made + 1) frames s)
    {s t : Sandbox} (hholds : control.holds s = (.ok true, t)) :
    Runs control body x (left + 1) made frames s := by
  have htest : testLoop frames s control body made
      = ⟨.row body, .scope :: .pass control body (made + 1) :: frames, t.enter⟩ := by
    rw [testLoop, hholds]
    exact if_neg hlimit
  obtain ⟨pass, hpass, hsilent⟩ := hbody.exists_pass control (made + 1) frames t
  have hfirst : Steps ⟨.test control body made, frames, s⟩ (_ :: pass) _ :=
    .head (congrArg some htest) hpass
  have hevents : eventsOf frames.length (⟨.test control body made, frames, s⟩ :: pass)
      = control.tested ++ [.body] := by
    rw [eventsOf_cons, loopEvents_test, htest, hsilent, List.append_nil]
    rfl
  cases hrun : inScope x t with
  | mk outcome u =>
    rw [hrun] at hfirst
    have hended (h : ∀ flow v, inScope x t = (.ok flow, v) → flow = .leaveLoop) :
        control.Course x (left + 1) s (control.tested ++ [.body] ++ []) := by
      rw [List.append_nil]
      exact .leaves hholds h
    cases outcome with
    | error fault =>
      unfold Runs
      rw [remaining_of_fault hholds hrun]
      refine ⟨_, hfirst.trans (.step rfl), ?_⟩
      rw [eventsOf_append, hevents]
      refine hended fun flow v h => ?_
      rw [hrun] at h
      cases h
    | ok flow =>
      by_cases hflow : flow = .leaveLoop
      · subst hflow
        have hnone : eventsOf frames.length
            [⟨.ended (.ok .leaveLoop), .pass control body (made + 1) :: frames, u⟩] = [] :=
          (eventsOf_singleton _ _).trans (if_neg fun h => h.2 rfl)
        unfold Runs
        rw [remaining_of_leave hholds hrun]
        refine ⟨_, hfirst.trans (.step rfl), ?_⟩
        rw [eventsOf_append, hevents, hnone]
        refine hended fun flow v h => ?_
        rw [hrun] at h
        cases h
        rfl
      · unfold Runs
        rw [remaining_of_stay hholds hrun hflow]
        obtain ⟨rest, hrest, hcases⟩ := exists_events_of_flow hnext hflow u
        refine ⟨_, hfirst.trans hrest, ?_⟩
        rw [eventsOf_append, hevents, List.append_assoc]
        rcases hcases with ⟨v, events, hadvance, hcourse, hrest⟩ | ⟨hadvance, hrest⟩
        · rw [hrest]
          exact .next ⟨hholds, hrun, hflow, hadvance⟩ hcourse
        · rw [hrest]
          exact .stops hholds hrun hadvance

/-- **The events of a loop are a course**, by induction on the passes that may still begin. With
those that have begun they make up the limit. -/
theorem runs (hbody : Performs (.row body) x) (hmade : made + left = control.guard.limit)
    (frames : List Frame) (s : Sandbox) : Runs control body x left made frames s := by
  induction left generalizing made s with
  | zero =>
    by_cases hgoes : ∃ t, control.holds s = (.ok true, t)
    · obtain ⟨t, hholds⟩ := hgoes
      exact runs_of_exceeded (by omega) frames hholds
    · exact runs_of_not_holds frames s fun t ht => hgoes ⟨t, ht⟩
  | succ left ih =>
    by_cases hgoes : ∃ t, control.holds s = (.ok true, t)
    · obtain ⟨t, hholds⟩ := hgoes
      have hnext (s : Sandbox) : Runs control body x left (made + 1) frames s := ih (by omega) s
      exact runs_of_pass hbody (by omega) hnext hholds
    · exact runs_of_not_holds frames s fun t ht => hgoes ⟨t, ht⟩

/-- Where the limit is spent, the loop ends in its fault. -/
theorem remaining_of_spends {s : Sandbox} (h : control.Spends x left s) :
    (remaining control x left made s).1
      = .error (.iterationLimit control.guard.name control.guard.limit) := by
  induction left generalizing made s with
  | zero =>
    obtain ⟨t, hholds⟩ := h.exists_holds
    rw [remaining_zero, bind_apply, hholds]
    rfl
  | succ left ih =>
    obtain ⟨_, ⟨hholds, hrun, hflow, hadvance⟩, hspends⟩ := h.exists_round
    rw [remaining_of_stay hholds hrun hflow, bind_apply, hadvance]
    exact ih hspends

end Machine

open Machine

/-! ## Entries -/

namespace LoopControl

/-- What a loop opens with. -/
def opening : Option Command → Activity Unit
  | none => return ()
  | some command => do
    let _ ← command.run

/-- A loop that is entered opens without a fault, and is armed then. -/
def Opens (control : LoopControl) (initial : Option Command) (s t : Sandbox) : Prop :=
  ∃ u, opening initial (s.moveTo control.place).enter = (.ok (), u)
    ∧ t = u.note (.armed control.guard.name control.place)

theorem Opens.unique {control : LoopControl} {initial : Option Command} {s t t' : Sandbox}
    (h : control.Opens initial s t) (h' : control.Opens initial s t') : t = t' := by
  obtain ⟨u, hopening, rfl⟩ := h
  obtain ⟨u', hopening', rfl⟩ := h'
  rw [hopening] at hopening'
  cases hopening'
  rfl

theorem run_loop (control : LoopControl) (initial : Option Command) (body : List Command)
    (s : Sandbox) :
    (Command.loop control initial body).run s
      = match opening initial (s.moveTo control.place).enter with
        | (.error fault, t) => (.error fault, t.leave)
        | (.ok _, t) =>
          match remaining control (Command.runAll body) control.guard.limit 0
              (t.note (.armed control.guard.name control.place)) with
          | (outcome, u) => (outcome, u.leave) := by
  cases initial with
  | none => exact run_loop_apply control (opening none) (Command.runAll body) _
  | some command => exact run_loop_apply control (opening (some command)) (Command.runAll body) _

end LoopControl

namespace Machine

variable (control : LoopControl) (initial : Option Command) (body : List Command)
  (frames : List Frame) (s : Sandbox)

/-- Whatever a loop opens with is silent. -/
theorem exists_opening :
    ∃ ms outcome t, Steps ⟨.command (.loop control initial body), frames, s⟩ ms
        ⟨.ended outcome, .opening control body :: .scope :: frames, t⟩
      ∧ eventsOf (frames.length + 1) ms = []
      ∧ LoopControl.opening initial (s.moveTo control.place).enter
        = (outcome.map fun _ => (), t) := by
  cases initial with
  | none => exact ⟨_, .ok .done, _, .step rfl, rfl, rfl⟩
  | some command =>
    obtain ⟨ms, hms, hsilent⟩ := command.performs_run.exists_silent (.opening control body) nofun
      (.scope :: frames) (Nat.le_refl (frames.length + 1)) (s.moveTo control.place).enter
    refine ⟨_, _, _, .head rfl hms, ?_, ?_⟩
    · rw [eventsOf_cons, hsilent]
      rfl
    · rw [LoopControl.opening, bind_apply]
      cases command.run (s.moveTo control.place).enter with
      | mk outcome t => cases outcome <;> rfl

/-- **A loop that is entered runs in a course**, unless a fault comes up in what it opens with. -/
theorem exists_entry :
    ∃ ms, Steps ⟨.command (.loop control initial body), frames, s⟩ ms
        ⟨.ended ((Command.loop control initial body).run s).1, frames,
          ((Command.loop control initial body).run s).2⟩
      ∧ ((∃ t, control.Opens initial s t ∧ control.Course (Command.runAll body)
            control.guard.limit t (eventsOf (frames.length + 1) ms)
          ∧ ((Command.loop control initial body).run s).1
            = (remaining control (Command.runAll body) control.guard.limit 0 t).1)
        ∨ (∀ t, ¬ control.Opens initial s t) ∧ eventsOf (frames.length + 1) ms = []) := by
  obtain ⟨ms, outcome, t, hms, hsilent, hopening⟩ := exists_opening control initial body frames s
  rw [LoopControl.run_loop, hopening]
  cases outcome with
  | error fault =>
    refine ⟨_, hms.trans (.head rfl (.step rfl)), .inr ⟨?_, ?_⟩⟩
    · rintro _ ⟨u, hopens, -⟩
      rw [hopening] at hopens
      cases hopens
    · rw [eventsOf_append, hsilent]
      rfl
  | ok flow =>
    have hrow := Command.performs_runAll body
    obtain ⟨passes, hpasses, hcourse⟩ := runs hrow (Nat.zero_add control.guard.limit)
      (.scope :: frames) (t.note (.armed control.guard.name control.place))
    refine ⟨_, hms.trans (.head rfl (hpasses.trans (.step rfl))), .inl ?_⟩
    refine ⟨_, ⟨t, hopening, rfl⟩, ?_, rfl⟩
    rw [eventsOf_append, hsilent, eventsOf_cons, eventsOf_append, eventsOf_singleton,
      loopEvents_ended .scope nofun, List.append_nil]
    exact hcourse

end Machine

/-- What the guard of a loop does in one entry of it, given the machines that take a step from
the loop to its end. -/
structure LoopControl.Guarded (control : LoopControl) (initial : Option Command)
    (body : List Command) (frames : List Frame) (s : Sandbox) (ms : List Machine) : Prop where
  /-- These are the machines of the entry. -/
  steps : Steps ⟨.command (.loop control initial body), frames, s⟩ ms
    ⟨.ended ((Command.loop control initial body).run s).1, frames,
      ((Command.loop control initial body).run s).2⟩
  /-- No more bodies begin than the limit allows. -/
  bodies_le : (eventsOf (frames.length + 1) ms).count .body ≤ control.guard.limit
  /-- The limit is exceeded exactly if the loop opens, as many passes are completed as the limit
  allows, and the condition holds once more. -/
  exceeded_iff : .exceeded ∈ eventsOf (frames.length + 1) ms ↔
    ∃ t, control.Opens initial s t
      ∧ control.Spends (Command.runAll body) control.guard.limit t
  /-- Then so many bodies have begun, -/
  bodies : .exceeded ∈ eventsOf (frames.length + 1) ms →
    (eventsOf (frames.length + 1) ms).count .body = control.guard.limit
  /-- as many increments have been evaluated, if there is one, -/
  increments : .exceeded ∈ eventsOf (frames.length + 1) ms →
    (eventsOf (frames.length + 1) ms).count .increment
      = if control.increment.isSome then control.guard.limit else 0
  /-- the condition, if there is one, has been evaluated once more, -/
  conditions : .exceeded ∈ eventsOf (frames.length + 1) ms →
    (eventsOf (frames.length + 1) ms).count .condition
      = if control.condition.isSome then control.guard.limit + 1 else 0
  /-- and the fault of the limit ends the loop: from the test that raises it on, nothing is done
  but dropping what was put off. -/
  stopped : .exceeded ∈ eventsOf (frames.length + 1) ms →
    ((Command.loop control initial body).run s).1
        = .error (.iterationLimit control.guard.name control.guard.limit)
      ∧ ∃ before at' after, ms = before ++ at' :: after
        ∧ .exceeded ∈ at'.loopEvents (frames.length + 1)
        ∧ ∀ m ∈ after, m.fault?
          = some (.iterationLimit control.guard.name control.guard.limit)

/-- Where a limit is exceeded on the way to a fault, this is the fault, and there is nothing else
after it. -/
theorem Machine.Steps.exists_exceeding {m stop : Machine} {ms : List Machine} {height : Nat}
    {fault : Fault} (h : Steps m ms stop) (hstop : stop.fault? = some fault)
    (hexceeded : .exceeded ∈ eventsOf height ms) :
    ∃ before at' after, ms = before ++ at' :: after ∧ .exceeded ∈ at'.loopEvents height
      ∧ ∀ x ∈ after, x.fault? = some fault := by
  obtain ⟨at', hat, hevent⟩ := List.mem_flatMap.mp hexceeded
  obtain ⟨before, after, rfl⟩ := List.append_of_mem hat
  refine ⟨before, at', after, rfl, hevent, ?_⟩
  cases h.drop with
  | head hstep hrest =>
    obtain ⟨raised, hraised⟩ := exists_fault_of_exceeded hevent hstep
    obtain ⟨hend, hafter⟩ := hrest.fault hraised
    rw [hstop] at hend
    cases hend
    exact hafter

theorem LoopControl.exists_guarded (control : LoopControl) (initial : Option Command)
    (body : List Command) (frames : List Frame) (s : Sandbox) :
    ∃ ms, control.Guarded initial body frames s ms := by
  obtain ⟨ms, hms, ⟨t, hopens, hcourse, houtcome⟩ | ⟨hopens, hnone⟩⟩ :=
    exists_entry control initial body frames s
  · have hiff : .exceeded ∈ eventsOf (frames.length + 1) ms ↔ ∃ t, control.Opens initial s t
        ∧ control.Spends (Command.runAll body) control.guard.limit t := by
      rw [hcourse.exceeded_mem_iff]
      constructor
      · exact fun hspends => ⟨t, hopens, hspends⟩
      · rintro ⟨t', hopens', hspends⟩
        rw [hopens.unique hopens']
        exact hspends
    refine ⟨ms, hms, hcourse.count_body_le, hiff, ?_, ?_, ?_, ?_⟩
    · exact fun hexceeded => (hcourse.counts hexceeded).1
    · intro hexceeded
      rw [(hcourse.counts hexceeded).2.1, advanced]
      split
      · exact Nat.mul_one _
      · rfl
    · intro hexceeded
      rw [(hcourse.counts hexceeded).2.2, tested]
      split
      · exact Nat.mul_one _
      · rfl
    · intro hexceeded
      rw [remaining_of_spends (hcourse.exceeded_mem_iff.mp hexceeded)] at houtcome
      exact ⟨houtcome, hms.exists_exceeding (by rw [houtcome]; rfl) hexceeded⟩
  · have hnever : .exceeded ∉ eventsOf (frames.length + 1) ms := by
      rw [hnone]
      exact List.not_mem_nil
    refine ⟨ms, hms, ?_, ?_, ?_, ?_, ?_, ?_⟩
    · rw [hnone]
      exact Nat.zero_le _
    · exact iff_of_false hnever fun ⟨t, h, _⟩ => hopens t h
    all_goals exact fun hexceeded => absurd hexceeded hnever

/-- **The guard of a loop is exact.** In every entry of every loop, from any sandbox and
whatever has been put off, the guard does what its limit says (`LoopControl.Guarded`), and it
begins to count anew: each time a run of a script comes to a loop, what follows is such an
entry. -/
theorem Sandbox.guarded_loops (control : LoopControl) (initial : Option Command)
    (body : List Command) :
    (∀ frames s, ∃ ms, control.Guarded initial body frames s ms)
      ∧ ∀ (script : Script) (s : Sandbox), ∃ ms t,
        Steps (script.start s) ms ⟨.ended (s.outcome script), [], t⟩
          ∧ ∀ before frames s' after,
            ms = before ++ ⟨.command (.loop control initial body), frames, s'⟩ :: after →
              ∃ entry rest, ms = before ++ (entry ++ rest)
                ∧ control.Guarded initial body frames s' entry := by
  have hguarded := LoopControl.exists_guarded control initial body
  refine ⟨hguarded, fun script s => ?_⟩
  obtain ⟨ms, t, hms, -⟩ := Sandbox.reaches_run script s
  refine ⟨ms, t, hms, ?_⟩
  rintro before frames s' after rfl
  obtain ⟨entry, hentry⟩ := hguarded frames s'
  obtain ⟨rest, hrest⟩ := hms.drop.isPrefix rfl hentry.steps
  exact ⟨entry, rest, by rw [hrest], hentry⟩

end Lipi
