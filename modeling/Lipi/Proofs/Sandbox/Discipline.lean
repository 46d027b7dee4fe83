/-
What is written to the log, and when.

Of all that a run does only two things add to the log. A print adds one line, whether its
arguments have values or a fault comes up in them, and then the run goes on; and a fault
that no print has caught adds one line when the run is over. This is said of the steps of
the machine (`Machine`): the step of a print adds its line (`Machine.printed?`), any other
step adds none (`Machine.lines_step`), and once a fault has come up, all that is left are steps
that drop what was put off (`Machine.fault_step`), so that nothing is executed after it. By
induction on the steps the lines of a run are those of its prints, in order, and a fault
comes up at one step at most (`Sandbox.disciplined_run`).
-/
import Lipi.Proofs.Sandbox.Machine
import Lipi.Proofs.Sandbox.Output

set_option autoImplicit false

namespace Lipi

open Procedure Activity

namespace Machine

/-- The line of a machine that is about to execute a print: its values as they are written, with
single blanks between them, or what went wrong in one of its arguments, behind `Error: `. -/
def printed? (m : Machine) : Option String :=
  match m.task with
  | .command (.capture _ arguments) =>
    match (Expr.evalAll arguments m.sandbox.environment).1 with
    | .ok values => some (" ".intercalate (values.map Value.written))
    | .error fault => some ("Error: " ++ fault.message)
  | _ => none

/-- It is the line that a print writes. -/
theorem printed?_capture (place : Location) (arguments : List Expr) (frames : List Frame)
    (s : Sandbox) : printed? ⟨.command (.capture place arguments), frames, s⟩
      = some (OutputLog.captureLine (Expr.evalAll arguments s.environment).1) := by
  unfold printed?
  dsimp only
  cases (Expr.evalAll arguments s.environment).1 <;> rfl

/-- The fault that has come up and is on its way out. -/
def fault? (m : Machine) : Option Fault :=
  match m.task with
  | .ended (.error fault) => some fault
  | _ => none

variable {m m' m'' : Machine} {ms : List Machine}

/-! ## One step -/

/-- A command without prints leaves the log alone. -/
theorem log_run_of_captures {c : Command} (h : c.captures = []) (s : Sandbox) :
    (c.run s).2.log = s.log := by
  have hprints := c.prints_run s
  rw [h] at hprints
  exact hprints.log_eq

theorem lines_of_log_eq {s t : Sandbox} (h : t.log = s.log) :
    t.log.lines = s.log.lines ++ (none : Option String).toArray := by
  rw [h]
  exact Array.append_empty.symm

theorem lines_beginCommand (frames : List Frame) (s : Sandbox) (c : Command) :
    (beginCommand frames s c).sandbox.log.lines
      = s.log.lines ++ (printed? ⟨.command c, frames, s⟩).toArray := by
  match c with
  | .capture place arguments =>
    rw [printed?_capture]
    exact Array.append_singleton.symm
  | .choice place chain => exact lines_of_log_eq rfl
  | .loop control none body => exact lines_of_log_eq rfl
  | .loop control (some initial) body => exact lines_of_log_eq rfl
  | .declare place mutability name value => exact lines_of_log_eq (log_run_of_captures rfl s)
  | .assign place name value => exact lines_of_log_eq (log_run_of_captures rfl s)
  | .eval place value => exact lines_of_log_eq (log_run_of_captures rfl s)
  | .breakLoop => exact lines_of_log_eq rfl
  | .continueLoop => exact lines_of_log_eq rfl

theorem log_beginRow (frames : List Frame) (s : Sandbox) (cs : List Command) :
    (beginRow frames s cs).sandbox.log = s.log := by
  cases cs <;> rfl

theorem log_beginChain (frames : List Frame) (s : Sandbox) (c : CommandChain) :
    (beginChain frames s c).sandbox.log = s.log := by
  cases c with
  | test condition body rest =>
    have hquiet := (prints_evaluation condition.eval s).log_eq
    rw [beginChain]
    cases hs : evaluation condition.eval s with
    | mk outcome t =>
      rw [hs] at hquiet
      cases outcome with
      | error fault => exact hquiet
      | ok v =>
        by_cases hholds : v.isTruthy = true
        · simp only [if_pos hholds]
          exact hquiet
        · simp only [if_neg hholds]
          exact hquiet
  | otherwise body => rfl
  | done => rfl

theorem log_beginPass (frames : List Frame) (s : Sandbox) (control : LoopControl)
    (body : List Command) (made : Nat) :
    (beginPass frames s control body made).sandbox.log = s.log := by
  rw [beginPass]
  by_cases hlimit : control.guard.limit < made + 1
  · rw [if_pos hlimit]
  · rw [if_neg hlimit]
    rfl

theorem log_testLoop (frames : List Frame) (s : Sandbox) (control : LoopControl)
    (body : List Command) (made : Nat) :
    (testLoop frames s control body made).sandbox.log = s.log := by
  have hquiet := (LoopControl.prints_holds control s).log_eq
  rw [testLoop]
  cases hs : control.holds s with
  | mk outcome t =>
    rw [hs] at hquiet
    cases outcome with
    | error fault => exact hquiet
    | ok goesOn =>
      cases goesOn with
      | false => exact hquiet
      | true => exact (log_beginPass frames t control body made).trans hquiet

theorem log_advanceLoop (frames : List Frame) (s : Sandbox) (control : LoopControl)
    (body : List Command) (made : Nat) :
    (advanceLoop frames s control body made).sandbox.log = s.log := by
  have hquiet := (LoopControl.prints_advance control s).log_eq
  rw [advanceLoop]
  cases hs : control.advance s with
  | mk outcome t =>
    rw [hs] at hquiet
    cases outcome <;> exact hquiet

theorem log_resume (frames : List Frame) (s : Sandbox) (outcome : Except Fault Flow)
    (frame : Frame) : (resume frames s outcome frame).sandbox.log = s.log := by
  cases frame with
  | scope => rfl
  | rest cs =>
    cases outcome with
    | error fault => rfl
    | ok flow => cases flow <;> rfl
  | opening control body => cases outcome <;> rfl
  | pass control body made =>
    cases outcome with
    | error fault => rfl
    | ok flow =>
      cases flow with
      | leaveLoop => rfl
      | done => exact log_advanceLoop frames s control body made
      | nextPass => exact log_advanceLoop frames s control body made

/-- **One step adds the line of a print, or no line.** -/
theorem lines_step (h : m.step = some m') :
    m'.sandbox.log.lines = m.sandbox.log.lines ++ m.printed?.toArray := by
  obtain ⟨task, frames, s⟩ := m
  cases task with
  | command c =>
    cases h
    exact lines_beginCommand frames s c
  | row cs =>
    cases h
    exact lines_of_log_eq (log_beginRow frames s cs)
  | chain c =>
    cases h
    exact lines_of_log_eq (log_beginChain frames s c)
  | test control body made =>
    cases h
    exact lines_of_log_eq (log_testLoop frames s control body made)
  | ended outcome =>
    cases frames with
    | nil => cases h
    | cons frame frames =>
      cases h
      exact lines_of_log_eq (log_resume frames s outcome frame)

/-- After a print the run goes on with what was put off, whatever came of its arguments. -/
theorem step_of_printed {line : String} (hline : m.printed? = some line)
    (h : m.step = some m') : m'.task = .ended (.ok .done) ∧ m'.frames = m.frames := by
  obtain ⟨task, frames, s⟩ := m
  cases task with
  | command c =>
    cases c with
    | capture place arguments =>
      cases h
      exact ⟨rfl, rfl⟩
    | _ => cases hline
  | _ => cases hline

/-- A fault that is on its way out stays so. -/
theorem fault_step {fault : Fault} (hfault : m.fault? = some fault) (h : m.step = some m') :
    m'.fault? = some fault := by
  obtain ⟨task, frames, s⟩ := m
  cases task with
  | ended outcome =>
    cases outcome with
    | ok flow => cases hfault
    | error _ =>
      cases hfault
      cases frames with
      | nil => cases h
      | cons frame frames =>
        cases h
        cases frame <;> rfl
  | _ => cases hfault

/-! ## Many steps -/

/-- **The lines of a run are those of its prints.** -/
theorem Steps.lines (h : Steps m ms m') :
    m'.sandbox.log.lines = m.sandbox.log.lines ++ (ms.filterMap printed?).toArray := by
  induction h with
  | refl m => exact Array.append_empty.symm
  | @head m _ _ ms hstep _ ih =>
    rw [ih, lines_step hstep, Array.append_assoc]
    cases hline : m.printed? with
    | none => rw [List.filterMap_cons_none hline, Option.toArray_none, Array.empty_append]
    | some line =>
      rw [List.filterMap_cons_some hline, Option.toArray_some,
        List.toArray_cons line (ms.filterMap printed?)]

/-- Where a fault has come up, nothing is left but dropping what was put off. -/
theorem Steps.fault (h : Steps m ms m') {fault : Fault} (hfault : m.fault? = some fault) :
    m'.fault? = some fault ∧ ∀ x ∈ ms, x.fault? = some fault := by
  induction h with
  | refl m => exact ⟨hfault, nofun⟩
  | head hstep _ ih =>
    obtain ⟨hend, hbetween⟩ := ih (fault_step hfault hstep)
    exact ⟨hend, List.forall_mem_cons.mpr ⟨hfault, hbetween⟩⟩

/-- A run that ends without a fault has had none on the way. -/
theorem Steps.no_fault (h : Steps m ms m') (hend : m'.fault? = none) :
    ∀ x ∈ ms, x.fault? = none := by
  induction h with
  | refl m => nofun
  | @head m _ _ ms hstep hrest ih =>
    refine List.forall_mem_cons.mpr ⟨?_, ih hend⟩
    cases hfault : m.fault? with
    | none => rfl
    | some fault =>
      -- It would still be there in the end.
      have hlast := ((Steps.head hstep hrest).fault hfault).1
      rw [hend] at hlast
      cases hlast

/-- **A fault comes up at one step.** Before it there is none, and after it there is nothing
else. -/
theorem Steps.exists_faulting (h : Steps m ms m') {fault : Fault} (hstart : m.fault? = none)
    (hend : m'.fault? = some fault) :
    ∃ before at' after, ms = before ++ at' :: after
      ∧ (∀ x ∈ before, x.fault? = none) ∧ at'.fault? = none
      ∧ ∀ x ∈ after, x.fault? = some fault := by
  induction h with
  | refl m =>
    rw [hstart] at hend
    cases hend
  | @head m next _ ms hstep hrest ih =>
    cases hnext : next.fault? with
    | some fault' =>
      -- The step from here is the one.
      obtain ⟨hsame, hafter⟩ := hrest.fault hnext
      rw [hend] at hsame
      cases hsame
      exact ⟨[], m, ms, rfl, nofun, hstart, hafter⟩
    | none =>
      obtain ⟨before, at', after, rfl, hbefore, hat, hafter⟩ := ih hnext hend
      exact ⟨m :: before, at', after, rfl, List.forall_mem_cons.mpr ⟨hstart, hbefore⟩, hat, hafter⟩

end Machine

/-! ## Runs -/

/-- What a run of a script writes to the log, given the machines that take a step on the way
and the sandbox in which the last command leaves it. -/
structure Sandbox.Disciplined (script : Script) (s : Sandbox) (ms : List Machine) (t : Sandbox) :
    Prop where
  /-- These are the machines of the run. -/
  steps : Machine.Steps (script.start s) ms ⟨.ended (s.outcome script), [], t⟩
  /-- Lines that were there stay, and after them come those of the prints, in order. -/
  lines : t.log.lines = s.log.lines ++ (ms.filterMap Machine.printed?).toArray
  /-- Each print adds its line when it is executed, and nothing else adds any. -/
  each : ∀ m ∈ ms, ∀ m', m.step = some m' →
    m'.sandbox.log.lines = m.sandbox.log.lines ++ m.printed?.toArray
  /-- After a print the run goes on with what was put off. -/
  recovered : ∀ m ∈ ms, ∀ line, m.printed? = some line → ∀ m', m.step = some m' →
    m'.task = .ended (.ok .done) ∧ m'.frames = m.frames
  /-- If no fault ends the run, there has been none outside of prints, and nothing is added. -/
  completed : ∀ flow, s.outcome script = .ok flow →
    (s.run script).log = t.log ∧ ∀ m ∈ ms, m.fault? = none
  /-- If one does, its line is the last, with its class and what it says, and no command is
  executed after it has come up. -/
  stopped : ∀ fault, s.outcome script = .error fault →
    (s.run script).log.lines
        = t.log.lines.push ("Execution Error: " ++ fault.tag ++ ": " ++ fault.message)
      ∧ ∃ before at' after, ms = before ++ at' :: after
        ∧ (∀ m ∈ before, m.fault? = none) ∧ at'.fault? = none
        ∧ ∀ m ∈ after, m.fault? = some fault

/-- **What a run writes to the log** are the lines of its prints and, if a fault ends it, one
line for that. -/
theorem Sandbox.disciplined_run (script : Script) (s : Sandbox) :
    ∃ ms t, Sandbox.Disciplined script s ms t := by
  obtain ⟨ms, t, hsteps, hrun⟩ := reaches_run script s
  refine ⟨ms, t, hsteps, hsteps.lines, ?_, ?_, ?_, ?_⟩
  · exact fun _ _ _ hstep => Machine.lines_step hstep
  · exact fun _ _ _ hline _ hstep => Machine.step_of_printed hline hstep
  · intro flow hflow
    rw [hflow] at hsteps hrun
    exact ⟨congrArg Sandbox.log hrun, hsteps.no_fault rfl⟩
  · intro fault hfault
    rw [hfault] at hsteps hrun
    refine ⟨?_, hsteps.exists_faulting rfl rfl⟩
    rw [hrun]
    rfl

end Lipi
