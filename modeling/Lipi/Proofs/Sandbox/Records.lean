/-
What the lines of a log record.

Three things leave a line in a log: a print that has values to show, a print in which a fault
comes up, and a fault that ends the run. The text of a line does not tell them apart, for a
script may print itself what a fault would leave. So they are told apart where they happen: the
machine leaves a record for every print that it executes (`Machine.record?`), and a fault that
no print has caught is recorded when the run is over (`Sandbox.Records`). A run has one row of
records (`Sandbox.existsUnique_records`), and its lines are theirs (`Sandbox.Records.lines`).
-/
import Lipi.Proofs.Sandbox.Discipline

set_option autoImplicit false

namespace Lipi

/-- What has left a line in a log. -/
inductive Record where
  /-- A print of these values. -/
  | shown (values : List Value)
  /-- A print in which a fault has come up. -/
  | recovered (fault : Fault)
  /-- A fault that has ended the run. -/
  | fatal (fault : Fault)
deriving DecidableEq

namespace Record

/-- The record of a print. -/
def ofPrint : Except Fault (List Value) → Record
  | .ok values => shown values
  | .error fault => recovered fault

/-- The records of the end of a run. -/
def ofEnd : Except Fault Flow → List Record
  | .ok _ => []
  | .error fault => [fatal fault]

/-- The line that a record has in the log. -/
def line : Record → String
  | shown values => OutputLog.captureLine (.ok values)
  | recovered fault => fault.recoveredLine
  | fatal fault => fault.fatalLine

/-- The fault that is recorded, if one is. -/
def fault? : Record → Option Fault
  | shown _ => none
  | recovered fault => some fault
  | fatal fault => some fault

/-- The line of a fatal fault, by its opening. -/
theorem line_fatal (fault : Fault) :
    (fatal fault).line = "Execution Error: " ++ (fault.tag ++ ": " ++ fault.message) := by
  show "Execution Error: " ++ fault.tag ++ ": " ++ fault.message = _
  rw [String.append_assoc, String.append_assoc, String.append_assoc]

theorem line_ofPrint (outcome : Except Fault (List Value)) :
    (ofPrint outcome).line = OutputLog.captureLine outcome := by
  cases outcome <;> rfl

end Record

namespace Machine

/-- The record of a machine that is about to execute a print. -/
def record? (m : Machine) : Option Record :=
  match m.task with
  | .command (.capture _ arguments) =>
    some (.ofPrint (Expr.evalAll arguments m.sandbox.environment).1)
  | _ => none

/-- It is the record of the line that is printed. -/
theorem map_line_record? (m : Machine) : m.record?.map Record.line = m.printed? := by
  obtain ⟨task, frames, s⟩ := m
  cases task with
  | command c =>
    cases c with
    | capture place arguments =>
      rw [printed?_capture]
      exact congrArg some (Record.line_ofPrint _)
    | _ => rfl
  | _ => rfl

theorem map_line_filterMap_record? (ms : List Machine) :
    (ms.filterMap record?).map Record.line = ms.filterMap printed? := by
  rw [List.map_filterMap]
  exact congrArg (ms.filterMap ·) (funext map_line_record?)

end Machine

namespace Sandbox

/-- The records that a run of a script leaves: those of its prints, in the order in which they
are executed, and that of the fault that ends it. -/
def Records (script : Script) (s : Sandbox) (records : List Record) : Prop :=
  ∃ ms t, Machine.Steps (script.start s) ms ⟨.ended (s.outcome script), [], t⟩
    ∧ records = ms.filterMap Machine.record? ++ Record.ofEnd (s.outcome script)

variable {script : Script} {s : Sandbox} {records records' : List Record}

theorem Records.unique (h : s.Records script records) (h' : s.Records script records') :
    records = records' := by
  obtain ⟨ms, t, hsteps, rfl⟩ := h
  obtain ⟨ms', t', hsteps', rfl⟩ := h'
  rw [(hsteps.unique rfl hsteps' rfl).1]

/-- **Every run has one row of records.** -/
theorem existsUnique_records (script : Script) (s : Sandbox) :
    ∃! records, s.Records script records := by
  obtain ⟨ms, t, hsteps, -⟩ := reaches_run script s
  exact ⟨_, ⟨ms, t, hsteps, rfl⟩, fun records h => h.unique ⟨ms, t, hsteps, rfl⟩⟩

/-- The end of a run adds the line of its record. -/
theorem lines_closed (outcome : Except Fault Flow) (t : Sandbox) :
    (closed (outcome, t)).log.lines
      = t.log.lines ++ ((Record.ofEnd outcome).map Record.line).toArray := by
  cases outcome with
  | ok flow => exact Array.append_empty.symm
  | error fault => exact Array.append_singleton.symm

/-- **The lines of a run are those of its records.** -/
theorem Records.lines (h : s.Records script records) :
    (s.run script).log.lines = s.log.lines ++ (records.map Record.line).toArray := by
  obtain ⟨ms, t, hsteps, hrun⟩ := reaches_run script s
  have hrecords := h.unique ⟨ms, t, hsteps, rfl⟩
  have hprints : t.log.lines = s.log.lines ++ (ms.filterMap Machine.printed?).toArray :=
    hsteps.lines
  rw [hrun, lines_closed, hprints, hrecords, List.map_append, Machine.map_line_filterMap_record?,
    ← List.append_toArray, Array.append_assoc]

end Sandbox

end Lipi
