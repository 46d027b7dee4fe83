/-
Sandboxes: where a script runs.

A sandbox holds everything a run can change: what names stand for, what has been
printed, where in the source the work is, and the journal. Running a script leaves
the sandbox ready for the next one, with the names of its outermost scope and all
its lines still there. Activities are computations on a sandbox that may end in a
fault; a fault loses nothing that happened before it.
-/
import Lipi.Expr.Evaluation
import Lipi.Journal
import Lipi.OutputLog

set_option autoImplicit false

namespace Lipi

/-- The state of a run (`Sandbox`). -/
structure Sandbox where
  environment : Environment
  log : OutputLog
  place : Location
  journal : Journal
deriving Repr

/-- A computation on a sandbox that may end in a fault. -/
abbrev Activity (α : Type) := ExceptT Fault (StateM Sandbox) α

namespace Sandbox

/-- A sandbox in which nothing has happened. -/
def fresh : Sandbox := ⟨.empty, .empty, .nowhere, #[]⟩

instance : Inhabited Sandbox := ⟨fresh⟩

/-- Adds a line to the log. -/
def print (line : String) (s : Sandbox) : Sandbox := { s with log := s.log.push line }

/-- Adds an entry to the journal. -/
def note (entry : Journal.Entry) (s : Sandbox) : Sandbox :=
  { s with journal := s.journal.push entry }

/-- Moves to a place (`current_location`). -/
def moveTo (place : Location) (s : Sandbox) : Sandbox := { s with place }

/-- Enters a scope. -/
def enter (s : Sandbox) : Sandbox := { s with environment := s.environment.push }

/-- Leaves a scope. -/
def leave (s : Sandbox) : Sandbox := { s with environment := s.environment.pop }

end Sandbox

namespace Activity

/-- An activity that only changes the sandbox. -/
def change (f : Sandbox → Sandbox) : Activity Unit := fun s => (.ok (), f s)

/-- An evaluation in the sandbox's environment. -/
def evaluation {α : Type} (e : Evaluation α) : Activity α := fun s =>
  let (outcome, environment) := e s.environment
  (outcome, { s with environment })

/-- An activity whose fault is handed on as an outcome. -/
def outcome {α : Type} (a : Activity α) : Activity (Except Fault α) := fun s =>
  let (outcome, s) := a s
  (.ok outcome, s)

/-- An activity inside a scope of its own, which is left however the activity ends
(`execute_block`). -/
def inScope {α : Type} (a : Activity α) : Activity α := fun s =>
  let (outcome, s) := a s.enter
  (outcome, s.leave)

/-- Declares a name in the innermost scope. -/
def declare (name : String) (b : Binding) : Activity Unit := fun s =>
  match s.environment.declare name b with
  | .ok environment => (.ok (), { s with environment })
  | .error fault => (.error fault, s)

end Activity

end Lipi
