/-
What a script has printed.

A log is its lines, each the work of one print or of the fault that ended the run.
A line may contain line feeds of its own: the text of a log joins the lines and
does not remember where they met.
-/
import Lipi.Fault
import Lipi.Value.Written

set_option autoImplicit false

namespace Lipi

/-- The lines of a log, the oldest first (`OutputLog`). -/
structure OutputLog where
  lines : Array String
deriving Repr

namespace OutputLog

/-- A log before anything is printed. -/
def empty : OutputLog := ⟨#[]⟩

instance : Inhabited OutputLog := ⟨empty⟩

/-- Adds a line (`push`). -/
def push (log : OutputLog) (line : String) : OutputLog := ⟨log.lines.push line⟩

/-- The line of a print: its values with single blanks between them, or the fault
that came up in one of them. -/
def captureLine : Except Fault (List Value) → String
  | .ok values => " ".intercalate (values.map Value.written)
  | .error fault => fault.recoveredLine

/-- Adds the line of a print (`capture`). -/
def capture (log : OutputLog) (outcome : Except Fault (List Value)) : OutputLog :=
  log.push (captureLine outcome)

/-- The lines with line feeds between them (`into_text`). -/
def text (log : OutputLog) : String := "\n".intercalate log.lines.toList

end OutputLog

end Lipi
