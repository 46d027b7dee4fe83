/-
Lines of output that report a failure.

The output of a run is text, and the playground looks at the text alone: a line is
taken for a report of a failure if it begins like one. A script may print such a
line itself and is believed.

This is tested in two places, and each has openings of its own to compare with: where
a line is given its colour, and where a run is said to have failed. They are the same
but for their order (`isFailure_eq`).
-/
import Lipi.Playground.Theme
import Lipi.Text.Lines

set_option autoImplicit false

namespace Lipi.Playground

/-- Whether a line begins with one of some openings. -/
def opensWith (openings : List String) (line : List Char) : Bool :=
  openings.any fun words => Text.begins words line

/-! ## The colour of a line -/

/-- How a line begins that is drawn as a report. -/
def complaintOpenings : List String :=
  ["Execution Error:", "Error:", "Tokenization Error:", "Parse Error:"]

/-- Whether a line looks like the report of a failure (`line_style`). -/
def isComplaint (line : List Char) : Bool := opensWith complaintOpenings line

/-- What a line of output is (`line_style`). -/
def lineRole (line : List Char) : Role := if isComplaint line then .complaint else .output

/-! ## The failure of a run -/

/-- How a line begins that makes a run a failure. -/
def failureOpenings : List String :=
  ["Error:", "Execution Error:", "Tokenization Error:", "Parse Error:"]

/-- Whether a line makes a run a failure (`run_source`). -/
def isFailure (line : List Char) : Bool := opensWith failureOpenings line

/-- A run fails with the lines that are drawn as reports. -/
theorem isFailure_eq : isFailure = isComplaint := by
  funext line
  rw [Bool.eq_iff_iff]
  have hsame : ∀ words, words ∈ failureOpenings ↔ words ∈ complaintOpenings := by
    intro words
    simp only [failureOpenings, complaintOpenings, List.mem_cons, List.not_mem_nil]
    exact or_left_comm
  simp only [isFailure, isComplaint, opensWith, List.any_eq_true, hsame]

end Lipi.Playground
