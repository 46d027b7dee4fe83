/-
Colouring a source text line by line.

A line is coloured by running an index over it (`Highlight.Scan`), which always gets to its
end; the spans are those that the line is cut into (`Highlight.Cut`), and theorems look at
those. All that one line tells the next is whether a block comment is still open.
-/
import Lipi.Playground.Highlight.Scan

set_option autoImplicit false

namespace Lipi.Playground

/-- No line is refused: every slice of it that is taken is there. -/
theorem isSome_scan? (inComment : Bool) (line : List Char) :
    (Scan.scan? inComment line).isSome = true := by
  rw [Scan.scan?_eq, Option.isSome_some]

/-- The spans of a line, and whether a block comment is open at its end
(`highlight_line`). -/
def highlightLine (inComment : Bool) (line : List Char) : List Span × Bool :=
  (Scan.scan? inComment line).get (isSome_scan? inComment line)

theorem highlightLine_eq (inComment : Bool) (line : List Char) :
    highlightLine inComment line = cutLine inComment line := by
  rw [highlightLine, Option.get_of_eq_some _ (Scan.scan?_eq inComment line)]

/-- The spans of consecutive lines. -/
def highlightLines (inComment : Bool) : List (List Char) → List (List Span)
  | [] => []
  | line :: rest =>
    let (spans, inComment) := highlightLine inComment line
    spans :: highlightLines inComment rest

end Lipi.Playground
