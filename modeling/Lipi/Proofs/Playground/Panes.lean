/-
What the panes show.

The source pane cuts each line of a text into spans. However the line goes on, with a quote or a
comment that nothing closes or a backslash at its end, each cut takes a character at least and
no character twice, so the cuts come to the end of the line and the spans together are the line
(`highlightLine_whole`). The pane puts a number in front of each line, and that is all that it
adds (`map_flatten_numberedLines`).

Both panes show a window on their lines, and drawing brings a window back within them that keys
have moved out of it (`draw_clamped`). An output that is empty is the exception, for it has no
window: how far it is scrolled stays as it is, and is seen nowhere. Since an offset within the
lines is kept, drawing once is as good as drawing often. None of this depends on what the
playground is drawn with, nor on the areas that it gets for its panes.
-/
import Lipi.Playground.Screen
import Lipi.Proofs.Playground.Marks
import Lipi.Proofs.Playground.Sessions

set_option autoImplicit false

namespace Lipi.Playground

open Text

/-! ## Spans -/

/-- Stretches that each have something make up at least as many characters. -/
theorem length_le_length_flatMap {spans : List Span} (h : ∀ s ∈ spans, s.text ≠ []) :
    spans.length ≤ (spans.flatMap (·.text)).length := by
  induction spans with
  | nil => exact Nat.le_refl 0
  | cons s spans ih =>
    obtain ⟨hs, hrest⟩ := List.forall_mem_cons.mp h
    have hpos : 0 < s.text.length := List.length_pos_iff.mpr hs
    have hle := ih hrest
    rw [List.length_cons, List.flatMap_cons, List.length_append]
    omega

/-- **Colouring a line loses nothing of it.** Whatever the characters of a line are, and whether
it begins in a comment or not, the index that runs over it takes no slice that is not in the
line and gets to the end, in at most as many passes as there are characters. What it finds there
are spans that each have something of the line and together are the line. -/
theorem highlightLine_whole (inComment : Bool) (line : List Char) :
    ∃ spans stillOpen, Scan.scan? inComment line = some (spans, stillOpen)
      ∧ highlightLine inComment line = (spans, stillOpen)
      ∧ spans.length ≤ line.length
      ∧ (∀ s ∈ spans, s.text ≠ [])
      ∧ spans.flatMap (·.text) = line := by
  have hsome := ne_nil_of_mem_cutLine inComment line
  have hwhole := text_cutLine inComment line
  have hsteps := length_le_length_flatMap hsome
  rw [hwhole] at hsteps
  exact ⟨_, _, Scan.scan?_eq inComment line, highlightLine_eq inComment line, hsteps, hsome, hwhole⟩

/-- Consecutive lines are coloured one by one, and none is left out. -/
theorem map_flatMap_highlightLines (inComment : Bool) (text : List (List Char)) :
    (highlightLines inComment text).map (·.flatMap (·.text)) = text := by
  induction text generalizing inComment with
  | nil => rfl
  | cons line text ih => rw [highlightLines, List.map_cons, ih, text_highlightLine]

/-- **The lines of the source pane** are those of the text, each behind its number. -/
theorem map_flatMap_numberedLines (text : String) :
    (numberedLines text).map (·.flatMap (·.text))
      = (lines text).mapIdx fun i line => lineNumber (i + 1) ++ line := by
  apply List.ext_getElem?
  intro i
  have hline : ((highlightLines false (lines text)).map (·.flatMap (·.text)))[i]?
      = (lines text)[i]? := by rw [map_flatMap_highlightLines]
  rw [numberedLines, List.getElem?_map, List.getElem?_mapIdx, List.getElem?_mapIdx, ← hline,
    List.getElem?_map, Option.map_map, Option.map_map]
  rfl

theorem length_numberedLines (text : String) :
    (numberedLines text).length = (lines text).length := by
  have hlength := congrArg List.length (map_flatMap_numberedLines text)
  rwa [List.length_map, List.length_mapIdx] at hlength

/-! ## Scrolling -/

/-- How many lines a pane shows. Its border takes two rows, and a pane too low for that counts as
one with a line. -/
def shownLines (area : Area) : Nat := max (area.height - 2) 1

section Drawing

variable {Frame : Type} (kit : Toolkit Frame) (area : Area) (title text : String) (focused : Bool)
  (scroll : Nat) (frame : Frame)

/-- The source is scrolled no further than its last lines. -/
theorem scroll_renderSource :
    (kit.renderSource area title text focused scroll frame).2
      = clampScroll (lines text).length area.visible scroll := by
  rw [Toolkit.renderSource, length_numberedLines]

theorem renderSource_scroll :
    kit.renderSource area title text focused
        (kit.renderSource area title text focused scroll frame).2 frame
      = kit.renderSource area title text focused scroll frame := by
  unfold Toolkit.renderSource
  dsimp only
  rw [clampScroll_clampScroll]

/-- Nor is an output, if it has something to show. -/
theorem scroll_renderOutput :
    (kit.renderOutput area title text focused scroll frame).2
      = if text = "" then scroll else clampScroll (lines text).length area.visible scroll := by
  unfold Toolkit.renderOutput
  dsimp only
  split <;> rfl

/-- One that has nothing to show looks the same however far it is scrolled. -/
theorem frame_renderOutput :
    (kit.renderOutput area title text focused (if text = "" then 0 else scroll) frame).1
      = (kit.renderOutput area title text focused scroll frame).1 := by
  by_cases h : text = ""
  · rw [if_pos h]
    unfold Toolkit.renderOutput
    rw [if_pos h, if_pos h]
  · rw [if_neg h]

theorem renderOutput_scroll :
    kit.renderOutput area title text focused
        (kit.renderOutput area title text focused scroll frame).2 frame
      = kit.renderOutput area title text focused scroll frame := by
  unfold Toolkit.renderOutput
  dsimp only
  split
  · rfl
  · dsimp only
    rw [clampScroll_clampScroll]

end Drawing

variable {Frame : Type} (kit : Toolkit Frame) (frame : Frame)

/-- A second look shows the same. -/
theorem render_render (p : Playground) :
    (p.render kit frame).1.render kit frame = p.render kit frame := by
  unfold render
  dsimp only
  rw [renderSource_scroll, renderOutput_scroll]

/-- So does any number of looks. -/
theorem render_after (n : Nat) (p : Playground) :
    (p.after kit (List.replicate n (.draw frame))).render kit frame = p.render kit frame := by
  induction n generalizing p with
  | zero => rfl
  | succ n ih => exact (ih (p.render kit frame).1).trans (render_render kit frame p)

/-- **Drawing brings both panes back within their lines.** Whatever has been done before,
whatever the playground is drawn with and whatever areas its panes are given: a text of more lines
than its pane shows is scrolled as far as it was, but not beyond its last lines, and any other
text not at all. Only an output that is empty stays scrolled as it was, and it looks as if it were
not. Once this is done, drawing changes nothing, neither in the playground nor on the screen. -/
theorem draw_clamped (p : Playground) :
    ((p.render kit frame).1.sourceScroll
        = if shownLines (kit.areas frame).source < (lines p.source).length then
            min p.sourceScroll ((lines p.source).length - shownLines (kit.areas frame).source)
          else 0)
      ∧ ((p.render kit frame).1.outputScroll
        = if p.output = "" then p.outputScroll
          else if shownLines (kit.areas frame).output < (lines p.output).length then
            min p.outputScroll ((lines p.output).length - shownLines (kit.areas frame).output)
          else 0)
      ∧ ({ p with outputScroll := if p.output = "" then 0 else p.outputScroll }.render kit frame).2
        = (p.render kit frame).2
      ∧ ∀ n, (p.after kit (List.replicate n (.draw frame))).render kit frame
          = p.render kit frame := by
  refine ⟨?_, ?_, ?_, fun n => render_after kit frame n p⟩
  -- What was drawn before a pane is in the frame, which has no part in how far it is scrolled.
  · exact scroll_renderSource kit _ "Source" p.source (p.focus == .source) p.sourceScroll frame
  · exact scroll_renderOutput kit _ p.view.title p.output (p.focus == .output) p.outputScroll _
  · unfold render
    dsimp only
    rw [frame_renderOutput]

/-- **The exception is real**: where nothing has been run and the output has been scrolled, a
draw leaves it so, here one on a canvas. -/
theorem draw_clamped_unless_empty :
    (lines ((ofSource "" "").after canvas [.press .tab, .press .down]).output).length = 0
      ∧ ((ofSource "" "").after canvas
          [.press .tab, .press .down, .draw (.empty ⟨80, 24⟩)]).outputScroll = 1 := by
  decide +kernel

end Lipi.Playground
