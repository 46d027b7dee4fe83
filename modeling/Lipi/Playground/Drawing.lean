/-
Drawing the playground.

What the playground shows is handed to a toolkit that knows screens: it shares an area between
two parts, and shows a widget in an area of a frame. What it does with them is its own affair.
What is decided here is what each part of the screen gets to show, and how far the panes are
scrolled, which depends on no more of an area than its height: the border of a pane takes a row
at the top and one at the bottom, and a pane too low for that is scrolled as if it showed a line.
Scrolling stops where the last line of a text reaches the last row, and a text that fits is not
scrolled at all.

Each pane brings its own offset back within its text before it shows it. An output that is empty
has nothing to scroll, and keeps its offset.
-/
import Lipi.Playground
import Lipi.Playground.Highlight
import Lipi.Text.Padding

set_option autoImplicit false

namespace Lipi.Playground

/-! ## What a toolkit is told -/

/-- A rectangle of cells. -/
structure Area where
  x : Nat
  y : Nat
  width : Nat
  height : Nat
deriving DecidableEq, Repr

/-- Whether parts stand beside each other or below each other. -/
inductive Direction where
  | horizontal
  | vertical
deriving DecidableEq, Repr

/-- How much of an area a part of it takes. -/
inductive Constraint where
  | atLeast (cells : Nat)
  | exactly (cells : Nat)
  | percentage (hundredths : Nat)
deriving DecidableEq, Repr

inductive Alignment where
  | left
  | right
deriving DecidableEq, Repr

/-- The border of a pane. -/
structure Block where
  title : String
  /-- Whether it is drawn as that of the pane in focus. -/
  focused : Bool
  /-- How many cells are kept free at its left. -/
  padding : Nat
deriving DecidableEq, Repr

/-- Something that can be shown. -/
inductive Widget where
  /-- Lines of running text in a border. -/
  | paragraph (block : Block) (lines : List (List Span))
  /-- Items in a border, each on a line of its own. -/
  | list (block : Block) (items : List Span)
  /-- A line of running text without a border. Its colours are left out. -/
  | bar (alignment : Alignment) (stretches : List String)
deriving DecidableEq, Repr

/-- What the playground is drawn with. -/
structure Toolkit (Frame : Type) where
  /-- The area of a frame. -/
  area : Frame → Area
  /-- Shares an area between two parts. -/
  split : Direction → Constraint → Constraint → Area → Area × Area
  /-- Shows a widget in an area of a frame. -/
  render : Widget → Area → Frame → Frame

/-! ## Scrolling -/

/-- How many lines of text a pane shows (`visible_height`, in either pane). -/
def Area.visible (area : Area) : Nat := max (area.height - 2) 1

/-- An offset brought back within a number of lines. Each pane does this for itself, and in the
same way: `render_source_pane` always, `render_output_pane` for a text that is not empty. -/
def clampScroll (lines visible scroll : Nat) : Nat :=
  if visible < lines then min scroll (lines - visible) else 0

/-- A second look changes nothing. -/
theorem clampScroll_clampScroll (lines visible scroll : Nat) :
    clampScroll lines visible (clampScroll lines visible scroll) =
      clampScroll lines visible scroll := by
  unfold clampScroll
  split <;> omega

/-! ## The two panes -/

/-- The number of a line, right-aligned in four cells, and a blank. -/
def lineNumber (n : Nat) : List Char := Text.padLeft 4 (toString n).toList ++ [' ']

/-- The lines of a source text with their numbers. All of them are coloured, also those
that are not shown, because a comment may reach over them. -/
def numberedLines (text : String) : List (List Span) :=
  (highlightLines false (Text.lines text)).mapIdx fun i spans =>
    ⟨lineNumber (i + 1), .comment⟩ :: spans

section Rendering

variable {Frame : Type} (kit : Toolkit Frame)

/-- Draws a source text, and brings its offset back within it (`render_source_pane`). -/
def Toolkit.renderSource (area : Area) (title text : String) (focused : Bool) (scroll : Nat)
    (frame : Frame) : Frame × Nat :=
  let block : Block := ⟨" " ++ title ++ " ", focused, 0⟩
  let lines := numberedLines text
  let scroll := clampScroll lines.length area.visible scroll
  let shown := (lines.drop scroll).take area.visible
  (kit.render (.paragraph block shown) area frame, scroll)

/-- Draws an output, and brings its offset back within it (`render_output_pane`). One that is
empty says so, and its offset is not looked at. -/
def Toolkit.renderOutput (area : Area) (title text : String) (focused : Bool) (scroll : Nat)
    (frame : Frame) : Frame × Nat :=
  let block : Block := ⟨" " ++ title ++ " ", focused, 0⟩
  if text = "" then
    (kit.render (.paragraph block [[⟨"(no output)".toList, .comment⟩]]) area frame, scroll)
  else
    let block := { block with padding := 1 }
    let lines := Text.lines text
    let scroll := clampScroll lines.length area.visible scroll
    let shown := (lines.drop scroll).take area.visible
    (kit.render (.list block (shown.map fun line => ⟨line, lineRole line⟩)) area frame, scroll)

/-! ## The status bar -/

/-- What is loaded and what is to be said about it. -/
def statusStretches (label message : String) : List String :=
  [" " ++ label ++ " ", " | ", " " ++ message ++ " "]

/-- The keys, and what the output shows unless it is the log of a failure. -/
def keyStretches (failed : Bool) (view : View) : List String :=
  let keys := [" r ", " run ", "│", " ", " e ", " listing ", "│", " ", " n/p ", " sample ", "│",
    " ", " ⇥ ", " focus ", "│", " ", " q ", " quit "]
  let shown := match view, failed with
    | .listing, _ => ["│", " LISTING "]
    | .log, false => ["│", " LOG "]
    | .log, true => []
  keys ++ shown

/-- Draws the status bar (`render_status_bar`). -/
def Toolkit.renderStatus (area : Area) (label message : String) (failed : Bool) (view : View)
    (frame : Frame) : Frame :=
  let (left, right) := kit.split .horizontal (.percentage 45) (.percentage 55) area
  let frame := kit.render (.bar .left (statusStretches label message)) left frame
  kit.render (.bar .right (keyStretches failed view)) right frame

/-! ## The whole screen -/

/-- The parts of the screen. -/
structure Areas where
  source : Area
  output : Area
  status : Area
deriving DecidableEq, Repr

/-- The title of the output pane. -/
def View.title : View → String
  | log => "Output"
  | listing => "Translated Listing"

/-- The lowest row of a frame is the status bar, and the panes share what is above it. -/
def Toolkit.areas (frame : Frame) : Areas :=
  let (panes, status) := kit.split .vertical (.atLeast 0) (.exactly 1) (kit.area frame)
  let (source, output) := kit.split .horizontal (.percentage 55) (.percentage 45) panes
  ⟨source, output, status⟩

/-- Draws the playground (`render`). Of the playground only the offsets change. -/
def render (p : Playground) (frame : Frame) : Playground × Frame :=
  let areas := kit.areas frame
  let (frame, sourceScroll) :=
    kit.renderSource areas.source "Source" p.source (p.focus == .source) p.sourceScroll frame
  let (frame, outputScroll) :=
    kit.renderOutput areas.output p.view.title p.output (p.focus == .output) p.outputScroll frame
  let frame := kit.renderStatus areas.status p.label p.status.text p.failed p.view frame
  ({ p with sourceScroll, outputScroll }, frame)

end Rendering

end Lipi.Playground
