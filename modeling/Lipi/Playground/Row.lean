/-
Rows of cells.

The screen is made of cells. A glyph is a cluster of characters that takes one cell or
more; it is kept in its first cell, and blanks stand in the others. A row is filled
from the left with the glyphs that fit, and the first one that does not fit ends it, so
half a glyph is never shown.

What takes no cell is not a glyph. In running text it is left out. On a line of its own
it is kept with the glyph before it, if that has one cell, and what comes before any
glyph with the first one.
-/
import Lipi.Text.Cluster
import Lipi.Text.Width

set_option autoImplicit false

namespace Lipi.Playground

/-- What one cell shows. -/
abbrev Cell := List Char

/-- The cells of a row, from the left. -/
abbrev Row := List Cell

/-- The cell that shows nothing. -/
def blank : Cell := [' ']

/-- A row as it is read. -/
def Row.text (row : Row) : String := String.ofList row.flatten

/-- Characters that are drawn as one. -/
structure Glyph where
  text : List Char
  width : Nat
  width_pos : 0 < width
deriving DecidableEq, Repr

namespace Glyph

/-- A cluster as a glyph, if it takes a cell. -/
def ofCluster? (k : List Char) : Option Glyph :=
  if h : 0 < Text.width k then some ⟨k, Text.width k, h⟩ else none

/-- The cells of a glyph. -/
def cells (g : Glyph) : Row := g.text :: List.replicate (g.width - 1) blank

theorem length_cells (g : Glyph) : g.cells.length = g.width := by
  have := g.width_pos
  rw [cells, List.length_cons, List.length_replicate]
  omega

/-- A glyph of one cell with marks on it. A wider one has no place for them. -/
def marked (g : Glyph) (marks : List Char) : Glyph :=
  if g.width = 1 then { g with text := g.text ++ marks } else g

/-! ## Running text -/

/-- The glyphs of a stretch of running text, which has no line feeds. -/
def ofText (text : List Char) : List Glyph :=
  (Text.clusters text).filterMap fun k => if k = ['\n'] then none else ofCluster? k

/-! ## A line of its own -/

/-- The characters before the first glyph of some clusters, and the glyphs. -/
def collect : List (List Char) → List Char × List Glyph
  | [] => ([], [])
  | k :: rest =>
    let (marks, glyphs) := collect rest
    match ofCluster? k with
    | none => (k ++ marks, glyphs)
    | some g => ([], g.marked marks :: glyphs)

/-- The glyphs of a line of its own. -/
def ofLine (line : List Char) : List Glyph :=
  match collect (Text.clusters line) with
  | (_, []) => []
  | (ahead, g :: rest) => { g with text := ahead ++ g.text } :: rest

end Glyph

/-! ## Filling rows -/

/-- The cells of the glyphs that fit into some room. -/
def fitting : (room : Nat) → List Glyph → Row
  | _, [] => []
  | room, g :: rest =>
    if g.width ≤ room then g.cells ++ fitting (room - g.width) rest else []

/-- Glyphs never take more room than there is. -/
theorem length_fitting_le (room : Nat) (glyphs : List Glyph) :
    (fitting room glyphs).length ≤ room := by
  fun_induction fitting room glyphs with
  | case1 => exact Nat.zero_le _
  | case2 room g rest fits ih =>
    rw [List.length_append, g.length_cells]
    omega
  | case3 => exact Nat.zero_le _

/-- A row of a given width with some cells at its left end. -/
def fit (width : Nat) (cells : Row) : Row :=
  cells.take width ++ List.replicate (width - cells.length) blank

/-- A row of a given width with some cells at its right end. -/
def fitRight (width : Nat) (cells : Row) : Row :=
  List.replicate (width - cells.length) blank ++ cells.take width

theorem length_fit (width : Nat) (cells : Row) : (fit width cells).length = width := by
  rw [fit, List.length_append, List.length_take, List.length_replicate]
  omega

theorem length_fitRight (width : Nat) (cells : Row) :
    (fitRight width cells).length = width := by
  rw [fitRight, List.length_append, List.length_take, List.length_replicate]
  omega

/-- Running text in some room. Glyphs wider than all of it are left out. -/
def running (room : Nat) (stretches : List (List Char)) : Row :=
  fitting room ((stretches.flatMap Glyph.ofText).filter (·.width ≤ room))

end Lipi.Playground
