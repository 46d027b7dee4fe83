/-
The screen of the playground.

A toolkit that draws on a canvas, whose rows are then put on the screen. Shares in
hundredths are rounded to the nearest cell, and the second part of an area gets what the
first has left.
-/
import Lipi.Playground.Pane

set_option autoImplicit false

namespace Lipi.Playground

/-- The cells of a screen, row by row. -/
structure Canvas where
  size : Size
  rows : List Row
deriving DecidableEq, Repr

namespace Canvas

/-- A canvas with nothing on it. -/
def empty (size : Size) : Canvas :=
  ⟨size, List.replicate size.height (List.replicate size.width blank)⟩

/-- Cells in place of those of a row, from a column on. -/
def overwrite (row : Row) (column : Nat) (cells : Row) : Row :=
  row.take column ++ cells ++ row.drop (column + cells.length)

/-- Puts rows into a place on the canvas. -/
def put (area : Area) (rows : List Row) (canvas : Canvas) : Canvas :=
  { canvas with rows := canvas.rows.mapIdx fun i row =>
      if i < area.y then row else
        match rows[i - area.y]? with
        | some cells => overwrite row area.x cells
        | none => row }

/-! ## Sharing -/

/-- A share of a room in hundredths. -/
def share (hundredths room : Nat) : Nat := (room * hundredths + 50) / 100

/-- How much of a room the first of two parts gets. -/
def firstShare : Constraint → Constraint → Nat → Nat
  | .percentage hundredths, _, room => share hundredths room
  | .exactly cells, _, room => min cells room
  | .atLeast cells, .atLeast _, room => min cells room
  | .atLeast _, .exactly cells, room => room - cells
  | .atLeast _, .percentage hundredths, room => room - share hundredths room

/-- Two parts of an area. -/
def split (direction : Direction) (first second : Constraint) (area : Area) : Area × Area :=
  match direction with
  | .horizontal =>
    let width := firstShare first second area.width
    ({ area with width }, { area with x := area.x + width, width := area.width - width })
  | .vertical =>
    let height := firstShare first second area.height
    ({ area with height }, { area with y := area.y + height, height := area.height - height })

end Canvas

/-- Draws on a canvas. -/
def canvas : Toolkit Canvas where
  area c := ⟨0, 0, c.size.width, c.size.height⟩
  split := Canvas.split
  render widget area c := c.put area (widget.rows ⟨area.width, area.height⟩)

/-! ## What is put on the screen -/

/-- A text drawn as rows, and how far it was scrolled. -/
structure Drawn where
  rows : List Row
  scroll : Nat
deriving DecidableEq, Repr

/-- A canvas that has been drawn on with an offset. -/
def Drawn.ofCanvas (drawn : Canvas × Nat) : Drawn := ⟨drawn.1.rows, drawn.2⟩

/-- Draws a source text. -/
def drawSource (size : Size) (title text : String) (scroll : Nat) : Drawn :=
  let frame := Canvas.empty size
  .ofCanvas (canvas.renderSource (canvas.area frame) title text false scroll frame)

/-- Draws an output. -/
def drawOutput (size : Size) (title text : String) (scroll : Nat) : Drawn :=
  let frame := Canvas.empty size
  .ofCanvas (canvas.renderOutput (canvas.area frame) title text false scroll frame)

/-- The row of the status bar. -/
def statusBar (width : Nat) (label message : String) (failed : Bool) (view : View) : Row :=
  let frame := Canvas.empty ⟨width, 1⟩
  (canvas.renderStatus (canvas.area frame) label message failed view frame).rows.flatten

/-- Draws the playground. Only the scroll offsets change. -/
def draw (size : Size) (p : Playground) : Playground × List Row :=
  let (p, frame) := p.render canvas (.empty size)
  (p, frame.rows)

end Lipi.Playground
