/-
Panes on a canvas.

A pane is drawn into a rectangle of cells, as rows of exactly its width. Its border
takes a cell on each side, so two rows less than its height are left for the text.
Lines are cut where the border begins.

The source is running text, cut into the stretches of its colours, so characters of
different stretches never share a cell. The lines of an output, and the lines of a
title one after the other, are drawn as lines of their own.
-/
import Lipi.Playground.Drawing
import Lipi.Playground.Row

set_option autoImplicit false

namespace Lipi.Playground

/-- The cells of a rectangle. -/
structure Size where
  width : Nat
  height : Nat
deriving DecidableEq, Repr

/-- The glyphs of a title. -/
def titleGlyphs (title : String) : List Glyph := (Text.lines title).flatMap Glyph.ofLine

/-- The rows of a box with a title around some text. -/
def boxed (size : Size) (title : String) (text : List Row) : List Row :=
  let inner := size.width - 2
  let rule : Row := List.replicate inner ['─']
  let heading := (fitting inner (titleGlyphs title) ++ rule).take inner
  let top := ['┌'] :: heading ++ [['┐']]
  let bottom := ['└'] :: rule ++ [['┘']]
  let body := (text ++ List.replicate (size.height - 2) []).take (size.height - 2)
  ((top :: body.map fun line => ['│'] :: fit inner line ++ [['│']]) ++ [bottom]).take size.height
    |>.map (fit size.width)

/-- A line of its own, behind some free cells. -/
def itemRow (padding room : Nat) (line : List Char) : Row :=
  List.replicate padding blank ++ fitting (room - padding) (Glyph.ofLine line)

/-- The rows of a widget in a rectangle. -/
def Widget.rows (size : Size) : Widget → List Row
  | paragraph block lines =>
    boxed size block.title (lines.map fun spans => running (size.width - 2) (spans.map (·.text)))
  | list block items =>
    boxed size block.title (items.map fun s => itemRow block.padding (size.width - 2) s.text)
  | bar .left stretches =>
    [fit size.width (running size.width (stretches.map String.toList))].take size.height
  | bar .right stretches =>
    [fitRight size.width (running size.width (stretches.map String.toList))].take size.height

end Lipi.Playground
