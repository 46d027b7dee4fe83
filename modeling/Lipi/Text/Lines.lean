/-
The lines of a text.

A line ends with a line feed, or with a carriage return and a line feed; neither
belongs to it. What follows the last line feed is a line of its own unless nothing
does, so a text that ends its last line and one that does not have the same lines.
A carriage return anywhere else is a character like others, also at the very end.
-/

set_option autoImplicit false

namespace Lipi.Text

/-- A line whose characters came in reverse, and which a line feed has ended. -/
def endedLine : List Char → List Char
  | '\r' :: rest => rest.reverse
  | reversed => reversed.reverse

/-- The lines of a text, given the beginning of the first in reverse. -/
def linesFrom : (reversed : List Char) → List Char → List (List Char)
  | [], [] => []
  | reversed, [] => [reversed.reverse]
  | reversed, c :: rest =>
    if c = '\n' then endedLine reversed :: linesFrom [] rest else linesFrom (c :: reversed) rest

/-- The lines of a text. -/
def lines (text : String) : List (List Char) := linesFrom [] text.toList

/-- Whether a line begins with given words. -/
def begins (words : String) (line : List Char) : Bool := words.toList.isPrefixOf line

end Lipi.Text
