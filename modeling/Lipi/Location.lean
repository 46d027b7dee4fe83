/-
Where a character stands in a source text.

A location counts three things at once: how many characters stand before it,
which line it is on, and which column of that line. Only a line feed starts a
new line; every other character, wide or combining or a carriage return, is one
column. Because each step looks at the one character passed over and nothing
else, the location after a stretch of text is a fold over that stretch
(`Location.past`), and stretches compose: passing `a ++ b` is passing `a`, then
`b`. Every location the scanner reports is `start` moved past a piece of the
source, so nothing else in this library ever computes one.
-/

set_option autoImplicit false

namespace Lipi

/-- A place in a source text (`SourceLocation`): characters before it (from 0), line and
column (each from 1). -/
structure Location where
  offset : Nat
  line : Nat
  column : Nat
deriving DecidableEq, Repr, Inhabited

namespace Location

/-- The first character of a text. -/
def start : Location := ⟨0, 1, 1⟩

/-- The place that stands for no place at all: what an empty stretch of tokens
reports when there is no token to point at. -/
def nowhere : Location := ⟨0, 0, 0⟩

/-- The location one character further on. -/
def next (l : Location) (c : Char) : Location :=
  if c = '\n' then ⟨l.offset + 1, l.line + 1, 1⟩ else ⟨l.offset + 1, l.line, l.column + 1⟩

/-- The location after a stretch of text. -/
def past (l : Location) (text : List Char) : Location :=
  text.foldl next l

@[simp] theorem past_nil (l : Location) : l.past [] = l := rfl

@[simp] theorem past_cons (l : Location) (c : Char) (text : List Char) :
    l.past (c :: text) = (l.next c).past text := rfl

/-- Stretches compose. -/
theorem past_append (l : Location) (a b : List Char) : l.past (a ++ b) = (l.past a).past b :=
  List.foldl_append

/-- The offset counts characters, whatever they are. -/
theorem offset_past (l : Location) (text : List Char) :
    (l.past text).offset = l.offset + text.length := by
  induction text generalizing l with
  | nil => rfl
  | cons c text ih =>
    rw [past_cons, ih]
    by_cases h : c = '\n' <;> simp [next, h] <;> omega

end Location

end Lipi
