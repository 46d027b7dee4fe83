/-
Layout: what stands between tokens.

Blanks separate tokens and are otherwise nothing; so is a comment, from `//` to the
end of its line or from `/*` to the first `*/` after it. `Layout.front` measures the
layout at the front of a text. Its answer is a number of characters, so that the
text is always the layout followed by what is left; the one way to fail is a
comment that never closes, and then the number says how much layout stands
before its first character.
-/
import Lipi.Text.Blank

set_option autoImplicit false

namespace Lipi

/-- The layout at the front of a text. -/
inductive Layout where
  /-- So many characters of layout, then a token or the end. -/
  | ends (length : Nat)
  /-- So many characters of layout, then a comment that never closes. -/
  | unclosed (length : Nat)
deriving DecidableEq, Repr

namespace Layout

/-- How far the first `*/` of a text reaches, both its characters included, counting on
from a number of characters already passed (`skip_block_comment`). -/
def commentLength? : List Char → Nat → Option Nat
  | [], _ => none
  | '*' :: '/' :: _, passed => some (passed + 2)
  | _ :: rest, passed => commentLength? rest (passed + 1)

/-- Measures the layout at the front of a text, counting on from a number of
characters already passed (`skip_whitespace_and_comments`). -/
def measure (text : List Char) (passed : Nat) : Layout :=
  match text with
  | '/' :: '/' :: rest =>
    let body := rest.takeWhile (· != '\n')
    measure (rest.drop body.length) (passed + 2 + body.length)
  | '/' :: '*' :: rest =>
    match commentLength? rest 0 with
    | some n => measure (rest.drop n) (passed + 2 + n)
    | none => .unclosed passed
  | c :: rest => if Text.isBlank c then measure rest (passed + 1) else .ends passed
  | [] => .ends passed
termination_by text.length
decreasing_by all_goals simp [List.length_drop]; try omega

/-- The layout at the front of a text (`skip_whitespace_and_comments`). -/
def front (text : List Char) : Layout := measure text 0

end Layout

end Lipi
