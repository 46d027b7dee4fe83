/-
Texts put one below the other.

A log joins its texts with line feeds and forgets where they met, for each of them may have
line feeds of its own. Something is still known of the lines of the whole. A line feed ends a
line wherever it comes from, and takes nothing but a carriage return off its end. So if a test
does not look at that (`BlindToEnd`), a line of the whole passes it exactly if a line of one of the
texts does (`any_lines_intercalate`).

With a line feed after the last of them the texts are ended one by one, as long as there is one
(`intercalate_append_lineFeed`). That the whole is empty says less: it is if there is no text,
and if there is an empty one alone (`intercalate_lineFeed_eq_empty_iff`).
-/
import Lipi.Proofs.Text.OneLine

set_option autoImplicit false

namespace Lipi.Text

/-! ## Lines -/

/-- A test of lines that an empty one does not pass, and that does not look at a carriage return
at the end. -/
structure BlindToEnd (test : List Char → Bool) : Prop where
  nil : test [] = false
  carriageReturn : ∀ line, test (line ++ ['\r']) = test line

variable {test : List Char → Bool}

/-- A line that is ended passes the test if it would at the end of a text. -/
theorem BlindToEnd.endedLine (h : BlindToEnd test) (reversed : List Char) :
    test (endedLine reversed) = (linesFrom reversed []).any test := by
  cases reversed with
  | nil => exact h.nil
  | cons c reversed =>
    rw [linesFrom, List.any_cons, List.any_nil, Bool.or_false]
    · unfold Text.endedLine
      split
      · next rest heq =>
        cases heq
        rw [List.reverse_cons, h.carriageReturn]
      · rfl
    · exact List.cons_ne_nil c reversed

/-- **The lines on both sides of a line feed**, by induction on what stands before it. -/
theorem BlindToEnd.any_linesFrom (h : BlindToEnd test) (reversed a b : List Char) :
    (linesFrom reversed (a ++ '\n' :: b)).any test
      = ((linesFrom reversed a).any test || (linesFrom [] b).any test) := by
  induction a generalizing reversed with
  | nil => rw [List.nil_append, linesFrom_cons, if_pos rfl, List.any_cons, h.endedLine]
  | cons c a ih =>
    rw [List.cons_append, linesFrom_cons, linesFrom_cons]
    by_cases hc : c = '\n'
    · rw [if_pos hc, if_pos hc, List.any_cons, List.any_cons, ih, Bool.or_assoc]
    · rw [if_neg hc, if_neg hc, ih]

/-- **A line of the whole passes the test if a line of one of the texts does.** -/
theorem BlindToEnd.any_lines_intercalate (h : BlindToEnd test) (texts : List String) :
    (lines ("\n".intercalate texts)).any test
      = texts.any fun text => (lines text).any test := by
  induction texts with
  | nil => rw [String.intercalate_nil]; rfl
  | cons text texts ih =>
    cases texts with
    | nil => rw [String.intercalate_singleton, List.any_cons, List.any_nil, Bool.or_false]
    | cons next texts =>
      have hlines : lines ("\n".intercalate (text :: next :: texts))
          = linesFrom [] (text.toList ++ '\n' :: ("\n".intercalate (next :: texts)).toList) := by
        rw [String.intercalate_cons_cons, lines, String.toList_append, String.toList_append,
          List.append_assoc]
        rfl
      rw [hlines, h.any_linesFrom, List.any_cons, ← ih]
      rfl

/-! ## The whole -/

/-- With a line feed after the last, each text is ended by one. -/
theorem intercalate_append_lineFeed {texts : List String} (h : texts ≠ []) :
    "\n".intercalate texts ++ "\n" = String.join (texts.map (· ++ "\n")) := by
  induction texts with
  | nil => exact absurd rfl h
  | cons text texts ih =>
    rw [List.map_cons, String.join_cons]
    cases texts with
    | nil => rw [String.intercalate_singleton, List.map_nil, String.join_nil, String.append_empty]
    | cons next texts =>
      rw [String.intercalate_cons_cons, String.append_assoc, ih (List.cons_ne_nil next texts)]

/-- Texts that make up nothing. -/
theorem intercalate_lineFeed_eq_empty_iff {texts : List String} :
    "\n".intercalate texts = "" ↔ texts = [] ∨ texts = [""] := by
  match texts with
  | [] => exact iff_of_true String.intercalate_nil (.inl rfl)
  | [text] =>
    rw [String.intercalate_singleton]
    simp
  | text :: next :: texts =>
    -- There is a line feed between two texts.
    refine iff_of_false ?_ (by simp)
    rw [String.intercalate_cons_cons]
    simp

end Lipi.Text
