/-
What is drawn where.

The playground colours a source line by line. To compare this with a scanner, which knows no
lines, everything that is drawn gets the offset in the source of its first character:
`Playground.marks` has, in order, where each line begins and whether that is taken to be inside
a comment, and the spans that are drawn of it. There is one beginning for each line of the text
(`lines_marks`), the spans are those of the lines, coloured one after the other (`spans_marks`),
and each stands in the source where it is said to (`prefix_of_mem_marks`).

Between two spans the rest of the source can be looked at alone: it is drawn as if a line began
there, in the same state (`paint`). A piece of a line in front of a rest is drawn as a span of
its own, if the line is cut where the piece ends whatever the rest is (`paint_span`). Only a
carriage return has to be watched, because in front of a line feed it is not drawn.
-/
import Lipi.Playground.Highlight
import Lipi.Proofs.Text.OneLine
import Lipi.Proofs.Token.Spacing
import Lipi.Text.Lines

set_option autoImplicit false

namespace Lipi

namespace Playground

open Text

/-! ## Offsets -/

/-- The lines of a text with the offsets at which they begin, given the offset and the beginning
of the first in reverse. -/
def placedFrom (start : Nat) : (reversed : List Char) → List Char → List (Nat × List Char)
  | [], [] => []
  | reversed, [] => [(start, reversed.reverse)]
  | reversed, c :: rest =>
    if c = '\n' then
      (start, endedLine reversed) :: placedFrom (start + reversed.length + 1) [] rest
    else placedFrom start (c :: reversed) rest

/-- The lines of a source with the offsets at which they begin. -/
def placedLines (source : String) : List (Nat × List Char) := placedFrom 0 [] source.toList

/-- Something that is drawn: the beginning of a line, in a comment or not, or a span. -/
inductive Mark where
  | line (inComment : Bool)
  | span (s : Span)
deriving DecidableEq, Repr

/-- The span that is drawn, unless a line begins. -/
def Mark.span? : Mark → Option Span
  | line _ => none
  | span s => some s

/-- Spans one behind the other, from an offset on. -/
def placeSpans (offset : Nat) : List Span → List (Nat × Mark)
  | [] => []
  | s :: rest => (offset, .span s) :: placeSpans (offset + s.text.length) rest

/-- What is drawn of consecutive lines, the first of which begins in a comment or not. -/
def marksOf (inComment : Bool) : List (Nat × List Char) → List (Nat × Mark)
  | [] => []
  | (offset, line) :: rest =>
    let (spans, inComment') := highlightLine inComment line
    (offset, .line inComment) :: (placeSpans offset spans ++ marksOf inComment' rest)

/-- What is drawn of a source. -/
def marks (source : String) : List (Nat × Mark) := marksOf false (placedLines source)

theorem placedFrom_cons (start : Nat) (reversed : List Char) (c : Char) (rest : List Char) :
    placedFrom start reversed (c :: rest)
      = if c = '\n' then
          (start, endedLine reversed) :: placedFrom (start + reversed.length + 1) [] rest
        else placedFrom start (c :: reversed) rest := by
  cases reversed <;> rfl

theorem placedFrom_end (start : Nat) (reversed : List Char) :
    placedFrom start reversed []
      = if reversed = [] then [] else [(start, reversed.reverse)] := by
  cases reversed with
  | nil => rfl
  | cons c reversed =>
    rw [if_neg (List.cons_ne_nil c reversed)]
    rfl

theorem map_snd_placedFrom (start : Nat) (reversed text : List Char) :
    (placedFrom start reversed text).map Prod.snd = linesFrom reversed text := by
  induction text generalizing start reversed with
  | nil => cases reversed <;> rfl
  | cons c text ih =>
    rw [placedFrom_cons, linesFrom_cons]
    by_cases hc : c = '\n'
    · rw [if_pos hc, if_pos hc, List.map_cons, ih]
    · rw [if_neg hc, if_neg hc, ih]

/-- They are the lines of the source. -/
theorem placedLines_eq (source : String) : (placedLines source).map Prod.snd = lines source :=
  map_snd_placedFrom 0 [] source.toList

/-! ## Spans -/

@[simp]
theorem highlightLine_nil (inComment : Bool) : highlightLine inComment [] = ([], inComment) := by
  rw [highlightLine_eq, cutLine]

/-- What is cut off the front of a line is its first span. -/
theorem highlightLine_of_cut {b b' : Bool} {c : Char} {rest line text : List Char} {role : Role}
    (h : cut b c rest = ⟨text, role, line, b'⟩) :
    highlightLine b (c :: rest)
      = (⟨text, role⟩ :: (highlightLine b' line).1, (highlightLine b' line).2) := by
  rw [highlightLine_eq, highlightLine_eq, cutLine, h]

/-- The spans of a line are the line. -/
theorem text_highlightLine (inComment : Bool) (line : List Char) :
    (highlightLine inComment line).1.flatMap (·.text) = line := by
  rw [highlightLine_eq]
  exact text_cutLine inComment line

/-- What is placed is one of the spans, behind those before it. -/
theorem exists_of_mem_placeSpans {offset : Nat} {spans : List Span} {m : Nat × Mark}
    (h : m ∈ placeSpans offset spans) :
    ∃ before s after, spans = before ++ s :: after
      ∧ m = (offset + (before.flatMap (·.text)).length, .span s) := by
  induction spans generalizing offset with
  | nil => cases h
  | cons t spans ih =>
    rw [placeSpans, List.mem_cons] at h
    rcases h with heq | h
    · exact ⟨[], t, spans, rfl, heq⟩
    · obtain ⟨before, s, after, hspans, hm⟩ := ih h
      refine ⟨t :: before, s, after, ?_, ?_⟩
      · rw [hspans, List.cons_append]
      · rw [hm, List.flatMap_cons, List.length_append, Nat.add_assoc]

theorem filterMap_placeSpans (offset : Nat) (spans : List Span) :
    (placeSpans offset spans).filterMap (·.2.span?) = spans := by
  induction spans generalizing offset with
  | nil => rfl
  | cons s spans ih =>
    rw [placeSpans, List.filterMap_cons, ih]
    rfl

theorem filterMap_marksOf (inComment : Bool) (placed : List (Nat × List Char)) :
    (marksOf inComment placed).filterMap (·.2.span?)
      = (highlightLines inComment (placed.map Prod.snd)).flatten := by
  induction placed generalizing inComment with
  | nil => rfl
  | cons p placed ih =>
    rw [marksOf, List.filterMap_cons, List.filterMap_append, filterMap_placeSpans, ih]
    rfl

/-- **The spans that are drawn** are those of the lines, coloured one after the other. -/
theorem spans_marks (source : String) :
    (marks source).filterMap (·.2.span?) = (highlightLines false (lines source)).flatten := by
  rw [marks, filterMap_marksOf, placedLines_eq]

theorem filter_marksOf (inComment : Bool) (placed : List (Nat × List Char)) :
    ((marksOf inComment placed).filter (·.2.span?.isNone)).map Prod.fst
      = placed.map Prod.fst := by
  induction placed generalizing inComment with
  | nil => rfl
  | cons p placed ih =>
    have hspans : (placeSpans p.1 (highlightLine inComment p.2).1).filter (·.2.span?.isNone)
        = [] := by
      rw [List.filter_eq_nil_iff]
      intro m hm
      obtain ⟨before, s, after, -, rfl⟩ := exists_of_mem_placeSpans hm
      exact Bool.false_ne_true
    rw [marksOf, List.filter_cons_of_pos rfl, List.filter_append, hspans, List.nil_append,
      List.map_cons, ih]
    rfl

/-- A beginning is drawn of every line, and of nothing else. -/
theorem lines_marks (source : String) :
    ((marks source).filter (·.2.span?.isNone)).map Prod.fst
      = (placedLines source).map Prod.fst :=
  filter_marksOf false (placedLines source)

/-! ## The ends of lines -/

/-- A line that does not end with a carriage return loses nothing. -/
theorem endedLine_reverse {line : List Char} (h : line.getLast? ≠ some '\r') :
    endedLine line.reverse = line := by
  rw [← List.head?_reverse] at h
  unfold endedLine
  split
  · next rest hreversed =>
    rw [hreversed] at h
    exact absurd rfl h
  · exact List.reverse_reverse line

/-- A line that does loses it. -/
theorem endedLine_concat (line : List Char) : endedLine (line ++ ['\r']).reverse = line := by
  rw [List.reverse_append]
  exact List.reverse_reverse line

/-- What is lost of a line is lost of what stands last in it. -/
theorem endedLine_append {a b : List Char} (h : b = [] → a.getLast? ≠ some '\r') :
    endedLine (a ++ b).reverse = a ++ endedLine b.reverse := by
  by_cases hlast : b.getLast? = some '\r'
  · obtain ⟨front, rfl⟩ := List.getLast?_eq_some_iff.mp hlast
    rw [← List.append_assoc, endedLine_concat, endedLine_concat]
  · rw [endedLine_reverse hlast, endedLine_reverse]
    rw [List.getLast?_append]
    cases hb : b.getLast? with
    | none => exact h (List.getLast?_eq_none_iff.mp hb)
    | some c =>
      rw [hb] at hlast
      exact hlast

/-- What is left of a line begins it. -/
theorem endedLine_begins (line : List Char) : endedLine line.reverse <+: line := by
  by_cases hlast : line.getLast? = some '\r'
  · obtain ⟨front, rfl⟩ := List.getLast?_eq_some_iff.mp hlast
    rw [endedLine_concat]
    exact List.prefix_append _ _
  · refine ⟨[], ?_⟩
    rw [endedLine_reverse hlast, List.append_nil]

/-! ## Where things stand -/

/-- A line stands where it is said to. -/
theorem prefix_of_mem_placedFrom {start : Nat} {reversed text : List Char} {o : Nat}
    {line : List Char} (h : (o, line) ∈ placedFrom start reversed text) :
    start ≤ o ∧ line <+: (reversed.reverse ++ text).drop (o - start) := by
  induction text generalizing start reversed with
  | nil =>
    rw [placedFrom_end] at h
    split at h
    · cases h
    · cases List.mem_singleton.mp h
      rw [Nat.sub_self, List.drop_zero, List.append_nil]
      exact ⟨Nat.le_refl _, List.prefix_refl _⟩
  | cons c text ih =>
    rw [placedFrom_cons] at h
    by_cases hc : c = '\n'
    · rw [if_pos hc, List.mem_cons] at h
      rcases h with heq | h
      · cases heq
        have hended := endedLine_begins reversed.reverse
        rw [List.reverse_reverse] at hended
        rw [Nat.sub_self, List.drop_zero]
        exact ⟨Nat.le_refl _, hended.trans (List.prefix_append _ _)⟩
      · obtain ⟨hle, hline⟩ := ih h
        -- The line feed and what stands before it are dropped first.
        have hdrop : o - start
            = reversed.reverse.length + (1 + (o - (start + reversed.length + 1))) := by
          rw [List.length_reverse]
          omega
        rw [hdrop, List.drop_length_add_append, ← List.drop_drop]
        exact ⟨by omega, hline⟩
    · rw [if_neg hc] at h
      obtain ⟨hle, hline⟩ := ih h
      rw [List.reverse_cons, List.append_assoc] at hline
      exact ⟨hle, hline⟩

/-- A span belongs to a line. -/
theorem exists_of_mem_marksOf {b : Bool} {placed : List (Nat × List Char)} {x : Nat} {s : Span}
    (h : (x, .span s) ∈ marksOf b placed) :
    ∃ o line b', (o, line) ∈ placed
      ∧ (x, .span s) ∈ placeSpans o (highlightLine b' line).1 := by
  induction placed generalizing b with
  | nil => cases h
  | cons p placed ih =>
    rw [marksOf, List.mem_cons, List.mem_append] at h
    rcases h with heq | h | h
    · cases heq
    · exact ⟨p.1, p.2, b, List.mem_cons_self .., h⟩
    · obtain ⟨o, line, b', hline, hspan⟩ := ih h
      exact ⟨o, line, b', List.mem_cons_of_mem _ hline, hspan⟩

/-- **What is drawn stands in the source**, at the offset that it is given. -/
theorem prefix_of_mem_marks {source : String} {x : Nat} {s : Span}
    (h : (x, .span s) ∈ marks source) : s.text <+: source.toList.drop x := by
  obtain ⟨o, line, b, hline, hspan⟩ := exists_of_mem_marksOf h
  obtain ⟨-, more, hmore⟩ := prefix_of_mem_placedFrom hline
  obtain ⟨before, t, after, hspans, hm⟩ := exists_of_mem_placeSpans hspan
  cases hm
  rw [List.reverse_nil, List.nil_append, Nat.sub_zero] at hmore
  -- In front of the span stand the spans before it, and in front of these the lines before.
  have htext := text_highlightLine b line
  rw [hspans, List.flatMap_append, List.flatMap_cons] at htext
  rw [← List.drop_drop, ← hmore, ← htext, List.append_assoc, List.drop_left, List.append_assoc]
  exact List.prefix_append _ _

/-! ## The rest of a source -/

theorem placedFrom_append {line : List Char} (h : '\n' ∉ line) (start : Nat)
    (reversed text : List Char) :
    placedFrom start reversed (line ++ text)
      = placedFrom start (line.reverse ++ reversed) text := by
  induction line generalizing reversed with
  | nil => rfl
  | cons c line ih =>
    rw [List.mem_cons, not_or] at h
    rw [List.cons_append, placedFrom_cons, if_neg (Ne.symm h.1), ih h.2, List.reverse_cons,
      List.append_assoc]
    rfl

/-- The first line of a text with a line feed. -/
theorem placedFrom_lineFeed {line : List Char} (h : '\n' ∉ line) (start : Nat)
    (text : List Char) :
    placedFrom start [] (line ++ '\n' :: text)
      = (start, endedLine line.reverse) :: placedFrom (start + line.length + 1) [] text := by
  rw [placedFrom_append h, List.append_nil, placedFrom_cons, if_pos rfl, List.length_reverse]

/-- The only line of a text without one. -/
theorem placedFrom_last {line : List Char} (h : '\n' ∉ line) (start : Nat) :
    placedFrom start [] line = if line = [] then [] else [(start, line)] := by
  have happend := placedFrom_append h start [] []
  rw [List.append_nil, List.append_nil] at happend
  rw [happend, placedFrom_end, List.reverse_reverse]
  simp only [List.reverse_eq_nil_iff]

/-- What is drawn of the rest of a source, which may begin in the middle of a line. -/
def paint (inComment : Bool) (offset : Nat) (text : List Char) : List (Nat × Mark) :=
  (marksOf inComment (placedFrom offset [] text)).tail

variable {b b' : Bool} {o : Nat} {line text : List Char}

@[simp]
theorem paint_nil (b : Bool) (o : Nat) : paint b o [] = [] := rfl

theorem paint_lineFeed (h : '\n' ∉ line) (b : Bool) (o : Nat) (text : List Char) :
    paint b o (line ++ '\n' :: text) = placeSpans o (highlightLine b (endedLine line.reverse)).1
      ++ marksOf (highlightLine b (endedLine line.reverse)).2
        (placedFrom (o + line.length + 1) [] text) := by
  rw [paint, placedFrom_lineFeed h]
  rfl

theorem paint_last (h : '\n' ∉ line) (b : Bool) (o : Nat) :
    paint b o line = placeSpans o (highlightLine b line).1 := by
  rw [paint, placedFrom_last h]
  by_cases hnil : line = []
  · rw [if_pos hnil, hnil, highlightLine_nil]
    rfl
  · rw [if_neg hnil]
    exact List.append_nil _

/-- Nothing is drawn of a line feed at the front. -/
theorem paint_lineFeed_cons (b : Bool) (o : Nat) (text : List Char) :
    paint b o ('\n' :: text) = marksOf b (placedFrom (o + 1) [] text) := by
  have hfeed : paint b o ([] ++ '\n' :: text) = _ := paint_lineFeed List.not_mem_nil b o text
  have hended : endedLine [].reverse = [] := rfl
  rw [hended, highlightLine_nil] at hfeed
  exact hfeed

/-- A text is a line, or a line, a line feed and another text. -/
theorem exists_line (text : List Char) :
    ∃ line, '\n' ∉ line ∧ (text = line ∨ ∃ rest, text = line ++ '\n' :: rest) := by
  obtain ⟨line, rest, rfl, -, hline, hrest⟩ := exists_stretch (· != '\n') text
  refine ⟨line, fun hmem => absurd (hline _ hmem) (by decide), ?_⟩
  cases rest with
  | nil => exact .inl (List.append_nil _)
  | cons c rest =>
    have hc : c = '\n' := by
      have hfeed := hrest c rfl
      simpa using hfeed
    rw [hc]
    exact .inr ⟨rest, rfl⟩

/-- What is true of the last line of a text, and of a line in front of a text of which it is
true, is true of every text. -/
@[elab_as_elim]
theorem line_induction {motive : List Char → Prop}
    (last : ∀ line, '\n' ∉ line → motive line)
    (next : ∀ line rest, '\n' ∉ line → motive rest → motive (line ++ '\n' :: rest))
    (text : List Char) : motive text := by
  obtain ⟨line, hline, htext | ⟨rest, hrest⟩⟩ := exists_line text
  · rw [htext]
    exact last line hline
  · rw [hrest]
    exact next line rest hline (line_induction last next rest)
termination_by text.length
decreasing_by
  rw [hrest, List.length_append, List.length_cons]
  omega

/-- Where a line begins and something is left, its beginning is drawn. -/
theorem marksOf_placedFrom (b : Bool) (o : Nat) (text : List Char) :
    marksOf b (placedFrom o [] text)
      = if text = [] then [] else (o, .line b) :: paint b o text := by
  obtain ⟨line, hline, htext | ⟨rest, rfl⟩⟩ := exists_line text
  · rw [htext, paint, placedFrom_last hline]
    by_cases hnil : line = []
    · rw [if_pos hnil, if_pos hnil]
      rfl
    · rw [if_neg hnil, if_neg hnil]
      rfl
  · have hne : line ++ '\n' :: rest ≠ [] :=
      List.append_ne_nil_of_right_ne_nil _ (List.cons_ne_nil _ _)
    rw [paint, placedFrom_lineFeed hline, if_neg hne]
    rfl

/-- **A span in front of a rest**: it is cut off whatever the rest of the line is, as long as
that begins as the rest does. -/
theorem paint_span {piece : List Char} {role : Role} (hpiece : '\n' ∉ piece)
    (hreturn : text.head? = some '\n' → piece.getLast? ≠ some '\r')
    (hspan : ∀ line : List Char, (∀ c, line.head? = some c → text.head? = some c) →
      highlightLine b (piece ++ line)
        = (⟨piece, role⟩ :: (highlightLine b' line).1, (highlightLine b' line).2)) (o : Nat) :
    paint b o (piece ++ text)
      = (o, .span ⟨piece, role⟩) :: paint b' (o + piece.length) text := by
  obtain ⟨line, hline, htext⟩ := exists_line text
  have hboth : '\n' ∉ piece ++ line := by
    rw [List.mem_append, not_or]
    exact ⟨hpiece, hline⟩
  rcases htext with htext | ⟨rest, rfl⟩
  · rw [← htext] at hline hboth
    rw [paint_last hboth, paint_last hline, hspan text fun _ h => h, placeSpans]
  · -- The piece keeps its end, unless it is all there is of the line.
    have hended : endedLine (piece ++ line).reverse = piece ++ endedLine line.reverse := by
      apply endedLine_append
      rintro rfl
      exact hreturn rfl
    have hhead : ∀ c, (endedLine line.reverse).head? = some c →
        (line ++ '\n' :: rest).head? = some c := by
      intro c hc
      obtain ⟨more, hmore⟩ := endedLine_begins line
      rw [← hmore, List.append_assoc, List.head?_append, hc]
      rfl
    rw [← List.append_assoc, paint_lineFeed hboth, paint_lineFeed hline, hended,
      hspan _ hhead, placeSpans, List.cons_append, List.length_append,
      Nat.add_assoc o piece.length line.length]

end Playground

end Lipi
