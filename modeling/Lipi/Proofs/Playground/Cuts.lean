/-
Where a line is cut.

Each kind of span that is cut off a line, with what has to follow for the cut to end there: a
word and a number end where no character follows that would continue them, a quoted text with
its closing quote, a comment with its closing signs or with the line, and any other character
stands by itself. What follows is looked at no further than its first character, so each is
drawn of the rest of a source, too (`paint_word` and the others).

These are the conditions under which a scanner stops. A slash is the only sign for which there
is one: it stands by itself where the scanner would not take it for a comment
(`Lexeme.Stops`).
-/
import Lipi.Proofs.Playground.Marks
import Lipi.Proofs.Token.Spelling

set_option autoImplicit false

namespace Lipi

namespace Playground

open Lexeme

variable {c : Char} {tail rest text : List Char} {o : Nat}

/-! ## Comments -/

/-- A body without closing signs is passed up to the closing signs after it. -/
theorem splitComment_closed {body : List Char} (h : ¬ ['*', '/'] <:+: body) (rest : List Char) :
    splitComment (body ++ '*' :: '/' :: rest) = (body ++ ['*', '/'], rest, false) := by
  induction body with
  | nil => rfl
  | cons c body ih =>
    rw [List.infix_cons_iff, not_or] at h
    rw [List.cons_append, splitComment, ih h.2]
    · rfl
    · -- A star here is not followed by a slash, not even by the closing signs.
      intro more hc he
      rcases body with _ | ⟨d, body⟩
      · cases he
      · apply h.1
        rw [hc, (List.cons.inj he).1]
        exact ⟨body, rfl⟩

/-- Without closing signs the comment goes on behind the line. -/
theorem splitComment_open {line : List Char} (h : ¬ ['*', '/'] <:+: line) :
    splitComment line = (line, [], true) := by
  induction line with
  | nil => rfl
  | cons c line ih =>
    rw [List.infix_cons_iff, not_or] at h
    rw [splitComment, ih h.2]
    intro more hc he
    apply h.1
    rw [hc, he]
    exact ⟨more, rfl⟩

/-- A line in a comment that it does not end. -/
theorem highlightLine_open {line : List Char} (h : ¬ ['*', '/'] <:+: line) :
    highlightLine true line = (if line = [] then [] else [⟨line, .comment⟩], true) := by
  cases line with
  | nil => exact highlightLine_nil true
  | cons c line =>
    have hcut : cut true c line = ⟨c :: line, .comment, [], true⟩ := by
      rw [cut, if_pos rfl, splitComment_open h]
    rw [highlightLine_of_cut hcut, highlightLine_nil, if_neg (List.cons_ne_nil _ _)]

/-- The end of a comment. -/
theorem highlightLine_closed {body : List Char} (h : ¬ ['*', '/'] <:+: body) (line : List Char) :
    highlightLine true (body ++ ['*', '/'] ++ line)
      = (⟨body ++ ['*', '/'], .comment⟩ :: (highlightLine false line).1,
        (highlightLine false line).2) := by
  have hsplit := splitComment_closed h line
  rw [List.append_assoc, List.cons_append, List.cons_append, List.nil_append]
  generalize hfront : body ++ '*' :: '/' :: line = front at hsplit ⊢
  rcases front with _ | ⟨c, rest⟩
  · exact absurd hfront (List.append_ne_nil_of_right_ne_nil _ (List.cons_ne_nil _ _))
  · have hcut : cut true c rest = ⟨body ++ ['*', '/'], .comment, line, false⟩ := by
      rw [cut, if_pos rfl, hsplit]
    exact highlightLine_of_cut hcut

/-- A line comment. -/
theorem highlightLine_lineComment (body : List Char) :
    highlightLine false ('/' :: '/' :: body) = ([⟨'/' :: '/' :: body, .comment⟩], false) := by
  have hcut : cut false '/' ('/' :: body) = ⟨'/' :: '/' :: body, .comment, [], false⟩ := rfl
  rw [highlightLine_of_cut hcut, highlightLine_nil]

/-- The signs that open a block comment. -/
theorem paint_opening (o : Nat) (text : List Char) :
    paint false o ('/' :: '*' :: text)
      = (o, .span ⟨['/', '*'], .comment⟩) :: paint true (o + 2) text := by
  have hpiece : '\n' ∉ ['/', '*'] := by decide
  refine paint_span hpiece (fun _ => by decide) ?_ o
  intro line _
  have hcut : cut false '/' ('*' :: line) = ⟨['/', '*'], .comment, line, true⟩ := rfl
  exact highlightLine_of_cut hcut

/-- The last line of a block comment. -/
theorem paint_closing {line : List Char} (hline : '\n' ∉ line) (h : ¬ ['*', '/'] <:+: line)
    (o : Nat) (text : List Char) :
    paint true o (line ++ ['*', '/'] ++ text)
      = (o, .span ⟨line ++ ['*', '/'], .comment⟩)
        :: paint false (o + (line ++ ['*', '/']).length) text := by
  refine paint_span ?_ ?_ (fun rest _ => highlightLine_closed h rest) o
  · rw [List.mem_append, not_or]
    exact ⟨hline, by decide⟩
  · intro _
    rw [List.getLast?_append]
    show some '/' ≠ some '\r'
    decide

/-! ## Texts -/

/-- A quoted text is cut off with its closing quote. -/
theorem splitQuoted_of_quotes {quote : Char} {source text : List Char} (hq : quote ≠ '\\')
    (h : Quotes quote source text) (rest : List Char) :
    splitQuoted quote (source ++ quote :: rest) = (source ++ [quote], rest) := by
  induction h with
  | nil =>
    rw [List.nil_append, splitQuoted, if_pos rfl]
    · rfl
    · intro _ _ he
      exact absurd he hq
  | plain hquote hescape _ ih =>
    rw [List.cons_append, splitQuoted, if_neg hquote, ih]
    · rfl
    · intro _ _ he
      exact absurd he hescape
  | escaped c _ ih =>
    rw [List.cons_append, List.cons_append, splitQuoted, ih]
    rfl

theorem paint_text {quote : Char} {source body : List Char} (hquote : quote = '"' ∨ quote = '\'')
    (h : Quotes quote source body) (hfeed : '\n' ∉ source) (o : Nat) (text : List Char) :
    paint false o (quote :: (source ++ [quote]) ++ text)
      = (o, .span ⟨quote :: (source ++ [quote]), .text⟩)
        :: paint false (o + (quote :: (source ++ [quote])).length) text := by
  have hsign : quote ≠ '\\' ∧ quote ≠ '/' ∧ quote ≠ '\n' ∧ quote ≠ '\r' := by
    rcases hquote with rfl | rfl
    · decide
    · decide
  obtain ⟨hescape, hslash, hline, hreturn⟩ := hsign
  refine paint_span ?_ ?_ ?_ o
  · rw [List.mem_cons, List.mem_append, List.mem_singleton]
    rintro (he | he | he)
    · exact hline he.symm
    · exact hfeed he
    · exact hline he.symm
  · intro _ he
    rw [← List.cons_append, List.getLast?_concat] at he
    exact hreturn (Option.some.inj he)
  · intro line _
    have hcut : cut false quote (source ++ [quote] ++ line)
        = ⟨quote :: (source ++ [quote]), .text, line, false⟩ := by
      have hsplit := splitQuoted_of_quotes hescape h line
      unfold cut cutOutside
      rw [if_neg Bool.false_ne_true, if_neg fun he => hslash he.1, if_neg fun he => hslash he.1,
        if_pos hquote, List.append_assoc, List.singleton_append, hsplit]
    exact highlightLine_of_cut hcut

/-! ## Numbers and words -/

/-- A character of a word begins neither a comment nor a text. -/
theorem cut_of_isWordChar (h : isWordChar c = true) (rest : List Char) :
    cut false c rest = if c.isDigit then
      ⟨c :: rest.takeWhile isNumberChar, .number, rest.dropWhile isNumberChar, false⟩
    else if c.isAlpha ∨ c = '_' then
      ⟨c :: rest.takeWhile isWordChar, wordRole (String.ofList (c :: rest.takeWhile isWordChar)),
        rest.dropWhile isWordChar, false⟩
    else ⟨[c], signRole c, rest, false⟩ := by
  have hne : ∀ d : Char, isWordChar d = false → c ≠ d := by
    intro d hd he
    rw [← he, h] at hd
    cases hd
  have hslash : c ≠ '/' := hne '/' rfl
  have hquote : ¬ (c = '"' ∨ c = '\'') := not_or.mpr ⟨hne '"' rfl, hne '\'' rfl⟩
  unfold cut cutOutside
  rw [if_neg Bool.false_ne_true, if_neg fun he => hslash he.1, if_neg fun he => hslash he.1,
    if_neg hquote]

/-- Neither a word nor a number has a line feed or a carriage return in it. -/
theorem not_mem_of_forall {p : Char → Bool} {piece : List Char} {d : Char}
    (h : ∀ c ∈ piece, p c = true) (hd : p d = false) : d ∉ piece := by
  intro hmem
  rw [h d hmem] at hd
  cases hd

theorem paint_word (hc : c.isAlpha = true ∨ c = '_') (htail : ∀ d ∈ tail, isWordChar d = true)
    (hafter : ∀ d, text.head? = some d → isWordChar d = false) (o : Nat) :
    paint false o (c :: tail ++ text)
      = (o, .span ⟨c :: tail, wordRole (String.ofList (c :: tail))⟩)
        :: paint false (o + (c :: tail).length) text := by
  have hword : ∀ d ∈ c :: tail, isWordChar d = true :=
    List.forall_mem_cons.mpr ⟨isWordChar_of_isAlpha hc, htail⟩
  have hdigit : ¬ c.isDigit = true := by
    rcases hc with hc | rfl
    · rw [isDigit_eq_false_of_isAlpha hc]
      exact Bool.false_ne_true
    · decide
  refine paint_span (not_mem_of_forall hword rfl) ?_ ?_ o
  · intro _ he
    exact not_mem_of_forall hword rfl (List.mem_of_getLast? he)
  · intro line hline
    have hends : ∀ d, line.head? = some d → isWordChar d = false := fun d hd =>
      hafter d (hline d hd)
    have hcut : cut false c (tail ++ line)
        = ⟨c :: tail, wordRole (String.ofList (c :: tail)), line, false⟩ := by
      rw [cut_of_isWordChar (isWordChar_of_isAlpha hc), if_neg hdigit, if_pos hc,
        takeWhile_stretch htail hends, dropWhile_stretch htail hends]
    exact highlightLine_of_cut hcut

theorem paint_number (hc : c.isDigit = true) (htail : ∀ d ∈ tail, isNumberChar d = true)
    (hafter : ∀ d, text.head? = some d → isNumberChar d = false) (o : Nat) :
    paint false o (c :: tail ++ text)
      = (o, .span ⟨c :: tail, .number⟩) :: paint false (o + (c :: tail).length) text := by
  have hnumber : ∀ d ∈ c :: tail, isNumberChar d = true := by
    refine List.forall_mem_cons.mpr ⟨?_, htail⟩
    rw [isNumberChar, hc, Bool.true_or]
  refine paint_span (not_mem_of_forall hnumber rfl) ?_ ?_ o
  · intro _ he
    exact not_mem_of_forall hnumber rfl (List.mem_of_getLast? he)
  · intro line hline
    have hends : ∀ d, line.head? = some d → isNumberChar d = false := fun d hd =>
      hafter d (hline d hd)
    have hcut : cut false c (tail ++ line) = ⟨c :: tail, .number, line, false⟩ := by
      rw [cut_of_isWordChar (isWordChar_of_isDigit hc), if_pos hc,
        takeWhile_stretch htail hends, dropWhile_stretch htail hends]
    exact highlightLine_of_cut hcut

/-! ## Signs -/

/-- The characters that begin neither a text nor a number nor a word. -/
def isSign (c : Char) : Bool := !(c == '"' || c == '\'' || isWordChar c)

/-- A sign stands by itself, unless it is a slash that begins a comment. -/
theorem cut_sign (hc : isSign c = true)
    (hslash : c = '/' → Stops (.operator .slash) rest) :
    cut false c rest = ⟨[c], signRole c, rest, false⟩ := by
  simp only [isSign, Bool.not_eq_true', Bool.or_eq_false_iff, beq_eq_false_iff_ne] at hc
  obtain ⟨⟨hquote, happostrophe⟩, hword⟩ := hc
  have hline : ¬ (c = '/' ∧ rest.head? = some '/') := by
    intro he
    exact absurd (hslash he.1 '/' he.2) (by decide)
  have hblock : ¬ (c = '/' ∧ rest.head? = some '*') := by
    intro he
    exact absurd (hslash he.1 '*' he.2) (by decide)
  have hdigit : ¬ c.isDigit = true := by
    intro he
    rw [isWordChar_of_isDigit he] at hword
    cases hword
  have hletter : ¬ (c.isAlpha = true ∨ c = '_') := by
    intro he
    rw [isWordChar_of_isAlpha he] at hword
    cases hword
  unfold cut cutOutside
  rw [if_neg Bool.false_ne_true, if_neg hline, if_neg hblock,
    if_neg (not_or.mpr ⟨hquote, happostrophe⟩), if_neg hdigit, if_neg hletter]

theorem paint_sign (hc : isSign c = true) (hfeed : c ≠ '\n')
    (hreturn : c = '\r' → text.head? ≠ some '\n')
    (hslash : c = '/' → Stops (.operator .slash) text) (o : Nat) :
    paint false o (c :: text) = (o, .span ⟨[c], signRole c⟩) :: paint false (o + 1) text := by
  show paint false o ([c] ++ text) = _
  refine paint_span ?_ ?_ ?_ o
  · rw [List.mem_singleton]
    exact hfeed.symm
  · intro hnext he
    exact hreturn (Option.some.inj he) hnext
  · intro line hline
    have hcut : cut false c line = ⟨[c], signRole c, line, false⟩ :=
      cut_sign hc fun he d hd => hslash he d (hline d hd)
    exact highlightLine_of_cut hcut

/-- Signs that do not begin a comment are drawn one by one. -/
theorem paint_signs {signs : List Char} (hsigns : ∀ c ∈ signs, isSign c = true)
    (hclear : ∀ c ∈ signs, c ≠ '\n' ∧ c ≠ '\r' ∧ c ≠ '/') (o : Nat) (text : List Char) :
    paint false o (signs ++ text)
      = placeSpans o (signs.map fun c => ⟨[c], signRole c⟩)
        ++ paint false (o + signs.length) text := by
  induction signs generalizing o with
  | nil => rfl
  | cons c signs ih =>
    obtain ⟨hc, hsigns⟩ := List.forall_mem_cons.mp hsigns
    obtain ⟨⟨hfeed, hreturn, hslash⟩, hclear⟩ := List.forall_mem_cons.mp hclear
    have hlength : o + (c :: signs).length = o + 1 + signs.length := by
      rw [List.length_cons]
      omega
    rw [List.cons_append, paint_sign hc hfeed (fun he => absurd he hreturn)
      (fun he => absurd he hslash), ih hsigns hclear, hlength]
    rfl

end Playground

end Lipi
