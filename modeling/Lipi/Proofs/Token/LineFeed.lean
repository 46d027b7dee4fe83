/-
A line feed between two texts keeps them apart.

No lexeme but a quoted text and no layout but a comment can contain a line feed, and
once a text has been scanned to its end no quote and no comment between `/*` and `*/` is
open. So scanning `a`, a line feed and `b` first finds the tokens of `a` and is then where
a scan of `b` alone would begin, only further on (`tokensFrom_lineFeed`). This is said of
the scanner's whole answer, so it covers a `b` that cannot be read as well.

If `a` cannot be read, `b` can repair it only by closing a quote or a comment that `a`
has left open. A `b` without quotes and without stars repairs nothing
(`tokensFrom_lineFeed_error`).
-/
import Mathlib.Control.Monad.Basic
import Lipi.Proofs.Token.Scanning

set_option autoImplicit false

namespace Lipi

/-! ## Stretches that end before a line feed -/

theorem takeWhile_lineFeed {p : Char → Bool} (h : p '\n' = false) (a b : List Char) :
    (a ++ '\n' :: b).takeWhile p = a.takeWhile p := by
  rw [List.takeWhile_append, List.takeWhile_cons_of_neg (by rw [h]; exact Bool.false_ne_true)]
  by_cases hall : (a.takeWhile p).length = a.length
  · rw [if_pos hall, List.append_nil]
    exact ((List.takeWhile_prefix p).eq_of_length hall).symm
  · rw [if_neg hall]

theorem drop_takeWhile_lineFeed {p : Char → Bool} (h : p '\n' = false) (a b : List Char) :
    (a ++ '\n' :: b).drop ((a ++ '\n' :: b).takeWhile p).length
      = a.drop (a.takeWhile p).length ++ '\n' :: b := by
  rw [takeWhile_lineFeed h, List.drop_append_of_le_length (length_takeWhile_le a)]

/-- What stands before a line feed and is none was there already. -/
theorem exists_of_append_lineFeed {a b more : List Char} {c : Char} (hc : c ≠ '\n')
    (h : a ++ '\n' :: b = c :: more) : ∃ tail, a = c :: tail := by
  rcases a with _ | ⟨d, tail⟩
  · exact absurd (List.cons.inj h).1.symm hc
  · exact ⟨tail, by rw [(List.cons.inj h).1]⟩

/-! ## Layout -/

namespace Layout

theorem commentLength?_append {text : List Char} {passed n : Nat}
    (h : commentLength? text passed = some n) (more : List Char) :
    commentLength? (text ++ more) passed = some n := by
  induction text, passed using commentLength?.induct with
  | case1 passed => cases h
  | case2 rest passed => exact h
  | case3 c rest passed hne ih =>
    rw [commentLength?] at h
    · rcases rest with _ | ⟨d, rest⟩
      · cases h
      · rw [List.cons_append, commentLength?]
        · exact ih h
        · -- A star that closes nothing here closes nothing in the longer text.
          rintro _ rfl he
          obtain rfl : d = '/' := (List.cons.inj he).1
          exact hne rest rfl rfl
    · exact hne

theorem commentLength?_eq_none {text : List Char} (h : '*' ∉ text) (passed : Nat) :
    commentLength? text passed = none := by
  induction text, passed using commentLength?.induct with
  | case1 passed => rfl
  | case2 rest passed => exact absurd List.mem_cons_self h
  | case3 c rest passed hne ih =>
    rw [commentLength?]
    · exact ih fun hmem => h (List.mem_cons_of_mem c hmem)
    · exact hne

/-- A comment that is open before a line feed is not closed by a text without stars. -/
theorem commentLength?_lineFeed_eq_none {text r : List Char} {passed : Nat}
    (h : commentLength? text passed = none) (hr : '*' ∉ r) :
    commentLength? (text ++ '\n' :: r) passed = none := by
  induction text, passed using commentLength?.induct with
  | case1 passed =>
    refine commentLength?_eq_none (fun hmem => ?_) passed
    rcases List.mem_cons.mp hmem with he | hmem
    · cases he
    · exact hr hmem
  | case2 rest passed => cases h
  | case3 c rest passed hne ih =>
    rw [commentLength?] at h
    · rw [List.cons_append, commentLength?]
      · exact ih h
      · rintro more rfl he
        obtain ⟨tail, rfl⟩ := exists_of_append_lineFeed (by decide) he
        exact hne tail rfl rfl
    · exact hne

/-- Layout that ends in a text ends there with a line feed after the text as well, unless
it is the whole text; then the line feed is layout too. -/
theorem measure_lineFeed {text : List Char} {passed n : Nat} (h : measure text passed = .ends n)
    (r : List Char) :
    (n < passed + text.length ∧ measure (text ++ '\n' :: r) passed = .ends n)
      ∨ (n = passed + text.length ∧ measure (text ++ '\n' :: r) passed = measure r (n + 1)) := by
  induction text, passed using measure.induct with
  -- A line comment ends before the line feed in any case.
  | case1 passed rest body ih =>
    rw [measure_lineComment] at h
    have hlength : body.length ≤ rest.length := length_takeWhile_le rest
    rw [List.cons_append, List.cons_append, measure_lineComment,
      drop_takeWhile_lineFeed (by decide), takeWhile_lineFeed (by decide)]
    have hend := ih h
    simp only [List.length_drop, List.length_cons] at hend ⊢
    have harrange : passed + 2 + body.length + (rest.length - body.length)
        = passed + (rest.length + 1 + 1) := by omega
    rw [harrange] at hend
    exact hend
  -- What closes the comment stands in the text, so it still does.
  | case2 passed rest k hk ih =>
    rw [measure_blockComment hk] at h
    have hlength := commentLength?_le hk
    rw [Nat.zero_add] at hlength
    rw [List.cons_append, List.cons_append, measure_blockComment (commentLength?_append hk _),
      List.drop_append_of_le_length hlength]
    have hend := ih h
    simp only [List.length_drop, List.length_cons] at hend ⊢
    have harrange : passed + 2 + k + (rest.length - k) = passed + (rest.length + 1 + 1) := by omega
    rw [harrange] at hend
    exact hend
  | case3 passed rest hk =>
    rw [measure_openComment hk] at h
    cases h
  | case4 passed c rest hl hb hblank ih =>
    rw [measure_blank hblank] at h
    rw [List.cons_append, measure_blank hblank]
    have hend := ih h
    have harrange : passed + 1 + rest.length = passed + (rest.length + 1) := by omega
    rw [harrange] at hend
    exact hend
  | case5 passed c rest hl hb hblank =>
    have hother := Bool.eq_false_iff.mpr hblank
    rw [measure_other hother hl hb] at h
    obtain rfl : passed = n := Layout.ends.inj h
    refine .inl ⟨?_, ?_⟩
    · rw [List.length_cons]
      omega
    · rw [List.cons_append]
      refine measure_other hother ?_ ?_ passed
      · rintro more rfl he
        obtain ⟨tail, rfl⟩ := exists_of_append_lineFeed (by decide) he
        exact hl tail rfl rfl
      · rintro more rfl he
        obtain ⟨tail, rfl⟩ := exists_of_append_lineFeed (by decide) he
        exact hb tail rfl rfl
  -- The text is over, and the line feed is a blank.
  | case6 passed =>
    rw [measure_nil] at h
    obtain rfl : passed = n := Layout.ends.inj h
    exact .inr ⟨rfl, measure_blank (by decide) r passed⟩

/-- A comment that a text leaves open stays open if no star follows. -/
theorem measure_lineFeed_unclosed {text r : List Char} {passed n : Nat}
    (h : measure text passed = .unclosed n) (hr : '*' ∉ r) :
    measure (text ++ '\n' :: r) passed = .unclosed n := by
  induction text, passed using measure.induct with
  | case1 passed rest body ih =>
    rw [measure_lineComment] at h
    rw [List.cons_append, List.cons_append, measure_lineComment,
      drop_takeWhile_lineFeed (by decide), takeWhile_lineFeed (by decide)]
    exact ih h
  | case2 passed rest k hk ih =>
    rw [measure_blockComment hk] at h
    have hlength := commentLength?_le hk
    rw [Nat.zero_add] at hlength
    rw [List.cons_append, List.cons_append, measure_blockComment (commentLength?_append hk _),
      List.drop_append_of_le_length hlength]
    exact ih h
  | case3 passed rest hk =>
    rw [measure_openComment hk] at h
    rw [List.cons_append, List.cons_append,
      measure_openComment (commentLength?_lineFeed_eq_none hk hr)]
    exact h
  | case4 passed c rest hl hb hblank ih =>
    rw [measure_blank hblank] at h
    rw [List.cons_append, measure_blank hblank]
    exact ih h
  | case5 passed c rest hl hb hblank =>
    rw [measure_other (Bool.eq_false_iff.mpr hblank) hl hb] at h
    cases h
  | case6 passed =>
    rw [measure_nil] at h
    cases h

end Layout

/-! ## Lexemes -/

namespace Lexeme

/-- A closed text is closed whatever follows. -/
theorem textBody?_append {quote : Char} (hq : quote ≠ '\\') {rest read : List Char} {length : Nat}
    {answer : List Char × Nat} (h : textBody? quote rest read length = some answer)
    (more : List Char) : textBody? quote (rest ++ more) read length = some answer := by
  induction rest, read, length using textBody?.induct quote with
  | case1 read length => cases h
  | case2 c rest read length ih => exact ih h
  | case3 rest read length hne =>
    rw [textBody?_cons hne, if_pos rfl] at h
    rw [List.cons_append, textBody?_cons fun _ _ he _ => absurd he hq, if_pos rfl]
    exact h
  | case4 c rest read length hne hc ih =>
    rw [textBody?_cons hne, if_neg hc] at h
    rcases rest with _ | ⟨d, rest⟩
    · cases h
    · rw [List.cons_append, textBody?_cons fun _ _ he _ => hne d rest he rfl, if_neg hc]
      exact ih h

theorem textBody?_eq_none {quote : Char} {rest : List Char} (h : quote ∉ rest) (read : List Char)
    (length : Nat) : textBody? quote rest read length = none := by
  induction rest, read, length using textBody?.induct quote with
  | case1 read length => rfl
  | case2 c rest read length ih =>
    exact ih fun hmem => h (List.mem_cons_of_mem _ (List.mem_cons_of_mem _ hmem))
  | case3 rest read length hne => exact absurd List.mem_cons_self h
  | case4 c rest read length hne hc ih =>
    rw [textBody?_cons hne, if_neg hc]
    exact ih fun hmem => h (List.mem_cons_of_mem _ hmem)

/-- A text that is open before a line feed is not closed by what has no quotes. -/
theorem textBody?_lineFeed_eq_none {quote : Char} (hq : quote ≠ '\n') {rest r read : List Char}
    {length : Nat} (h : textBody? quote rest read length = none) (hr : quote ∉ r) :
    textBody? quote (rest ++ '\n' :: r) read length = none := by
  induction rest, read, length using textBody?.induct quote with
  | case1 read length =>
    refine textBody?_eq_none (fun hmem => ?_) read length
    rcases List.mem_cons.mp hmem with he | hmem
    · exact hq he
    · exact hr hmem
  | case2 c rest read length ih => exact ih h
  | case3 rest read length hne =>
    rw [textBody?_cons hne, if_pos rfl] at h
    cases h
  | case4 c rest read length hne hc ih =>
    rw [textBody?_cons hne, if_neg hc] at h
    rcases rest with _ | ⟨d, rest⟩
    · -- A backslash at the end escapes the line feed.
      by_cases hescape : c = '\\'
      · subst hescape
        exact textBody?_eq_none hr _ _
      · rw [List.cons_append, textBody?_cons fun _ _ he _ => absurd he hescape, if_neg hc]
        exact ih h
    · rw [List.cons_append, textBody?_cons fun _ _ he _ => hne d rest he rfl, if_neg hc]
      exact ih h

theorem ofNumber_lineFeed (text r : List Char) : ofNumber (text ++ '\n' :: r) = ofNumber text := by
  unfold ofNumber
  simp only [takeWhile_lineFeed (p := Char.isDigit) (by decide),
    List.drop_append_of_le_length (length_takeWhile_le text)]
  rcases text.drop (text.takeWhile Char.isDigit).length with _ | ⟨c, rest⟩
  · rfl
  · by_cases hpoint : c = '.'
    · subst hpoint
      have hhead : ((rest.drop (rest.takeWhile Char.isDigit).length ++ '\n' :: r).head? = some '.')
          = ((rest.drop (rest.takeWhile Char.isDigit).length).head? = some '.') := by
        rcases rest.drop (rest.takeWhile Char.isDigit).length with _ | ⟨d, tail⟩
        · simp
        · rfl
      simp only [List.cons_append, takeWhile_lineFeed (p := Char.isDigit) (by decide),
        List.drop_append_of_le_length (length_takeWhile_le rest), hhead]
    · simp [hpoint]

theorem isPrefixOf_lineFeed {spelling : List Char} (h : '\n' ∉ spelling) (text r : List Char) :
    spelling.isPrefixOf (text ++ '\n' :: r) = spelling.isPrefixOf text := by
  induction spelling generalizing text with
  | nil => rfl
  | cons c spelling ih =>
    rw [List.mem_cons, not_or] at h
    obtain ⟨hc, hrest⟩ := h
    rcases text with _ | ⟨d, text⟩
    · simp [List.isPrefixOf, Ne.symm hc]
    · simp only [List.cons_append, List.isPrefixOf, ih hrest]

theorem lineFeed_not_mem_spelling (o : Operator) : '\n' ∉ o.spelling.toList := by
  cases o <;> decide

theorem operatorStands_lineFeed (text r : List Char) (o : Operator) :
    operatorStands (text ++ '\n' :: r) o = operatorStands text o := by
  have hprefix := isPrefixOf_lineFeed (lineFeed_not_mem_spelling o) text r
  simp only [operatorStands, hprefix]
  by_cases hstands : o.spelling.toList.isPrefixOf text = true
  · have hlength : o.spelling.toList.length ≤ text.length :=
      (List.isPrefixOf_iff_prefix.mp hstands).length_le
    rw [List.drop_append_of_le_length hlength]
    rcases text.drop o.spelling.toList.length with _ | ⟨c, rest⟩
    · have hboundary : isWordChar '\n' = false := by decide
      simp [hboundary]
    · rfl
  · rw [Bool.eq_false_iff.mpr hstands, Bool.false_and, Bool.false_and]

theorem operator?_lineFeed (text r : List Char) : operator? (text ++ '\n' :: r) = operator? text := by
  rw [operator?, operator?]
  congr 1
  exact funext (operatorStands_lineFeed text r)

theorem ofQuoted_append {quote : Char} (hq : quote ≠ '\\') {rest : List Char} {lexeme : Lexeme}
    (h : ofQuoted quote rest = .ok lexeme) (more : List Char) :
    ofQuoted quote (rest ++ more) = .ok lexeme := by
  unfold ofQuoted at h ⊢
  cases hbody : textBody? quote rest [] 0 with
  | none =>
    rw [hbody] at h
    cases h
  | some answer =>
    rw [hbody] at h
    rw [textBody?_append hq hbody]
    exact h

theorem ofQuoted_lineFeed_error {quote : Char} (hq : quote ≠ '\n') {rest r : List Char}
    {e : Failure} (h : ofQuoted quote rest = .error e) (hr : quote ∉ r) :
    ∃ e', ofQuoted quote (rest ++ '\n' :: r) = .error e' := by
  unfold ofQuoted at h ⊢
  cases hbody : textBody? quote rest [] 0 with
  | some answer =>
    rw [hbody] at h
    cases h
  | none =>
    rw [textBody?_lineFeed_eq_none hq hbody hr]
    exact ⟨_, rfl⟩

theorem startsWithDigit_lineFeed (rest r : List Char) :
    startsWithDigit (rest ++ '\n' :: r) = startsWithDigit rest := by
  cases rest with
  | nil => exact (by decide : Char.isDigit '\n' = false)
  | cons => rfl

/-- Except for quoted texts, what a lexeme is does not depend on what follows a line
feed. -/
theorem front_lineFeed {c : Char} (hquote : ¬ (c = '"' ∨ c = '\'')) (rest r : List Char) :
    front (c :: rest ++ '\n' :: r) = front (c :: rest) := by
  have hnumber := ofNumber_lineFeed (c :: rest) r
  have hoperator := operator?_lineFeed (c :: rest) r
  rw [List.cons_append] at hnumber hoperator ⊢
  simp only [front, if_neg hquote, startsWithDigit_lineFeed, hnumber, hoperator,
    takeWhile_lineFeed (p := isWordChar) (by decide)]

theorem front_quoted {quote : Char} (hquote : quote = '"' ∨ quote = '\'') (rest : List Char) :
    front (quote :: rest) = some (ofQuoted quote rest) := by
  rw [front, if_pos hquote]

theorem front_lineFeed_ok {text : List Char} {lexeme : Lexeme}
    (h : front text = some (.ok lexeme)) (r : List Char) :
    front (text ++ '\n' :: r) = some (.ok lexeme) := by
  rcases text with _ | ⟨c, rest⟩
  · cases h
  · by_cases hquote : c = '"' ∨ c = '\''
    · have hq : c ≠ '\\' := by
        rcases hquote with rfl | rfl <;> decide
      rw [front_quoted hquote, Option.some.injEq] at h
      rw [List.cons_append, front_quoted hquote, ofQuoted_append hq h]
    · rw [front_lineFeed hquote]
      exact h

theorem front_lineFeed_error {text r : List Char} {e : Failure}
    (h : front text = some (.error e)) (hdouble : '"' ∉ r) (hsingle : '\'' ∉ r) :
    ∃ e', front (text ++ '\n' :: r) = some (.error e') := by
  rcases text with _ | ⟨c, rest⟩
  · cases h
  · by_cases hquote : c = '"' ∨ c = '\''
    · have hq : c ≠ '\n' := by
        rcases hquote with rfl | rfl <;> decide
      have hr : c ∉ r := by
        rcases hquote with rfl | rfl
        · exact hdouble
        · exact hsingle
      rw [front_quoted hquote, Option.some.injEq] at h
      obtain ⟨e', he'⟩ := ofQuoted_lineFeed_error hq h hr
      exact ⟨e', by rw [List.cons_append, front_quoted hquote, he']⟩
    · rw [front_lineFeed hquote]
      exact ⟨e, h⟩

end Lexeme

/-! ## Sources -/

namespace Scanner

theorem skip_append {l : Location} {a : List Char} {n : Nat} (h : n ≤ a.length) (b : List Char) :
    (Scanner.mk l (a ++ b)).skip n
      = ⟨((Scanner.mk l a).skip n).location, ((Scanner.mk l a).skip n).ahead ++ b⟩ := by
  simp only [skip, List.take_append_of_le_length h, List.drop_append_of_le_length h]

/-- Where a text ends does not depend on how far it has been passed. -/
theorem past_skip (s : Scanner) (n : Nat) (more : List Char) :
    (s.skip n).location.past ((s.skip n).ahead ++ more) = s.location.past (s.ahead ++ more) := by
  simp only [skip]
  rw [← Location.past_append, ← List.append_assoc, List.take_append_drop]

/-- A step over a lexeme is the same step with a line feed and more after the text. -/
theorem tokensFrom_lexeme_lineFeed {l : Location} {text : List Char} {n : Nat}
    {read : List Token} {lexeme : Lexeme} (hfront : Layout.front text = .ends n)
    (hlex : Lexeme.front ((Scanner.mk l text).skip n).ahead = some (.ok lexeme)) (b : List Char) :
    (Scanner.mk l (text ++ '\n' :: b)).tokensFrom read =
      (Scanner.mk (((Scanner.mk l text).skip n).skip lexeme.length).location
        ((((Scanner.mk l text).skip n).skip lexeme.length).ahead ++ '\n' :: b)).tokensFrom
          (⟨lexeme.kind, ((Scanner.mk l text).skip n).location⟩ :: read) := by
  have hlength := Lexeme.front_length_le hlex
  have hpos := lexeme.length_pos
  -- A lexeme is not empty, so the layout before it is not the whole text.
  rcases Layout.measure_lineFeed hfront b with ⟨hlt, hlayout⟩ | ⟨hall, -⟩
  · have hskip := skip_append (l := l) (a := text) (n := n) (by omega) ('\n' :: b)
    have hlex' : Lexeme.front ((Scanner.mk l (text ++ '\n' :: b)).skip n).ahead
        = some (.ok lexeme) := by
      rw [hskip]
      exact Lexeme.front_lineFeed_ok hlex b
    rw [tokensFrom_lexeme (s := ⟨l, text ++ '\n' :: b⟩) hlayout hlex', hskip, skip_append hlength]
  · simp only [skip, List.length_drop] at hlength
    omega

/-- **A line feed keeps two texts apart.** Where a text has been scanned to its end, the
scan of a longer text that goes on with a line feed has found the same tokens and goes on
as a scan of the rest. -/
theorem tokensFrom_lineFeed {s t : Scanner} {read tokens : List Token}
    (h : s.tokensFrom read = (.ok tokens, t)) (b : List Char) :
    (Scanner.mk s.location (s.ahead ++ '\n' :: b)).tokensFrom read
      = (Scanner.mk (s.location.past (s.ahead ++ ['\n'])) b).tokensFrom tokens.reverse := by
  induction s using scan_induction generalizing read with
  | unclosed s n hfront =>
    rw [tokensFrom_unclosed hfront, Prod.mk.injEq] at h
    exact absurd h.1 nofun
  | ended s n hfront hlex =>
    -- Nothing is left but layout, and the line feed is more of it.
    obtain ⟨l, text⟩ := s
    have htext : Layout.front text = .ends n := hfront
    have hdrop : text.drop n = [] := Lexeme.front_eq_none_iff.mp hlex
    rw [tokensFrom_end (s := ⟨l, text⟩) hfront hdrop, Prod.mk.injEq, Except.ok.injEq] at h
    have hlayout : Layout.front (text ++ '\n' :: b) = (Layout.front b).after (text.length + 1) := by
      rcases Layout.measure_lineFeed htext b with ⟨hlt, -⟩ | ⟨hall, hmeasure⟩
      · have := List.drop_eq_nil_iff.mp hdrop
        omega
      · rw [Nat.zero_add] at hall
        rw [Layout.front, hmeasure, hall]
        exact Layout.measure_add b (text.length + 1) 0
    have happend := tokensFrom_append l (text ++ ['\n']) b read (by
      rw [List.append_assoc, List.length_append]
      exact hlayout)
    rw [List.append_assoc] at happend
    rw [← h.1, List.reverse_reverse]
    exact happend
  | failure s n e hfront hlex =>
    rw [tokensFrom_failure hfront hlex, Prod.mk.injEq] at h
    exact absurd h.1 nofun
  | step s n lexeme hfront hlex ih =>
    obtain ⟨l, text⟩ := s
    rw [tokensFrom_lexeme hfront hlex] at h
    rw [tokensFrom_lexeme_lineFeed hfront hlex, ih h, past_skip, past_skip]

/-- What cannot be read is not repaired by a line feed and a text without quotes and
stars. -/
theorem tokensFrom_lineFeed_error {s t : Scanner} {read : List Token} {e : LexError}
    (h : s.tokensFrom read = (.error e, t)) {r : List Char} (hstar : '*' ∉ r)
    (hdouble : '"' ∉ r) (hsingle : '\'' ∉ r) :
    ∃ e' t', (Scanner.mk s.location (s.ahead ++ '\n' :: r)).tokensFrom read = (.error e', t') := by
  induction s using scan_induction generalizing read with
  | unclosed s n hfront =>
    exact ⟨_, _, tokensFrom_unclosed (Layout.measure_lineFeed_unclosed hfront hstar)⟩
  | ended s n hfront hlex =>
    rw [tokensFrom_end hfront (Lexeme.front_eq_none_iff.mp hlex), Prod.mk.injEq] at h
    exact absurd h.1 nofun
  | failure s n failure hfront hlex =>
    -- The failure is at the front, and so it is with more text behind.
    obtain ⟨l, text⟩ := s
    have htext : Layout.front text = .ends n := hfront
    have hne : text.drop n ≠ [] := by
      intro he
      have hnone : Lexeme.front (text.drop n) = none := Lexeme.front_eq_none_iff.mpr he
      exact absurd (hnone.symm.trans hlex) nofun
    rcases Layout.measure_lineFeed htext r with ⟨hlt, hlayout⟩ | ⟨hall, -⟩
    · obtain ⟨failure', hfailure⟩ := Lexeme.front_lineFeed_error hlex hdouble hsingle
      refine ⟨_, _, tokensFrom_failure (s := ⟨l, text ++ '\n' :: r⟩) (e := failure') hlayout ?_⟩
      rw [skip_append (by omega)]
      exact hfailure
    · rw [Nat.zero_add] at hall
      exact absurd (List.drop_eq_nil_iff.mpr (Nat.le_of_eq hall.symm)) hne
  | step s n lexeme hfront hlex ih =>
    obtain ⟨l, text⟩ := s
    rw [tokensFrom_lexeme hfront hlex] at h
    rw [tokensFrom_lexeme_lineFeed hfront hlex]
    exact ih h

end Scanner

/-! ## Whole texts -/

/-- Past a text and a line feed after it, a line begins. -/
theorem Location.past_lineFeed (a : List Char) :
    start.past (a ++ ['\n']) = start.shift (a.length + 1) (a.count '\n' + 1) := by
  have hgeneral : ∀ l : Location, l.past (a ++ ['\n'])
      = ⟨l.offset + (a.length + 1), l.line + (a.count '\n' + 1), 1⟩ := by
    induction a with
    | nil =>
      intro l
      simp [past, next]
    | cons c a ih =>
      intro l
      rw [List.cons_append, past_cons, ih]
      by_cases hc : c = '\n'
      · subst hc
        simp only [next, if_true, List.length_cons, List.count_cons_self]
        congr 1 <;> omega
      · simp only [next, if_neg hc, List.length_cons, List.count_cons_of_ne hc]
        congr 1
        omega
  exact hgeneral start

/-- **A text after a line feed** is read as it is read by itself, only further on, if the
text before the line feed can be read. -/
theorem tokenize_lineFeed {a b : String} {tokens : List Token} (h : tokenize a = .ok tokens) :
    tokenize (a ++ "\n" ++ b) = match tokenize b with
      | .ok more => .ok (tokens ++ more.map
          (Token.relocate (Location.shift (a.toList.length + 1) (a.toList.count '\n' + 1))))
      | .error e => .error ⟨e.cause,
          e.location.shift (a.toList.length + 1) (a.toList.count '\n' + 1)⟩ := by
  have htext : (a ++ "\n" ++ b).toList = a.toList ++ '\n' :: b.toList := by simp
  obtain ⟨t, ht⟩ : ∃ t, (Scanner.ofSource a).tokensFrom [] = (.ok tokens, t) :=
    ⟨_, Prod.ext h rfl⟩
  -- The scan goes on where a scan of `b` alone would begin, but for the place.
  have hseam := Scanner.tokensFrom_lineFeed ht b.toList
  have hmoved := Scanner.tokensFrom_relocated
    (Location.moves_shift (a.toList.length + 1) (a.toList.count '\n' + 1)) (Scanner.ofSource b) []
  have hstart : Location.start.past (a.toList ++ ['\n'])
      = Location.start.shift (a.toList.length + 1) (a.toList.count '\n' + 1) :=
    Location.past_lineFeed a.toList
  rw [Scanner.tokensFrom_read _ tokens.reverse, List.reverse_reverse] at hseam
  simp only [Scanner.ofSource, hstart] at hseam
  simp only [Scanner.ofSource, Scanner.relocate, List.map_nil] at hmoved
  rw [tokenize, Scanner.ofSource, htext, Scanner.tokens, hseam, hmoved]
  simp only [tokenize, Scanner.tokens, Scanner.ofSource]
  cases Scanner.tokensFrom ⟨.start, b.toList⟩ [] with
  | mk outcome s =>
    cases outcome <;> rfl

/-- Where a place of a text stands once another text and a line feed come before it. -/
def Location.below (above : String) (l : Location) : Location :=
  ⟨l.offset + (above.length + 1), l.line + (above.toList.count '\n' + 1), l.column⟩

theorem Location.shift_lineFeed (above : String) :
    shift (above.toList.length + 1) (above.toList.count '\n' + 1) = below above := by
  funext l
  rw [shift, below, String.length_toList]

/-- **Scanning carries line feeds between texts over to rows of tokens.** If the first text
can be read, then what the second comes to by itself, its tokens or its failure, is what it
comes to below the first, and only places tell the two apart. -/
theorem tokenize_below {above : String} {tokens : List Token} (h : tokenize above = .ok tokens)
    (text : String) :
    (∀ more, tokenize text = .ok more →
      tokenize (above ++ "\n" ++ text)
        = .ok (tokens ++ more.map fun t => ⟨t.kind, t.location.below above⟩))
    ∧ ∀ e, tokenize text = .error e →
      ∃ e', tokenize (above ++ "\n" ++ text) = .error e' ∧ e'.tag = e.tag
        ∧ e'.cause.text = e.cause.text ∧ e'.context = e.context
        ∧ e'.location = e.location.below above := by
  have hseam := tokenize_lineFeed (b := text) h
  rw [Location.shift_lineFeed] at hseam
  refine ⟨fun more hmore => ?_, fun e he => ?_⟩
  · rw [hseam, hmore]
    rfl
  · rw [he] at hseam
    exact ⟨_, hseam, rfl, rfl, rfl, rfl⟩

/-- The comment that ends the first line does not reach the second, which is read in the one
case and left open in the other. -/
theorem tokenize_below_comment :
    tokenize "x\n= 1 // one" = .ok [⟨.identifier "x", ⟨0, 1, 1⟩⟩,
        ⟨.operator .assign, ⟨2, 2, 1⟩⟩, ⟨.integer 1, ⟨4, 2, 3⟩⟩]
      ∧ tokenize " y" = .ok [⟨.identifier "y", ⟨1, 1, 2⟩⟩]
      ∧ tokenize ("x\n= 1 // one" ++ "\n" ++ " y") = .ok [⟨.identifier "x", ⟨0, 1, 1⟩⟩,
        ⟨.operator .assign, ⟨2, 2, 1⟩⟩, ⟨.integer 1, ⟨4, 2, 3⟩⟩,
        ⟨.identifier "y", ⟨14, 3, 2⟩⟩]
      ∧ tokenize " \"y" = .error ⟨.openText '"', ⟨1, 1, 2⟩⟩
      ∧ ∃ e, tokenize ("x\n= 1 // one" ++ "\n" ++ " \"y") = .error e
        ∧ e.tag = "UNTERMINATED_STRING" ∧ e.location = ⟨14, 3, 2⟩ := by
  have habove : tokenize "x\n= 1 // one" = .ok [⟨.identifier "x", ⟨0, 1, 1⟩⟩,
      ⟨.operator .assign, ⟨2, 2, 1⟩⟩, ⟨.integer 1, ⟨4, 2, 3⟩⟩] := by decide +kernel
  have hread : tokenize " y" = .ok [⟨.identifier "y", ⟨1, 1, 2⟩⟩] := by decide +kernel
  have hopen : tokenize " \"y" = .error ⟨.openText '"', ⟨1, 1, 2⟩⟩ := by decide +kernel
  have hboth := (tokenize_below habove " y").1 _ hread
  obtain ⟨e, he, htag, -, -, hlocation⟩ := (tokenize_below habove " \"y").2 _ hopen
  exact ⟨habove, hread, hboth, hopen, e, he, htag, hlocation⟩

/-- A text that can be read with a line feed and a text without quotes and stars after it
can be read by itself. -/
theorem tokenize_of_lineFeed {a r : String} {tokens : List Token}
    (h : tokenize (a ++ "\n" ++ r) = .ok tokens) (hstar : '*' ∉ r.toList)
    (hdouble : '"' ∉ r.toList) (hsingle : '\'' ∉ r.toList) : ∃ taken, tokenize a = .ok taken := by
  have htext : (a ++ "\n" ++ r).toList = a.toList ++ '\n' :: r.toList := by simp
  cases ha : tokenize a with
  | ok taken => exact ⟨taken, rfl⟩
  | error e =>
    have hfails : (Scanner.ofSource a).tokensFrom [] = (.error e, (Scanner.ofSource a).tokens.2) :=
      Prod.ext ha rfl
    obtain ⟨e', t', he⟩ := Scanner.tokensFrom_lineFeed_error hfails hstar hdouble hsingle
    rw [tokenize, Scanner.ofSource, htext, Scanner.tokens] at h
    simp only [Scanner.ofSource] at he
    rw [he] at h
    cases h

end Lipi
