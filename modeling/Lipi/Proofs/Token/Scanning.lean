/-
What one step of the scanner does.

The scanner measures the layout ahead and then reads one lexeme, and each of the four
ways this can end has its equation here (`tokensFrom_unclosed` to `tokensFrom_lexeme`).
Proofs about whole sources use these and are inductions on what is ahead.

Places come in only through `Location.past`, which passes over what was skipped. So if a
map of places commutes with passing one character, scanning from a moved place gives the
moved tokens (`tokensFrom_relocated`). Moving by a number of characters and of lines is
such a map as long as columns stay what they are; that is what happens to a text when
others are put before it, each ending its last line.
-/
import Lipi.Token.Scanner

set_option autoImplicit false

namespace Lipi

/-! ## Layout -/

namespace Layout

/-- The same layout after a number of characters already passed. -/
def after (passed : Nat) : Layout → Layout
  | ends n => ends (passed + n)
  | unclosed n => unclosed (passed + n)

theorem measure_lineComment (rest : List Char) (passed : Nat) :
    measure ('/' :: '/' :: rest) passed =
      measure (rest.drop (rest.takeWhile (· != '\n')).length)
        (passed + 2 + (rest.takeWhile (· != '\n')).length) := by
  rw [measure]

theorem measure_blockComment {rest : List Char} {n : Nat} (h : commentLength? rest 0 = some n)
    (passed : Nat) : measure ('/' :: '*' :: rest) passed = measure (rest.drop n) (passed + 2 + n) := by
  rw [measure, h]

theorem measure_openComment {rest : List Char} (h : commentLength? rest 0 = none) (passed : Nat) :
    measure ('/' :: '*' :: rest) passed = .unclosed passed := by
  rw [measure, h]

theorem measure_blank {c : Char} (h : Text.isBlank c = true) (rest : List Char) (passed : Nat) :
    measure (c :: rest) passed = measure rest (passed + 1) := by
  have hslash : c ≠ '/' := by
    rintro rfl
    exact absurd h (by decide)
  rw [measure]
  · rw [if_pos h]
  · intro _ he _
    exact hslash he
  · intro _ he _
    exact hslash he

/-- A character that neither separates nor begins a comment ends the layout. -/
theorem measure_other {c : Char} {rest : List Char} (h : Text.isBlank c = false)
    (hline : ∀ more, c = '/' → rest = '/' :: more → False)
    (hblock : ∀ more, c = '/' → rest = '*' :: more → False) (passed : Nat) :
    measure (c :: rest) passed = .ends passed := by
  rw [measure]
  · rw [if_neg (Bool.eq_false_iff.mp h)]
  · exact hline
  · exact hblock

theorem measure_nil (passed : Nat) : measure [] passed = .ends passed := by
  rw [measure]

/-- What has been passed before is only added. -/
theorem measure_add (text : List Char) (passed more : Nat) :
    measure text (passed + more) = (measure text more).after passed := by
  induction text, more using measure.induct generalizing passed with
  -- A comment that runs to the end of its line.
  | case1 more rest body ih =>
    have harrange : passed + more + 2 + body.length = passed + (more + 2 + body.length) := by omega
    rw [measure_lineComment, measure_lineComment, ← ih, ← harrange]
  -- A comment that is closed.
  | case2 more rest n hn ih =>
    have harrange : passed + more + 2 + n = passed + (more + 2 + n) := by omega
    rw [measure_blockComment hn, measure_blockComment hn, ← ih, ← harrange]
  -- One that is not.
  | case3 more rest hn => rw [measure_openComment hn, measure_openComment hn, after]
  | case4 more c rest hl hb hblank ih =>
    rw [measure_blank hblank, measure_blank hblank, ← ih, Nat.add_assoc]
  | case5 more c rest hl hb hblank =>
    have hother := Bool.eq_false_iff.mpr hblank
    rw [measure_other hother hl hb, measure_other hother hl hb, after]
  | case6 more => rw [measure_nil, measure_nil, after]

theorem commentLength?_le {text : List Char} {passed n : Nat}
    (h : commentLength? text passed = some n) : n ≤ passed + text.length := by
  induction text, passed using commentLength?.induct with
  | case1 passed => cases h
  | case2 rest passed =>
    obtain rfl : passed + 2 = n := Option.some.inj h
    simp only [List.length_cons]
    omega
  | case3 passed c rest hne ih =>
    rw [commentLength?] at h
    · have := ih h
      simp only [List.length_cons]
      omega
    · exact hne

end Layout

/-! ## Lexemes -/

theorem length_takeWhile_le {p : Char → Bool} (a : List Char) :
    (a.takeWhile p).length ≤ a.length :=
  (List.takeWhile_sublist p).length_le

namespace Lexeme

theorem textBody?_cons {quote c : Char} {rest read : List Char} {length : Nat}
    (h : ∀ d tail, c = '\\' → rest = d :: tail → False) :
    textBody? quote (c :: rest) read length =
      if c = quote then some (read.reverse, length + 1)
      else textBody? quote rest (c :: read) (length + 1) := by
  rw [textBody?]
  exact h

theorem textBody?_le {quote : Char} {rest read text : List Char} {length n : Nat}
    (h : textBody? quote rest read length = some (text, n)) : n ≤ length + rest.length := by
  induction rest, read, length using textBody?.induct quote with
  | case1 read length => cases h
  -- A backslash takes the next character along, whatever it is.
  | case2 c rest read length ih =>
    have := ih h
    simp only [List.length_cons]
    omega
  | case3 rest read length hne =>
    rw [textBody?_cons hne, if_pos rfl, Option.some.injEq, Prod.mk.injEq] at h
    simp only [List.length_cons]
    omega
  | case4 c rest read length hne hc ih =>
    rw [textBody?_cons hne, if_neg hc] at h
    have := ih h
    simp only [List.length_cons]
    omega

theorem ofQuoted_length_le {quote : Char} {rest : List Char} {lexeme : Lexeme}
    (h : ofQuoted quote rest = .ok lexeme) : lexeme.length ≤ rest.length + 1 := by
  unfold ofQuoted at h
  split at h
  · next text n hbody =>
    have := textBody?_le hbody
    cases h
    simp only
    omega
  · cases h

theorem ofNumber_length_le {text : List Char} {lexeme : Lexeme} (h : ofNumber text = .ok lexeme) :
    lexeme.length ≤ text.length := by
  have hwhole : (text.takeWhile Char.isDigit).length ≤ text.length := length_takeWhile_le text
  unfold ofNumber at h
  dsimp only at h
  split at h
  · -- A point stands ahead: digits must follow it, and no second point may.
    next rest hdrop =>
    have hfraction : (rest.takeWhile Char.isDigit).length ≤ rest.length := length_takeWhile_le rest
    have hlength := congrArg List.length hdrop
    rw [List.length_drop, List.length_cons] at hlength
    split at h
    · cases h
    · split at h
      · cases h
      · cases h
        simp only
        omega
  · split at h
    · cases h
      exact hwhole
    · cases h

/-- A lexeme is a part of the text. -/
theorem front_length_le {text : List Char} {lexeme : Lexeme}
    (h : front text = some (.ok lexeme)) : lexeme.length ≤ text.length := by
  rcases text with _ | ⟨c, rest⟩
  · cases h
  · rw [front, Option.some.injEq] at h
    split at h
    -- Quoted texts, numbers, operators, symbols and words, in the order of the reader.
    · exact ofQuoted_length_le h
    · split at h
      · exact ofNumber_length_le h
      · split at h
        · next o ho =>
          have hstands := List.find?_some ho
          rw [operatorStands, Bool.and_eq_true] at hstands
          cases h
          exact (List.isPrefixOf_iff_prefix.mp hstands.1).length_le
        · split at h
          · cases h
            exact Nat.succ_le_succ (Nat.zero_le _)
          · split at h
            · cases h
              exact Nat.succ_le_succ (length_takeWhile_le rest)
            · cases h

theorem front_eq_none_iff {text : List Char} : front text = none ↔ text = [] := by
  cases text <;> simp [front]

end Lexeme

/-! ## Steps -/

namespace Scanner

variable {s : Scanner} {read : List Token} {n : Nat}

theorem tokensFrom_unclosed (h : Layout.front s.ahead = .unclosed n) :
    s.tokensFrom read = (.error ⟨.openComment, (s.skip n).location⟩, s.atEnd) := by
  rw [tokensFrom, h]

/-- After the layout, the lexeme ahead decides. -/
theorem tokensFrom_eq (h : Layout.front s.ahead = .ends n) :
    s.tokensFrom read = match Lexeme.front (s.skip n).ahead with
      | none => (.ok read.reverse, s.skip n)
      | some (.error e) => (.error ⟨e.cause, ((s.skip n).skip e.place).location⟩,
          (s.skip n).skip e.reach)
      | some (.ok lexeme) => ((s.skip n).skip lexeme.length).tokensFrom
          (⟨lexeme.kind, (s.skip n).location⟩ :: read) := by
  rw [tokensFrom, h]
  dsimp only
  split
  · next he => rw [he]
  · next he => rw [he]
  · next he => rw [he]

theorem tokensFrom_end (h : Layout.front s.ahead = .ends n) (hend : (s.skip n).ahead = []) :
    s.tokensFrom read = (.ok read.reverse, s.skip n) := by
  rw [tokensFrom_eq h, hend]
  rfl

theorem tokensFrom_failure (h : Layout.front s.ahead = .ends n) {e : Lexeme.Failure}
    (hf : Lexeme.front (s.skip n).ahead = some (.error e)) :
    s.tokensFrom read = (.error ⟨e.cause, ((s.skip n).skip e.place).location⟩,
      (s.skip n).skip e.reach) := by
  rw [tokensFrom_eq h, hf]

theorem tokensFrom_lexeme (h : Layout.front s.ahead = .ends n) {lexeme : Lexeme}
    (hf : Lexeme.front (s.skip n).ahead = some (.ok lexeme)) :
    s.tokensFrom read = ((s.skip n).skip lexeme.length).tokensFrom
      (⟨lexeme.kind, (s.skip n).location⟩ :: read) := by
  rw [tokensFrom_eq h, hf]

theorem skip_skip (s : Scanner) (m n : Nat) : (s.skip m).skip n = s.skip (m + n) := by
  simp only [skip, List.drop_drop, ← Location.past_append, ← List.take_add]

/-- Reading a lexeme leaves less ahead. -/
theorem length_skip_lexeme_lt {lexeme : Lexeme}
    (hf : Lexeme.front (s.skip n).ahead = some (.ok lexeme)) :
    ((s.skip n).skip lexeme.length).ahead.length < s.ahead.length := by
  have hne : (s.skip n).ahead ≠ [] := by
    intro he
    rw [he] at hf
    cases hf
  have hpos := lexeme.length_pos
  have := List.length_pos_iff.mpr hne
  simp only [skip, List.length_drop] at *
  omega

/-- The layout before a place changes nothing but the place. -/
theorem tokensFrom_append (l : Location) (gap text : List Char) (read : List Token)
    (h : Layout.front (gap ++ text) = (Layout.front text).after gap.length) :
    (Scanner.mk l (gap ++ text)).tokensFrom read
      = (Scanner.mk (l.past gap) text).tokensFrom read := by
  have hskip : ∀ n, (Scanner.mk l (gap ++ text)).skip (gap.length + n)
      = (Scanner.mk (l.past gap) text).skip n := by
    intro n
    rw [← skip_skip]
    congr 1
    simp [skip]
  cases hfront : Layout.front text with
  | unclosed n =>
    rw [hfront, Layout.after] at h
    rw [tokensFrom_unclosed h, tokensFrom_unclosed hfront, hskip, atEnd, atEnd]
    simp only [List.length_append, hskip]
  | ends n =>
    rw [hfront, Layout.after] at h
    rw [tokensFrom_eq h, tokensFrom_eq hfront, hskip]

/-- **Induction along a scan.** What holds of a scanner that goes no further, and is passed
back over a lexeme and the layout before it, holds of every scanner. -/
@[elab_as_elim]
theorem scan_induction {motive : Scanner → Prop}
    (unclosed : ∀ s n, Layout.front s.ahead = .unclosed n → motive s)
    (ended : ∀ s n, Layout.front s.ahead = .ends n → Lexeme.front (s.skip n).ahead = none →
      motive s)
    (failure : ∀ s n e, Layout.front s.ahead = .ends n →
      Lexeme.front (s.skip n).ahead = some (.error e) → motive s)
    (step : ∀ s n lexeme, Layout.front s.ahead = .ends n →
      Lexeme.front (s.skip n).ahead = some (.ok lexeme) →
      motive ((s.skip n).skip lexeme.length) → motive s)
    (s : Scanner) : motive s := by
  -- What is ahead is shorter after every lexeme.
  induction hn : s.ahead.length using Nat.strongRecOn generalizing s with
  | ind n ih =>
    cases hfront : Layout.front s.ahead with
    | unclosed m => exact unclosed s m hfront
    | ends m =>
      cases hlex : Lexeme.front (s.skip m).ahead with
      | none => exact ended s m hfront hlex
      | some answer =>
        cases answer with
        | error e => exact failure s m e hfront hlex
        | ok lexeme => exact step s m lexeme hfront hlex (ih _ (hn ▸ length_skip_lexeme_lt hlex) _ rfl)

/-- The tokens read before only stand in front. -/
theorem tokensFrom_read (s : Scanner) (read : List Token) :
    s.tokensFrom read = ((s.tokensFrom []).1.map (read.reverse ++ ·), (s.tokensFrom []).2) := by
  induction s using scan_induction generalizing read with
  | unclosed s n hfront =>
    rw [tokensFrom_unclosed hfront, tokensFrom_unclosed hfront]
    rfl
  | ended s n hfront hlex =>
    rw [tokensFrom_eq hfront, tokensFrom_eq hfront, hlex]
    simp only [Except.map, List.reverse_nil, List.append_nil]
  | failure s n e hfront hlex =>
    rw [tokensFrom_failure hfront hlex, tokensFrom_failure hfront hlex]
    rfl
  | step s n lexeme hfront hlex ih =>
    rw [tokensFrom_lexeme hfront hlex, tokensFrom_lexeme hfront hlex, ih, ih [_]]
    cases (((s.skip n).skip lexeme.length).tokensFrom []).1 with
    | error e => rfl
    | ok tokens => simp [Except.map]

end Scanner

/-! ## Moving a source -/

/-- A map of places that passing a character commutes with. -/
def Location.Moves (f : Location → Location) : Prop :=
  ∀ l c, f (l.next c) = (f l).next c

/-- Moving by a number of characters and of lines, columns kept. -/
def Location.shift (characters lines : Nat) (l : Location) : Location :=
  ⟨l.offset + characters, l.line + lines, l.column⟩

theorem Location.moves_shift (characters lines : Nat) : Moves (shift characters lines) := by
  intro l c
  by_cases h : c = '\n'
  · simp only [next, if_pos h, shift, Nat.add_right_comm]
  · simp only [next, if_neg h, shift, Nat.add_right_comm]

theorem Location.Moves.past {f : Location → Location} (hf : Moves f) (l : Location)
    (text : List Char) : f (l.past text) = (f l).past text := by
  induction text generalizing l with
  | nil => rfl
  | cons c text ih => rw [past_cons, past_cons, ih, hf]

/-- A token at another place. -/
def Token.relocate (f : Location → Location) (t : Token) : Token := ⟨t.kind, f t.location⟩

namespace Scanner

/-- A scanner at another place, with the same text ahead. -/
def relocate (f : Location → Location) (s : Scanner) : Scanner := ⟨f s.location, s.ahead⟩

/-- What a scanner that has been moved comes to. -/
def relocated (f : Location → Location) :
    Except LexError (List Token) × Scanner → Except LexError (List Token) × Scanner
  | (.ok tokens, s) => (.ok (tokens.map (Token.relocate f)), s.relocate f)
  | (.error e, s) => (.error ⟨e.cause, f e.location⟩, s.relocate f)

theorem relocate_skip {f : Location → Location} (hf : Location.Moves f) (s : Scanner) (n : Nat) :
    (s.relocate f).skip n = (s.skip n).relocate f := by
  simp only [skip, relocate, hf.past]

/-- **A moved source is read as the moved tokens**, or fails at the moved place. -/
theorem tokensFrom_relocated {f : Location → Location} (hf : Location.Moves f) (s : Scanner)
    (read : List Token) :
    (s.relocate f).tokensFrom (read.map (Token.relocate f)) = relocated f (s.tokensFrom read) := by
  -- Moving the place leaves what is ahead as it is, so both scans go on alike.
  have hahead : ∀ s : Scanner, (s.relocate f).ahead = s.ahead := fun _ => rfl
  induction s using scan_induction generalizing read with
  | unclosed s n hfront =>
    have hfront' : Layout.front (s.relocate f).ahead = .unclosed n := hfront
    rw [tokensFrom_unclosed hfront, tokensFrom_unclosed hfront', relocate_skip hf, atEnd,
      relocate_skip hf]
    rfl
  | ended s n hfront hlex =>
    have hfront' : Layout.front (s.relocate f).ahead = .ends n := hfront
    rw [tokensFrom_eq hfront, tokensFrom_eq hfront', relocate_skip hf, hahead, hlex]
    simp only [relocated, List.map_reverse]
  | failure s n e hfront hlex =>
    have hfront' : Layout.front (s.relocate f).ahead = .ends n := hfront
    rw [tokensFrom_eq hfront, tokensFrom_eq hfront', relocate_skip hf, hahead, hlex]
    simp only [relocate_skip hf]
    rfl
  | step s n lexeme hfront hlex ih =>
    have hfront' : Layout.front (s.relocate f).ahead = .ends n := hfront
    rw [tokensFrom_eq hfront, tokensFrom_eq hfront', relocate_skip hf, hahead, hlex]
    simp only [relocate_skip hf]
    exact ih (⟨lexeme.kind, (s.skip n).location⟩ :: read)

end Scanner

end Lipi
