/-
Nothing of the source can break the line of a message.

A message shows a token by its lexeme, and the lexeme of every token that is read stays on
one line (`Lexeme.Spells.oneLine`): texts are put in quotes, numbers are written anew, and a
name is made of letters, digits and underscores. Where no token can be read, the message
shows digits and points, a quote, or the one character that begins nothing; this one is no
line feed, because a line feed is layout and has been passed over (`Scanner.oneLine_of_error`).
-/
import Lipi.Proofs.Text.OneLine
import Lipi.Proofs.Token.Tiling

set_option autoImplicit false

namespace Lipi

open Text

/-! ## Tokens -/

theorem Keyword.oneLine_word (k : Keyword) : OneLine k.word := by
  cases k <;> decide

theorem Operator.oneLine_spelling (o : Operator) : OneLine o.spelling := by
  cases o <;> decide

theorem Symbol.oneLine_char (s : Symbol) : OneLine (String.singleton s.char) := by
  cases s <;> decide

theorem Lexeme.ne_lineFeed_of_isWordChar {c : Char} (h : isWordChar c = true) : c ≠ '\n' := by
  rintro rfl
  exact absurd h (by decide)

/-- **A token that is read is shown on one line.** -/
theorem Lexeme.Spells.oneLine {span : List Char} {kind : Token.Kind} (h : Spells span kind) :
    OneLine kind.lexeme := by
  cases h with
  | text _ _ => exact oneLine_quoted _
  | integer _ _ _ => exact oneLine_toString _
  | decimal _ _ _ => exact oneLine_positionalText _
  | operator o => exact o.oneLine_spelling
  | symbol s => exact s.oneLine_char
  | @word c tail hc htail _ =>
    unfold wordKind
    split
    · next k _ => exact k.oneLine_word
    · -- A name is shown as it stands.
      have hword : '\n' ∉ c :: tail := by
        intro hmem
        rcases List.mem_cons.mp hmem with hfirst | hmem
        · exact ne_lineFeed_of_isWordChar (isWordChar_of_isAlpha hc) hfirst.symm
        · exact ne_lineFeed_of_isWordChar (htail _ hmem) rfl
      exact oneLine_ofList.mpr hword

theorem Tiled.oneLine {text : List Char} {tiles : List Tile} (h : Tiled text tiles)
    (l : Location) : ∀ t ∈ Tile.tokens l tiles, OneLine t.kind.lexeme := by
  intro t ht
  obtain ⟨_, _, _, -, -, hspan, -⟩ := h.exists_span l t ht
  exact hspan.oneLine

theorem oneLine_of_tokenize {source : String} {tokens : List Token}
    (h : tokenize source = .ok tokens) : ∀ t ∈ tokens, OneLine t.kind.lexeme := by
  obtain ⟨tiles, htiled, rfl⟩ := Scanner.exists_tiled h
  exact htiled.oneLine _

/-! ## Failures -/

namespace LexError

/-- The text of the source that a cause quotes. -/
def Cause.quoted : Cause → String
  | openComment => ""
  | openText quote => String.singleton quote
  | secondPoint read => read
  | barePoint read => read
  | outOfRange read => read
  | unknownCharacter c => String.singleton c

theorem Cause.oneLine_text (c : Cause) : OneLine c.text := by
  unfold Cause.text
  cases c <;> exact oneLine_ofList.mpr (by decide)

/-- Only what a cause quotes could break the line. -/
theorem Cause.oneLine_context {c : Cause} (h : OneLine c.quoted) : OneLine c.context := by
  unfold Cause.context
  cases c with
  | openComment => exact oneLine_ofList.mpr (by decide)
  | openText quote => exact oneLine_between (by decide) h (by decide)
  | secondPoint read => exact oneLine_between (by decide) h (by decide)
  | barePoint read => exact oneLine_between (by decide) h (by decide)
  | outOfRange read => exact oneLine_between (by decide) h (by decide)
  | unknownCharacter c =>
    refine oneLine_append.mpr ⟨oneLine_append.mpr ⟨?_, oneLine_toString c.toNat⟩, ?_⟩
    · exact oneLine_between (by decide) h (by decide)
    · exact oneLine_ofList.mpr (by decide)

theorem oneLine_message (e : LexError) : OneLine e.message := by
  unfold message
  simp only [oneLine_append]
  exact ⟨⟨⟨⟨e.cause.oneLine_text, by decide⟩, oneLine_toString _⟩, by decide⟩, oneLine_toString _⟩

/-- Every context begins with words that do not depend on what is quoted. -/
theorem context_ne_empty (e : LexError) : e.context ≠ "" := by
  unfold context Cause.context
  cases e.cause <;> simp

end LexError

namespace Lexeme

theorem lineFeed_not_mem_takeWhile_isDigit (text : List Char) :
    '\n' ∉ text.takeWhile Char.isDigit := by
  intro hmem
  exact absurd (List.all_eq_true.mp List.all_takeWhile _ hmem) (by decide)

theorem oneLine_of_ofNumber {text : List Char} {e : Failure} (h : ofNumber text = .error e) :
    OneLine e.cause.quoted := by
  have hwhole := lineFeed_not_mem_takeWhile_isDigit text
  unfold ofNumber at h
  dsimp only at h
  split at h
  · next rest _ =>
    have hfraction := lineFeed_not_mem_takeWhile_isDigit rest
    have hread : '\n' ∉ text.takeWhile Char.isDigit ++ '.' :: rest.takeWhile Char.isDigit := by
      rw [List.mem_append, List.mem_cons, not_or, not_or]
      exact ⟨hwhole, by decide, hfraction⟩
    split at h
    · cases h
      exact oneLine_ofList.mpr hwhole
    · split at h
      · cases h
        exact oneLine_ofList.mpr hread
      · cases h
  · split at h
    · cases h
    · cases h
      exact oneLine_ofList.mpr hwhole

/-- A failure where layout has ended shows no line feed. -/
theorem oneLine_of_front {text : List Char} {e : Failure} (hclear : Layout.Clear text)
    (h : front text = some (.error e)) : OneLine e.cause.quoted := by
  obtain ⟨c, rest, rfl, hblank, -⟩ := hclear
  have hfeed : c ≠ '\n' := by
    rintro rfl
    exact absurd hblank (by decide)
  rw [front, Option.some.injEq] at h
  split at h
  · rw [ofQuoted] at h
    split at h
    · cases h
    · cases h
      exact oneLine_singleton.mpr hfeed
  · split at h
    · exact oneLine_of_ofNumber h
    · split at h
      · cases h
      · split at h
        · cases h
        · split at h
          · cases h
          · cases h
            exact oneLine_singleton.mpr hfeed

end Lexeme

/-- **What cannot be read is shown on one line.** -/
theorem Scanner.oneLine_of_error {s : Scanner} {e : LexError}
    (h : (s.tokensFrom []).1 = .error e) : OneLine e.cause.quoted := by
  induction s using scan_induction with
  | unclosed s n hfront =>
    rw [tokensFrom_unclosed hfront] at h
    cases h
    exact oneLine_ofList.mpr List.not_mem_nil
  | ended s n hfront hlex =>
    rw [tokensFrom_eq hfront, hlex] at h
    cases h
  | failure s n failure hfront hlex =>
    rw [tokensFrom_failure hfront hlex] at h
    cases h
    obtain ⟨l, text⟩ := s
    obtain ⟨k, rfl, hends⟩ := Layout.measure_ends hfront
    rw [Nat.zero_add] at hlex
    rcases hends with ⟨gap, ahead, rfl, rfl, -, hclear⟩ | ⟨rfl, -⟩
    · rw [skip_left] at hlex
      exact Lexeme.oneLine_of_front hclear hlex
    · rw [skip, List.drop_length] at hlex
      cases hlex
  | step s n lexeme hfront hlex ih =>
    rw [tokensFrom_lexeme hfront hlex, tokensFrom_read] at h
    cases hrest : (((s.skip n).skip lexeme.length).tokensFrom []).1 with
    | ok tokens =>
      rw [hrest] at h
      cases h
    | error e' =>
      rw [hrest] at h
      cases h
      exact ih hrest

end Lipi
