/-
From a text to its tokens.

A scanner is a place in a source: the location reached and the text still ahead.
It moves by skipping characters, and the location follows from the characters
skipped, so the two never come apart. `Scanner.tokens` alternates between
measuring layout and reading a lexeme until the text ends or something cannot be
read; either way the answer comes with the scanner where it then stands, and
calling it again goes on from there. Tokens read before an error are given up.
-/
import Lipi.Token.Layout
import Lipi.Token.Lexeme

set_option autoImplicit false

namespace Lipi

/-- A place in a source and the text ahead of it (`Lexer`). -/
structure Scanner where
  location : Location
  ahead : List Char

namespace Scanner

/-- The front of a source. -/
def ofSource (source : String) : Scanner := ⟨.start, source.toList⟩

/-- A number of characters further on. -/
def skip (s : Scanner) (n : Nat) : Scanner :=
  ⟨s.location.past (s.ahead.take n), s.ahead.drop n⟩

/-- The end of the source. -/
def atEnd (s : Scanner) : Scanner := s.skip s.ahead.length

/-- Reads tokens up to the end of the source, or up to the first text that is no
token; those read so far are handed on in reverse (the loop of `tokenize`). -/
def tokensFrom (s : Scanner) (read : List Token) : Except LexError (List Token) × Scanner :=
  match Layout.front s.ahead with
  | .unclosed n => (.error ⟨.openComment, (s.skip n).location⟩, s.atEnd)
  | .ends n =>
    let t := s.skip n
    match _hf : Lexeme.front t.ahead with
    | none => (.ok read.reverse, t)
    | some (.error e) => (.error ⟨e.cause, (t.skip e.place).location⟩, t.skip e.reach)
    | some (.ok lexeme) => tokensFrom (t.skip lexeme.length) (⟨lexeme.kind, t.location⟩ :: read)
termination_by s.ahead.length
decreasing_by
  have hne : 0 < t.ahead.length := by
    rcases h : t.ahead with _ | ⟨c, rest⟩
    · rw [h] at _hf; simp [Lexeme.front] at _hf
    · simp
  have hle : t.ahead.length ≤ s.ahead.length := by simp [t, skip]
  have hpos := lexeme.length_pos
  simp only [skip, List.length_drop] at hne hle ⊢
  omega

/-- The tokens from here to the end of the source. -/
def tokens (s : Scanner) : Except LexError (List Token) × Scanner := s.tokensFrom []

end Scanner

/-- The tokens of a source (`tokenize`). -/
def tokenize (source : String) : Except LexError (List Token) :=
  (Scanner.ofSource source).tokens.1

end Lipi
