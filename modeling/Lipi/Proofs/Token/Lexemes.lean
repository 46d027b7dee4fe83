/-
Lexemes read as the tokens they were written for.

A token is written by itself, without regard to how it was spelled: a text in double quotes
with everything awkward behind a backslash, a whole number in as few digits as it takes,
anything else by its word or sign. Each of these is a span that spells the token
(`Lexeme.Spells.lexeme`), with two exceptions. A text may hold a character that is written by
its code point, which quotes do not undo, or the null character, whose letter they read as a
nought; `Text.IsPlain` leaves both out. And a number with a point is written as its value, which may
be without one.

A blank stops every token, so lexemes with blanks between them tile the text they make
(`exists_tiled_lexemes`), and a text that is tiled is read as the tokens of its tiles.
-/
import Lipi.Proofs.Decimal.Numeral
import Lipi.Proofs.Expr.Leaves

set_option autoImplicit false

namespace Lipi

/-! ## Characters in quotes -/

/-- A printable character of the basic alphabet, a tab, a carriage return or a line feed. -/
def Text.IsPlain (c : Char) : Prop :=
  (0x20 ≤ c.toNat ∧ c.toNat ≤ 0x7E) ∨ c = '\t' ∨ c = '\r' ∨ c = '\n'

instance (c : Char) : Decidable (Text.IsPlain c) :=
  inferInstanceAs (Decidable (_ ∨ _))

theorem Text.IsPlain.ne_null {c : Char} (h : IsPlain c) : c ≠ '\x00' := by
  rintro rfl
  revert h
  decide

/-- A plain character is not written by its code point, unless a letter stands for it. -/
theorem Text.IsPlain.shown {c : Char} (h : IsPlain c) (htab : c ≠ '\t') (hreturn : c ≠ '\r')
    (hfeed : c ≠ '\n') : (isOverlaid c || !isPrintable c) = false := by
  obtain ⟨hlow, hhigh⟩ : 0x20 ≤ c.toNat ∧ c.toNat ≤ 0x7E := by
    simpa [IsPlain, htab, hreturn, hfeed] using h
  have hextending : isExtending c = false := by
    rw [isExtending, decide_eq_false (by omega), Bool.false_and]
  have hprintable : isPrintable c = true := by
    rw [isPrintable, if_pos (by omega), decide_eq_true hlow]
  rw [isOverlaid, hextending, hprintable]
  rfl

namespace Lexeme

/-- What a plain character is written as between quotes means that character. -/
theorem Quotes.escape {c : Char} (hc : Text.IsPlain c) {source text : List Char}
    (h : Quotes '"' source text) : Quotes '"' (Text.escaped c ++ source) (c :: text) := by
  by_cases htab : c = '\t'
  · subst htab
    exact .escaped 't' h
  by_cases hreturn : c = '\r'
  · subst hreturn
    exact .escaped 'r' h
  by_cases hfeed : c = '\n'
  · subst hfeed
    exact .escaped 'n' h
  by_cases hquote : c = '"'
  · subst hquote
    exact .escaped '"' h
  by_cases hslash : c = '\\'
  · subst hslash
    exact .escaped '\\' h
  have hself : Text.escaped c = [c] := by
    rw [Text.escaped, if_neg hc.ne_null, if_neg htab, if_neg hreturn, if_neg hfeed, if_neg hquote,
      if_neg hslash, hc.shown htab hreturn hfeed]
    rfl
  rw [hself]
  exact .plain hquote hslash h

theorem quotes_flatMap_escaped {text : List Char} (h : ∀ c ∈ text, Text.IsPlain c) :
    Quotes '"' (text.flatMap Text.escaped) text := by
  induction text with
  | nil => exact .nil
  | cons c text ih =>
    rw [List.forall_mem_cons] at h
    rw [List.flatMap_cons]
    exact (ih h.2).escape h.1

/-! ## Lexemes -/

theorem lexeme_wordKind (word : String) : (wordKind word).lexeme = word := by
  rw [wordKind]
  cases hfound : Keyword.ofWord? word with
  | none => rfl
  | some k =>
    have hword := List.find?_some hfound
    exact beq_iff_eq.mp hword

theorem toList_toString (n : Nat) : (toString n).toList = Nat.toDigits 10 n := by
  rw [Nat.toString_eq_repr, Nat.toList_repr]

/-- **A lexeme spells its token**, except for numbers with a point and for texts that hold
characters that are not plain. -/
theorem Spells.lexeme {span : List Char} {kind : Token.Kind} (h : Spells span kind)
    (hpoint : ∀ x, kind ≠ .decimal x)
    (htext : ∀ s, kind = .text s → ∀ c ∈ s.toList, Text.IsPlain c) :
    Spells kind.lexeme.toList kind := by
  cases h with
  | @text quote source text hquote hquotes =>
    have hplain := htext _ rfl
    rw [String.toList_ofList] at hplain
    rw [Token.Kind.lexeme, Text.quoted, String.toList_ofList, String.toList_ofList]
    exact .text (.inl rfl) (quotes_flatMap_escaped hplain)
  | @integer _ hne hdigits hlimit =>
    -- The digits may have begun with noughts, which the value does not keep.
    generalize Decimal.ofDigits span = n at hlimit
    have hspells : Spells (Nat.toDigits 10 n) (.integer (Decimal.ofDigits (Nat.toDigits 10 n))) :=
      .integer Nat.toDigits_ne_nil (Decimal.isDigit_of_mem_toDigits n)
        (by rwa [Decimal.ofDigits_toDigits])
    rw [Decimal.ofDigits_toDigits] at hspells
    rw [Token.Kind.lexeme, toList_toString]
    exact hspells
  | decimal => exact absurd rfl (hpoint _)
  | operator o => exact .operator o
  | symbol s =>
    rw [Token.Kind.lexeme, String.toList_singleton]
    exact .symbol s
  | word hc htail hoperator =>
    rw [lexeme_wordKind, String.toList_ofList]
    exact .word hc htail hoperator

end Lexeme

/-! ## Lexemes one behind the other -/

theorem Tile.kinds_tokens (l : Location) (tiles : List Tile) :
    Token.kinds (tokens l tiles) = tiles.map (·.kind) := by
  induction tiles generalizing l with
  | nil => rfl
  | cons tile tiles ih => rw [tokens, Token.kinds, List.map_cons, List.map_cons, ← Token.kinds, ih]

/-- A blank in front only widens the first gap. -/
theorem Tiled.blank {text : List Char} {tiles : List Tile} (h : Tiled text tiles) {c : Char}
    (hc : Text.isBlank c = true) :
    ∃ tiles', Tiled (c :: text) tiles' ∧ tiles'.map (·.kind) = tiles.map (·.kind) := by
  have hblank : Layout.Complete [c] := .blank hc .nil
  cases h with
  | last h => exact ⟨[], .last (hblank.append_trailing h), rfl⟩
  | @next tile rest tiles hgap hspan hstops h =>
    have hwider : Tiled (Tile.text { tile with gap := c :: tile.gap } ++ rest)
        ({ tile with gap := c :: tile.gap } :: tiles) := .next (.blank hc hgap) hspan hstops h
    exact ⟨_, hwider, rfl⟩

/-- A token as it is written, with nothing in front. -/
def Tile.written (k : Token.Kind) : Tile := ⟨[], k.lexeme.toList, k⟩

/-- **Lexemes with blanks between them tile a text**, if each spells its token. -/
theorem exists_tiled_lexemes {kinds : List Token.Kind}
    (h : ∀ k ∈ kinds, Lexeme.Spells k.lexeme.toList k) :
    ∃ tiles, Tiled ([' '].intercalate (kinds.map fun k => k.lexeme.toList)) tiles
      ∧ tiles.map (·.kind) = kinds := by
  induction kinds with
  | nil => exact ⟨[], .last (.inl .nil), rfl⟩
  | cons k rest ih =>
    rw [List.forall_mem_cons] at h
    obtain ⟨tiles, htiled, hkinds⟩ := ih h.2
    cases rest with
    | nil =>
      have hone : Tiled ((Tile.written k).text ++ []) [Tile.written k] :=
        .next .nil h.1 (Lexeme.stops_nil k) (.last (.inl .nil))
      rw [List.append_nil] at hone
      exact ⟨_, by simpa [List.intercalate, Tile.text, Tile.written] using hone, rfl⟩
    | cons k' more =>
      obtain ⟨tiles', htiled', hkinds'⟩ := htiled.blank (c := ' ') (by decide)
      generalize htext : [' '].intercalate ((k' :: more).map fun k => k.lexeme.toList) = text
        at htiled'
      have hstops : Lexeme.Stops k (' ' :: text) := by
        rintro _ ⟨⟩
        exact Lexeme.goesOn_of_isBlank (by decide) k
      have hnext : Tiled ((Tile.written k).text ++ ' ' :: text) (.written k :: tiles') :=
        .next .nil h.1 hstops htiled'
      refine ⟨.written k :: tiles', ?_, by rw [List.map_cons, hkinds', hkinds]; rfl⟩
      rw [← htext] at hnext
      simpa [List.intercalate, Tile.text, Tile.written] using hnext

/-- **Lexemes read back.** The lexemes of the tokens of a source, with blanks between them,
are read as tokens of the same kinds. -/
theorem tokenize_lexemes {source : String} {tokens : List Token} (h : tokenize source = .ok tokens)
    (hpoint : ∀ t ∈ tokens, ∀ x, t.kind ≠ .decimal x)
    (htext : ∀ t ∈ tokens, ∀ s, t.kind = .text s → ∀ c ∈ s.toList, Text.IsPlain c) :
    ∃ tokens', tokenize (" ".intercalate (tokens.map Token.lexeme)) = .ok tokens'
      ∧ Token.kinds tokens' = Token.kinds tokens := by
  have hspelled := spelled_of_tokenize h
  have hlexemes : ∀ k ∈ Token.kinds tokens, Lexeme.Spells k.lexeme.toList k := by
    intro k hk
    obtain ⟨span, hspan⟩ := hspelled k hk
    obtain ⟨t, ht, rfl⟩ := List.mem_map.mp hk
    exact hspan.lexeme (hpoint t ht) (htext t ht)
  obtain ⟨tiles, htiled, hkinds⟩ := exists_tiled_lexemes hlexemes
  have hjoined : (" ".intercalate (tokens.map Token.lexeme)).toList
      = [' '].intercalate ((Token.kinds tokens).map fun k => k.lexeme.toList) := by
    rw [String.toList_intercalate, List.map_map, Token.kinds, List.map_map]
    rfl
  rw [← hjoined] at htiled
  refine ⟨_, Scanner.tokensFrom_of_tiled htiled .start, ?_⟩
  rw [Tile.kinds_tokens, hkinds]

/-- Noughts in front of a number, single quotes and the want of blanks are not kept; the kinds
are. -/
theorem tokenize_lexemes_comparison :
    ∃ tokens, tokenize "kha=007=='\\t\"\\\\';" = .ok tokens
      ∧ " ".intercalate (tokens.map Token.lexeme) = "kha = 7 == \"\\t\\\"\\\\\" ;"
      ∧ ∃ tokens', tokenize (" ".intercalate (tokens.map Token.lexeme)) = .ok tokens'
        ∧ Token.kinds tokens' = Token.kinds tokens := by
  have hread : tokenize "kha=007=='\\t\"\\\\';" = .ok
      [⟨.identifier "kha", ⟨0, 1, 1⟩⟩, ⟨.operator .assign, ⟨3, 1, 4⟩⟩, ⟨.integer 7, ⟨4, 1, 5⟩⟩,
        ⟨.operator .eqEq, ⟨7, 1, 8⟩⟩, ⟨.text "\t\"\\", ⟨9, 1, 10⟩⟩,
        ⟨.symbol .semicolon, ⟨16, 1, 17⟩⟩] := by decide +kernel
  have hplain : ∀ c ∈ "\t\"\\".toList, Text.IsPlain c := by
    simp [Text.IsPlain]
  refine ⟨_, hread, by decide +kernel, tokenize_lexemes hread ?_ ?_⟩
  · simp
  · simp only [List.forall_mem_cons, List.not_mem_nil, reduceCtorEq, Token.Kind.text.injEq,
      false_implies, implies_true, forall_eq', and_true, true_and]
    exact hplain

end Lipi
