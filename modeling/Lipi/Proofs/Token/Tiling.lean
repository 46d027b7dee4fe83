/-
Scanning tiles a source.

A tile is a piece of layout and the span of a token after it. A source is tiled if tiles
stand one behind the other, each span stopped by what follows it, and layout to the end
behind the last (`Tiled`). Scanning reads a source exactly if it is tiled, and as the tokens
of its tiles (`tokensFrom_of_tiled`, `exists_tiled`): this is an induction along the scan, in
which one step takes one tile off the front.

`tokenize_tiles` says it in offsets, for every source. The tokens and the ends of their
spans divide the source into layout and texts that each read as one token by themselves
(`Tiling`). Every place that is reported, of a token or of what cannot be read, is a
character of the source, with the line and the column that counting line feeds gives
(`Location.IsOf`).
-/
import Lipi.Proofs.Token.Spelling

set_option autoImplicit false

namespace Lipi

/-! ## Places -/

/-- A place is a character of a source, and line and column are what counting gives: the
line feeds before it, and the characters since the last of these. -/
structure Location.IsOf (source : List Char) (l : Location) : Prop where
  inside : l.offset < source.length
  line : l.line = 1 + (source.take l.offset).count '\n'
  column : l.column = 1 + ((source.take l.offset).reverse.takeWhile (· != '\n')).length

/-- The place that a text leads to from the start, the text given backwards. -/
theorem Location.past_reverse (text : List Char) :
    Location.start.past text.reverse
      = ⟨text.length, 1 + text.count '\n', 1 + (text.takeWhile (· != '\n')).length⟩ := by
  induction text with
  | nil => rfl
  | cons c text ih =>
    rw [List.reverse_cons, past_append, ih, past_cons, past_nil, next, List.count_cons,
      List.takeWhile_cons, List.length_cons]
    by_cases hc : c = '\n'
    · subst hc
      rfl
    · simp [hc, Nat.add_comm]

/-- A place before a character is a character of the source. -/
theorem Location.isOf_past (before rest : List Char) (h : rest ≠ []) :
    (Location.start.past before).IsOf (before ++ rest) := by
  have hpast := past_reverse before.reverse
  rw [List.reverse_reverse] at hpast
  have htake : (before ++ rest).take before.reverse.length = before := by
    rw [List.length_reverse, List.take_left]
  rw [hpast]
  refine ⟨?_, ?_, ?_⟩
  · rw [List.length_reverse, List.length_append]
    exact Nat.lt_add_of_pos_right (List.length_pos_iff.mpr h)
  · rw [htake, List.count_reverse]
  · rw [htake]

/-! ## Tiles -/

/-- Layout, and the span of a token after it. -/
structure Tile where
  gap : List Char
  span : List Char
  kind : Token.Kind

namespace Tile

/-- The characters of a tile. -/
def text (tile : Tile) : List Char := tile.gap ++ tile.span

/-- The tokens of tiles that stand one behind the other. -/
def tokens (l : Location) : List Tile → List Token
  | [] => []
  | tile :: tiles => ⟨tile.kind, l.past tile.gap⟩ :: tokens (l.past tile.text) tiles

end Tile

/-- A text is tiled: layout and spans by turns, and layout to the end. -/
inductive Tiled : List Char → List Tile → Prop where
  | last {rest : List Char} (h : Layout.Trailing rest) : Tiled rest []
  | next {tile : Tile} {rest : List Char} {tiles : List Tile} (hgap : Layout.Complete tile.gap)
      (hspan : Lexeme.Spells tile.span tile.kind) (hstops : Lexeme.Stops tile.kind rest)
      (h : Tiled rest tiles) : Tiled (tile.text ++ rest) (tile :: tiles)

namespace Scanner

theorem skip_left (l : Location) (a b : List Char) :
    (Scanner.mk l (a ++ b)).skip a.length = ⟨l.past a, b⟩ := by
  simp only [skip, List.take_left, List.drop_left]

/-- **A tiled text is read as the tokens of its tiles.** -/
theorem tokensFrom_of_tiled {text : List Char} {tiles : List Tile} (h : Tiled text tiles)
    (l : Location) :
    ((Scanner.mk l text).tokensFrom []).1 = .ok (Tile.tokens l tiles) := by
  induction h generalizing l with
  | @last rest h =>
    have hfront : Layout.front (Scanner.mk l rest).ahead = .ends rest.length := by
      rw [Layout.front, h.measure, Nat.zero_add]
    rw [tokensFrom_end hfront List.drop_length]
    rfl
  | @next tile rest tiles hgap hspan hstops _ ih =>
    obtain ⟨hpos, hlex⟩ := Lexeme.front_of_spells hspan hstops
    have hfront : Layout.front (tile.text ++ rest) = .ends tile.gap.length := by
      rw [Layout.front, Tile.text, List.append_assoc, hgap.measure,
        (hspan.clear hstops).measure, Nat.zero_add]
    have hgap' : (Scanner.mk l (tile.text ++ rest)).skip tile.gap.length
        = ⟨l.past tile.gap, tile.span ++ rest⟩ := by
      rw [Tile.text, List.append_assoc, skip_left]
    rw [tokensFrom_eq hfront, hgap', hlex]
    dsimp only
    rw [skip_left, tokensFrom_read, ← Location.past_append, ← Tile.text, ih]
    rfl

/-- **What is read is tiled.** -/
theorem exists_tiled {s : Scanner} {tokens : List Token} (h : (s.tokensFrom []).1 = .ok tokens) :
    ∃ tiles, Tiled s.ahead tiles ∧ tokens = Tile.tokens s.location tiles := by
  induction s using scan_induction generalizing tokens with
  | unclosed s n hfront =>
    rw [tokensFrom_unclosed hfront] at h
    cases h
  | ended s n hfront hlex =>
    have hend := Lexeme.front_eq_none_iff.mp hlex
    rw [tokensFrom_end hfront hend] at h
    cases h
    obtain ⟨k, rfl, hends⟩ := Layout.measure_ends hfront
    rcases hends with ⟨gap, rest, htext, rfl, -, hclear⟩ | ⟨-, htrailing⟩
    · -- Nothing is ahead, so layout cannot have ended before something else.
      obtain ⟨c, tail, rfl, -⟩ := hclear
      rw [skip, htext, Nat.zero_add, List.drop_left] at hend
      cases hend
    · exact ⟨[], .last htrailing, rfl⟩
  | failure s n e hfront hlex =>
    rw [tokensFrom_failure hfront hlex] at h
    cases h
  | step s n lexeme hfront hlex ih =>
    obtain ⟨l, text⟩ := s
    obtain ⟨k, rfl, hends⟩ := Layout.measure_ends hfront
    rw [tokensFrom_lexeme hfront hlex, tokensFrom_read] at h
    rw [Nat.zero_add] at hlex h ih
    rcases hends with ⟨gap, ahead, rfl, rfl, hgap, hclear⟩ | ⟨rfl, -⟩
    · rw [skip_left] at hlex h ih
      obtain ⟨span, rest, rfl, hlength, hspan, hstops⟩ :=
        Lexeme.exists_spells_of_front hclear hlex
      rw [hlength, skip_left, ← Location.past_append] at h ih
      cases hrest : ((Scanner.mk (l.past (gap ++ span)) rest).tokensFrom []).1 with
      | error e =>
        rw [hrest] at h
        cases h
      | ok more =>
        obtain ⟨tiles, htiled, rfl⟩ := ih hrest
        rw [hrest] at h
        cases h
        have htile : Tiled (Tile.text ⟨gap, span, lexeme.kind⟩ ++ rest)
            (⟨gap, span, lexeme.kind⟩ :: tiles) := .next hgap hspan hstops htiled
        refine ⟨⟨gap, span, lexeme.kind⟩ :: tiles, ?_, rfl⟩
        rw [← List.append_assoc]
        exact htile
    · rw [skip, List.drop_length] at hlex
      cases hlex

end Scanner

/-! ## What is ahead where a place is reported -/

/-- Every token of a tiled text is spelled at its place, and stopped by what follows there. -/
theorem Tiled.exists_span {text : List Char} {tiles : List Tile} (h : Tiled text tiles)
    (l : Location) : ∀ t ∈ Tile.tokens l tiles, ∃ before span after,
      text = before ++ (span ++ after) ∧ t.location = l.past before
        ∧ Lexeme.Spells span t.kind ∧ Lexeme.Stops t.kind after := by
  induction h generalizing l with
  | last => nofun
  | @next tile rest tiles hgap hspan hstops _ ih =>
    intro t ht
    rcases List.mem_cons.mp ht with rfl | ht
    · refine ⟨tile.gap, tile.span, rest, ?_, rfl, hspan, hstops⟩
      rw [Tile.text, List.append_assoc]
    · obtain ⟨before, span, after, rfl, hl, hspan, hstops⟩ := ih _ t ht
      refine ⟨tile.text ++ before, span, after, ?_, ?_, hspan, hstops⟩
      · rw [List.append_assoc]
      · rw [hl, Location.past_append]

/-- Every token of a tiled text starts at one of its characters. -/
theorem Tiled.exists_ahead {text : List Char} {tiles : List Tile} (h : Tiled text tiles)
    (l : Location) : ∀ t ∈ Tile.tokens l tiles, ∃ before rest, text = before ++ rest
      ∧ rest ≠ [] ∧ t.location = l.past before := by
  intro t ht
  obtain ⟨before, span, after, htext, hl, hspan, -⟩ := h.exists_span l t ht
  refine ⟨before, span ++ after, htext, ?_, hl⟩
  have hpos := hspan.length_pos
  intro he
  rw [(List.append_eq_nil_iff.mp he).1] at hpos
  cases hpos

/-- A comment that never closes opens at a character of the text. -/
theorem Layout.measure_unclosed_lt {text : List Char} {passed n : Nat}
    (h : Layout.measure text passed = .unclosed n) : n < passed + text.length := by
  induction text, passed using Layout.measure.induct with
  | case1 passed rest body ih =>
    rw [measure_lineComment] at h
    have hlt := ih h
    have hle : body.length ≤ rest.length := length_takeWhile_le rest
    simp only [List.length_cons, List.length_drop] at hlt ⊢
    omega
  | case2 passed rest n hn ih =>
    rw [measure_blockComment hn] at h
    have hlt := ih h
    have hle := commentLength?_le hn
    simp only [List.length_cons, List.length_drop] at hlt ⊢
    omega
  | case3 passed rest hk =>
    rw [measure_openComment hk] at h
    cases h
    simp only [List.length_cons]
    omega
  | case4 passed c rest hl hb hblank ih =>
    rw [measure_blank hblank] at h
    have hlt := ih h
    simp only [List.length_cons]
    omega
  | case5 passed c rest hl hb hblank =>
    rw [measure_other (Bool.eq_false_iff.mpr hblank) hl hb] at h
    cases h
  | case6 passed =>
    rw [measure_nil] at h
    cases h

/-- What cannot be read starts at one of the characters ahead. -/
theorem Scanner.exists_ahead_of_error {s : Scanner} {e : LexError}
    (h : (s.tokensFrom []).1 = .error e) : ∃ before rest, s.ahead = before ++ rest
      ∧ rest ≠ [] ∧ e.location = s.location.past before := by
  -- A failure somewhere ahead is a number of characters to skip.
  suffices hn : ∃ n, n < s.ahead.length ∧ e.location = (s.skip n).location by
    obtain ⟨n, hlt, hl⟩ := hn
    refine ⟨s.ahead.take n, s.ahead.drop n, (List.take_append_drop n _).symm, ?_, hl⟩
    rw [ne_eq, List.drop_eq_nil_iff]
    omega
  induction s using scan_induction with
  | unclosed s n hfront =>
    rw [tokensFrom_unclosed hfront] at h
    cases h
    have hlt := Layout.measure_unclosed_lt hfront
    exact ⟨n, by omega, rfl⟩
  | ended s n hfront hlex =>
    rw [tokensFrom_eq hfront, hlex] at h
    cases h
  | failure s n failure hfront hlex =>
    rw [tokensFrom_failure hfront hlex] at h
    cases h
    have hlt := Lexeme.place_lt_of_front hlex
    simp only [skip, List.length_drop] at hlt
    refine ⟨n + failure.place, by omega, ?_⟩
    rw [skip_skip]
  | step s n lexeme hfront hlex ih =>
    rw [tokensFrom_lexeme hfront hlex, tokensFrom_read] at h
    cases hrest : (((s.skip n).skip lexeme.length).tokensFrom []).1 with
    | ok tokens =>
      rw [hrest] at h
      cases h
    | error e' =>
      rw [hrest] at h
      cases h
      obtain ⟨k, hk, hl⟩ := ih hrest
      simp only [skip, List.length_drop] at hk
      refine ⟨n + lexeme.length + k, by omega, ?_⟩
      rw [hl, skip_skip, skip_skip, Nat.add_assoc]

/-! ## A source in offsets -/

/-- The characters of a source from one offset up to another. -/
def slice (source : List Char) (start stop : Nat) : List Char :=
  (source.take stop).drop start

theorem slice_append (before middle after : List Char) :
    slice (before ++ (middle ++ after)) before.length (before.length + middle.length)
      = middle := by
  rw [slice, ← List.append_assoc, ← List.length_append, List.take_left, List.drop_left]

/-- Tokens and the ends of their spans divide a source from an offset on: complete layout
lies before each token, its span reads as this token by itself, and behind the last there is
layout to the end. -/
inductive Tiling (source : List Char) : Nat → List Token → List Nat → Prop where
  | last {start : Nat} (hstart : start ≤ source.length)
      (hgap : Layout.Trailing (source.drop start)) : Tiling source start [] []
  | next {start stop : Nat} {t : Token} {tokens : List Token} {ends : List Nat}
      (hstart : start ≤ t.location.offset) (hstop : t.location.offset < stop)
      (hinside : stop ≤ source.length)
      (hgap : Layout.Complete (slice source start t.location.offset))
      (hspan : tokenize (String.ofList (slice source t.location.offset stop))
        = .ok [⟨t.kind, .start⟩])
      (hrest : Tiling source stop tokens ends) : Tiling source start (t :: tokens) (stop :: ends)

/-- A span reads as its token by itself. -/
theorem Lexeme.Spells.tokenize {span : List Char} {kind : Token.Kind} (h : Spells span kind) :
    Lipi.tokenize (String.ofList span) = .ok [⟨kind, .start⟩] := by
  have htiled : Tiled (Tile.text ⟨[], span, kind⟩ ++ []) [⟨[], span, kind⟩] :=
    .next .nil h (stops_nil kind) (.last (.inl .nil))
  have hread := Scanner.tokensFrom_of_tiled htiled .start
  rw [Tile.text, List.nil_append, List.append_nil] at hread
  rw [Lipi.tokenize, Scanner.ofSource, String.toList_ofList]
  exact hread

/-- Tiles behind a piece of a source divide what is left of it. -/
theorem Tiled.exists_tiling {text : List Char} {tiles : List Tile} (h : Tiled text tiles)
    (before : List Char) : ∃ ends, Tiling (before ++ text) before.length
      (Tile.tokens (Location.start.past before) tiles) ends := by
  induction h generalizing before with
  | @last rest h =>
    refine ⟨[], .last ?_ ?_⟩
    · rw [List.length_append]
      exact Nat.le_add_right _ _
    · rw [List.drop_left]
      exact h
  | @next tile rest tiles hgap hspan hstops _ ih =>
    obtain ⟨ends, hends⟩ := ih (before ++ tile.text)
    have hoffset : ((Location.start.past before).past tile.gap).offset
        = before.length + tile.gap.length := by
      rw [Location.offset_past, Location.offset_past]
      exact congrArg (· + _) (Nat.zero_add _)
    have hpos := hspan.length_pos
    refine ⟨(before ++ tile.text).length :: ends, .next ?_ ?_ ?_ ?_ ?_ ?_⟩
    · rw [hoffset]
      exact Nat.le_add_right _ _
    · simp only [hoffset, Tile.text, List.length_append]
      omega
    · simp only [List.length_append]
      omega
    · rw [hoffset, Tile.text, List.append_assoc, slice_append]
      exact hgap
    · have hslice := slice_append (before ++ tile.gap) tile.span rest
      simp only [hoffset, Tile.text, List.append_assoc, List.length_append] at hslice ⊢
      rw [← Nat.add_assoc, hslice]
      exact hspan.tokenize
    · rw [← List.append_assoc, ← Location.past_append]
      exact hends

/-- **Scanning tiles every source**, and every place it reports is a character of it. -/
theorem tokenize_tiles (source : String) :
    match tokenize source with
    | .ok tokens => (∃ ends, Tiling source.toList 0 tokens ends)
        ∧ ∀ t ∈ tokens, t.location.IsOf source.toList
    | .error e => e.location.IsOf source.toList := by
  cases h : tokenize source with
  | ok tokens =>
    obtain ⟨tiles, htiled, rfl⟩ := Scanner.exists_tiled h
    refine ⟨htiled.exists_tiling [], fun t ht => ?_⟩
    obtain ⟨before, rest, htext, hrest, hl⟩ := htiled.exists_ahead _ t ht
    have hsource : source.toList = before ++ rest := htext
    rw [hsource, hl]
    exact Location.isOf_past before rest hrest
  | error e =>
    obtain ⟨before, rest, htext, hrest, hl⟩ := Scanner.exists_ahead_of_error h
    have hsource : source.toList = before ++ rest := htext
    dsimp only
    rw [hsource, hl]
    exact Location.isOf_past before rest hrest

end Lipi
