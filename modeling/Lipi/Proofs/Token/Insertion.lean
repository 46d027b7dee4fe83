/-
More layout between the tokens of a source.

Layout that begins with a blank can be put in front of any token (`Layout.Spacer`). It
lengthens the gap of one tile and touches nothing else: what stood before still stops where
it did, for it now meets either the same character or a blank (`Lexeme.Stops.spaced`). So
the tokens stay what they were, and only the offsets from there on grow
(`tokenize_inserted`).
-/
import Lipi.Proofs.Program.Grammar
import Lipi.Proofs.Token.Tiling

set_option autoImplicit false

namespace Lipi

/-- A source with a text put in at an offset. -/
def inserted (source : String) (offset : Nat) (text : List Char) : String :=
  String.ofList (source.toList.take offset ++ (text ++ source.toList.drop offset))

/-- Complete layout that begins with a blank. -/
structure Layout.Spacer (text : List Char) : Prop where
  complete : Layout.Complete text
  blank : ∃ c rest, text = c :: rest ∧ Text.isBlank c = true

/-- A token that stops where it does goes on to stop there. -/
theorem Lexeme.Stops.spaced {kind : Token.Kind} {gap rest w : List Char}
    (h : Stops kind (gap ++ rest)) (hw : Layout.Spacer w) : Stops kind (gap ++ (w ++ rest)) := by
  rcases gap with _ | ⟨d, gap⟩
  · obtain ⟨c, more, rfl, hc⟩ := hw.blank
    rintro _ ⟨⟩
    exact goesOn_of_isBlank hc kind
  · exact h.of_head? rfl

/-! ## Tiles -/

namespace Tile

theorem tokens_append (l : Location) (a b : List Tile) :
    tokens l (a ++ b) = tokens l a ++ tokens (l.past (a.flatMap text)) b := by
  induction a generalizing l with
  | nil => rfl
  | cons tile a ih =>
    rw [List.cons_append, tokens, ih, tokens, List.flatMap_cons, Location.past_append,
      List.cons_append]

/-- The gap before a token only leads to its place. -/
theorem tokens_gap (l : Location) (gap : List Char) (tile : Tile) (tiles : List Tile) :
    tokens l ({ tile with gap } :: tiles) = tokens (l.past gap) ({ tile with gap := [] } :: tiles) := by
  simp only [tokens, text, Location.past_append, Location.past_nil]

/-- A token stands where the gap of its tile ends. -/
theorem exists_of_mem_tokens {l : Location} {tiles : List Tile} {t : Token}
    (h : t ∈ tokens l tiles) : ∃ before tile after, tiles = before ++ tile :: after
      ∧ t.location = l.past (before.flatMap text ++ tile.gap) := by
  induction tiles generalizing l with
  | nil => cases h
  | cons first tiles ih =>
    rcases List.mem_cons.mp h with rfl | h
    · exact ⟨[], first, tiles, rfl, rfl⟩
    · obtain ⟨before, tile, after, rfl, hl⟩ := ih h
      refine ⟨first :: before, tile, after, rfl, ?_⟩
      rw [hl, List.flatMap_cons, List.append_assoc, ← Location.past_append]

theorem le_offset_of_mem {l : Location} {tiles : List Tile} {t : Token}
    (h : t ∈ tokens l tiles) : l.offset ≤ t.location.offset := by
  obtain ⟨before, tile, after, -, hl⟩ := exists_of_mem_tokens h
  rw [hl, Location.offset_past]
  exact Nat.le_add_right _ _

/-- Tokens that are read further on have offsets that are as much greater. -/
theorem tokens_moved {l l' : Location} {k : Nat} (h : l'.offset = l.offset + k)
    (tiles : List Tile) : Token.kinds (tokens l' tiles) = Token.kinds (tokens l tiles)
      ∧ (tokens l' tiles).map (·.location.offset)
        = (tokens l tiles).map (·.location.offset + k) := by
  induction tiles generalizing l l' with
  | nil => exact ⟨rfl, rfl⟩
  | cons tile tiles ih =>
    have hpast : ∀ text, (l'.past text).offset = (l.past text).offset + k := fun text => by
      rw [Location.offset_past, Location.offset_past, h]
      omega
    obtain ⟨hkinds, hoffsets⟩ := ih (hpast tile.text)
    refine ⟨congrArg (tile.kind :: ·) hkinds, ?_⟩
    rw [tokens, tokens, List.map_cons, List.map_cons, hoffsets, hpast]

end Tile

namespace Tiled

/-- The tokens of tiles start before the tiles end. -/
theorem offset_lt {text : List Char} {before after : List Tile}
    (h : Tiled text (before ++ after)) {l : Location} {t : Token}
    (ht : t ∈ Tile.tokens l before) :
    t.location.offset < (l.past (before.flatMap Tile.text)).offset := by
  induction before generalizing l text with
  | nil => cases ht
  | cons tile before ih =>
    cases h with
    | next hgap hspan hstops hrest =>
      rw [List.flatMap_cons, Location.past_append]
      rcases List.mem_cons.mp ht with rfl | ht
      · have hpos := hspan.length_pos
        simp only [Location.offset_past, Tile.text, List.length_append]
        omega
      · exact ih hrest ht

/-- **A gap may be longer.** -/
theorem spaced {text w : List Char} {before after : List Tile} {tile : Tile}
    (h : Tiled text (before ++ tile :: after)) (hw : Layout.Spacer w) :
    ∃ rest, text = before.flatMap Tile.text ++ tile.gap ++ rest
      ∧ Tiled (before.flatMap Tile.text ++ tile.gap ++ (w ++ rest))
        (before ++ { tile with gap := tile.gap ++ w } :: after) := by
  induction before generalizing text with
  | nil =>
    cases h with
    | @next _ rest _ hgap hspan hstops hrest =>
      refine ⟨tile.span ++ rest, ?_, ?_⟩
      · rw [Tile.text, List.append_assoc]
        rfl
      · have hspaced : Tiled (Tile.text { tile with gap := tile.gap ++ w } ++ rest)
            ({ tile with gap := tile.gap ++ w } :: after) :=
          .next (hgap.append hw.complete) hspan hstops hrest
        simpa only [Tile.text, List.flatMap_nil, List.nil_append, List.append_assoc] using hspaced
  | cons first before ih =>
    cases h with
    | next hgap hspan hstops hrest =>
      obtain ⟨rest, rfl, hspaced⟩ := ih hrest
      refine ⟨rest, ?_, ?_⟩
      · simp only [List.flatMap_cons, List.append_assoc]
      · rw [List.flatMap_cons]
        have hnext := Tiled.next hgap hspan (hstops.spaced hw) hspaced
        simpa only [List.append_assoc, List.cons_append] using hnext

end Tiled

/-! ## Sources -/

/-- **Layout in front of a token leaves the tokens what they are** and moves those from there
on. -/
theorem tokenize_inserted {source : String} {tokens : List Token}
    (h : tokenize source = .ok tokens) {t : Token} (ht : t ∈ tokens) {w : List Char}
    (hw : Layout.Spacer w) :
    ∃ tokens', tokenize (inserted source t.location.offset w) = .ok tokens'
      ∧ Token.kinds tokens' = Token.kinds tokens
      ∧ tokens'.map (·.location.offset) = tokens.map fun u =>
        if u.location.offset < t.location.offset then u.location.offset
        else u.location.offset + w.length := by
  obtain ⟨tiles, htiled, htokens⟩ := Scanner.exists_tiled h
  change Tiled source.toList tiles at htiled
  change tokens = Tile.tokens .start tiles at htokens
  subst htokens
  obtain ⟨before, tile, after, rfl, hl⟩ := Tile.exists_of_mem_tokens ht
  obtain ⟨rest, htext, hspaced⟩ := htiled.spaced hw
  have hoffset : t.location.offset = (before.flatMap Tile.text ++ tile.gap).length := by
    rw [hl, Location.offset_past]
    exact Nat.zero_add _
  have hsource : (inserted source t.location.offset w).toList
      = before.flatMap Tile.text ++ tile.gap ++ (w ++ rest) := by
    rw [inserted, String.toList_ofList, htext, hoffset, List.take_left, List.drop_left]
  have hread := Scanner.tokensFrom_of_tiled hspaced .start
  rw [← hsource] at hread
  refine ⟨_, hread, ?_⟩
  have hmoved : ((Location.start.past (before.flatMap Tile.text)).past (tile.gap ++ w)).offset
      = ((Location.start.past (before.flatMap Tile.text)).past tile.gap).offset + w.length := by
    simp only [Location.offset_past, List.length_append]
    omega
  have hbefore : ∀ u ∈ Tile.tokens .start before, u.location.offset < t.location.offset := by
    intro u hu
    have hlt := htiled.offset_lt hu
    rw [hl, Location.offset_past, List.length_append, ← Nat.add_assoc, ← Location.offset_past]
    exact Nat.lt_add_right _ hlt
  -- The tokens before are the same; from this one on they are as many, further on.
  obtain ⟨hkinds, hoffsets⟩ := Tile.tokens_moved hmoved ({ tile with gap := [] } :: after)
  rw [← Tile.tokens_gap, ← Tile.tokens_gap] at hkinds hoffsets
  rw [Tile.tokens_append, Tile.tokens_append]
  refine ⟨?_, ?_⟩
  · rw [Token.kinds_append, Token.kinds_append, hkinds]
  · rw [List.map_append, List.map_append, hoffsets]
    congr 1
    · exact List.map_congr_left fun u hu => (if_pos (hbefore u hu)).symm
    · refine List.map_congr_left fun u hu => (if_neg ?_).symm
      have hle := Tile.le_offset_of_mem (Tile.tokens_gap _ tile.gap tile after ▸ hu)
      rw [hl, Location.past_append]
      exact Nat.not_lt.mpr hle

end Lipi
