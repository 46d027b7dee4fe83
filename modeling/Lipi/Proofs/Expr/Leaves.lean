/-
What the names and values of an expression are.

An expression that is read from some tokens has its names and values from them: a name is
one of the identifiers, and a value is what one of the literals stands for
(`Expr.within_of_parse`). Signs bring nothing with them, and grouping leaves nothing behind.

Tokens that are read from a source are spelled there (`spelled_of_tokenize`), and so
its identifiers are words, a letter or an underscore and more of these and digits behind it
(`Lexeme.Spells.isWord`).
-/
import Lipi.Proofs.Expr.Fusion
import Lipi.Proofs.Expr.Slices

set_option autoImplicit false

namespace Lipi

variable {source : List Token}

/-! ## Expressions made of given tokens -/

/-- An expression whose names and values are those of some tokens. -/
def Expr.Within (source : List Token) : Expr → Prop
  | literal v => ∃ k ∈ Token.kinds source, Piece.ofKind k = .value v
  | var name => .identifier name ∈ Token.kinds source
  | unary _ operand => operand.Within source
  | binary _ left right => left.Within source ∧ right.Within source
  | assign name _ value => .identifier name ∈ Token.kinds source ∧ value.Within source
  | update name _ _ => .identifier name ∈ Token.kinds source

namespace Phrase

variable {phrase : Phrase} {pieces : List Piece} {e : Expr} {n : Nat}

/-- **What is derived from pieces is made of their names and values.** -/
theorem Derives.within (h : phrase.Derives pieces e n) (hpieces : ∀ p ∈ pieces, p.Within source) :
    e.Within source := by
  induction h with
  | assign name _ _ _ _ ih =>
    obtain ⟨hname, -, hvalue⟩ := List.forall_mem_cons.mp hpieces |>.imp_right List.forall_mem_cons.mp
    exact ⟨hname.quotes, ih hvalue⟩
  | join _ _ _ _ ihleft ihright =>
    obtain ⟨hleft, hright⟩ := List.forall_mem_append.mp hpieces
    exact ⟨ihleft hleft, ihright (List.forall_mem_cons.mp hright).2⟩
  -- A sign or a parenthesis is a piece that leaves nothing in the expression.
  | unary _ _ _ ih => exact ih (List.forall_mem_cons.mp hpieces).2
  | leading name l₁ l₂ => exact (hpieces ⟨.name name, l₂⟩ (by simp)).quotes
  | trailing _ _ _ ih => exact ih (List.forall_mem_append.mp hpieces).1
  | value v l => exact (hpieces ⟨.value v, l⟩ (by simp)).quotes
  | name name l => exact (hpieces ⟨.name name, l⟩ (by simp)).quotes
  | group _ _ _ ih =>
    exact ih (List.forall_mem_append.mp (List.forall_mem_cons.mp hpieces).2).1
  | ofJoined _ ih => exact ih hpieces
  | ofTighter _ ih => exact ih hpieces
  | ofStepped _ ih => exact ih hpieces
  | ofPrimary _ ih => exact ih hpieces

theorem Items.within {es : List Expr} (h : Items pieces es)
    (hpieces : ∀ p ∈ pieces, p.Within source) : ∀ e ∈ es, e.Within source := by
  induction h with
  | last h => exact List.forall_mem_singleton.mpr (h.within hpieces)
  | closed _ h =>
    exact List.forall_mem_singleton.mpr (h.within (List.forall_mem_append.mp hpieces).1)
  | next _ h _ ih =>
    obtain ⟨hfirst, hrest⟩ := List.forall_mem_append.mp hpieces
    exact List.forall_mem_cons.mpr ⟨h.within hfirst, ih (List.forall_mem_cons.mp hrest).2⟩

end Phrase

namespace Expr

variable {slice : List Token}

theorem within_of_parse (hslice : slice ⊆ source) {e : Expr} (h : parse slice = .ok e) :
    e.Within source := by
  obtain ⟨pieces, n, hfuse, hderives, -⟩ := derives_of_parse h
  obtain ⟨pieces', hfuse', hpieces⟩ := Piece.fuse_within hslice
  rw [hfuse] at hfuse'
  cases hfuse'
  exact hderives.within hpieces

theorem within_of_parseList (hslice : slice ⊆ source) {es : List Expr}
    (h : parseList slice = .ok es) : ∀ e ∈ es, e.Within source := by
  obtain ⟨pieces, hfuse, hitems⟩ := items_of_parseList h
  obtain ⟨pieces', hfuse', hpieces⟩ := Piece.fuse_within hslice
  rw [hfuse] at hfuse'
  cases hfuse'
  exact hitems.within hpieces

end Expr

/-! ## Tokens of a source -/

namespace Lexeme

/-- A letter or an underscore, and letters, underscores and digits behind it. -/
def IsWord (word : String) : Prop :=
  ∃ c tail, word = String.ofList (c :: tail) ∧ (c.isAlpha = true ∨ c = '_')
    ∧ ∀ d ∈ tail, isWordChar d = true

theorem isWord_of_all {word : String}
    (hhead : word.toList.head?.any (fun c => c.isAlpha || c == '_') = true)
    (hall : word.toList.all isWordChar = true) : IsWord word := by
  have hword : String.ofList word.toList = word := String.ofList_toList
  cases hlist : word.toList with
  | nil =>
    rw [hlist] at hhead
    cases hhead
  | cons c tail =>
    rw [hlist] at hhead hall hword
    have hc : c.isAlpha = true ∨ c = '_' := by simpa using hhead
    exact ⟨c, tail, hword.symm, hc, fun d hd => List.all_eq_true.mp hall d (List.mem_cons_of_mem c hd)⟩

theorem IsWord.forall_isWordChar {word : String} (h : IsWord word) :
    ∀ c ∈ word.toList, isWordChar c = true := by
  obtain ⟨c, tail, rfl, hc, htail⟩ := h
  rw [String.toList_ofList]
  exact List.forall_mem_cons.mpr ⟨isWordChar_of_isAlpha hc, htail⟩

/-- **An identifier is a word.** -/
theorem Spells.isWord {span : List Char} {name : String}
    (h : Spells span (.identifier name)) : IsWord name := by
  generalize hkind : Token.Kind.identifier name = kind at h
  cases h with
  | @word c tail hc htail _ =>
    unfold wordKind at hkind
    split at hkind
    · cases hkind
    · cases hkind
      exact ⟨c, tail, rfl, hc, htail⟩
  | _ => cases hkind

end Lexeme

theorem Tiled.exists_spells {text : List Char} {tiles : List Tile} (h : Tiled text tiles)
    (l : Location) : ∀ t ∈ Tile.tokens l tiles, ∃ span, Lexeme.Spells span t.kind := by
  intro t ht
  obtain ⟨_, span, _, -, -, hspan, -⟩ := h.exists_span l t ht
  exact ⟨span, hspan⟩

/-- Tokens that are spelled somewhere. -/
def Token.Spelled (source : List Token) : Prop :=
  ∀ k ∈ Token.kinds source, ∃ span, Lexeme.Spells span k

theorem Token.Spelled.isWord (h : Token.Spelled source) {name : String}
    (hname : .identifier name ∈ Token.kinds source) : Lexeme.IsWord name := by
  obtain ⟨span, hspan⟩ := h _ hname
  exact hspan.isWord

/-- **The tokens that are read are spelled in the source.** -/
theorem spelled_of_tokenize {text : String} {tokens : List Token}
    (h : tokenize text = .ok tokens) : Token.Spelled tokens := by
  intro k hk
  obtain ⟨t, ht, rfl⟩ := List.mem_map.mp hk
  obtain ⟨tiles, htiled, rfl⟩ := Scanner.exists_tiled h
  exact htiled.exists_spells _ t ht

end Lipi
