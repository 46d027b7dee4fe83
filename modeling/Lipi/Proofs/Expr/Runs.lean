/-
Runs of operators, with every table spelled out.

Operators that stand next to each other are glued to one row of characters and cut again, and any
other token becomes a piece of its own. Here is which operators are glued and what each brings,
the words with the signs they stand for (`Piece.fusable`); what each of the other tokens becomes
(`Piece.Becomes`); and the signs that a row is cut into, the longest first (`Piece.punctuation`).
`Piece.LaidOut` puts them together. It is the layout of `Piece.Fused`, which takes the same from
the tables of the program (`Piece.laidOut_iff`), so a slice is fused as these tables say
(`Piece.fuse_exact`).
-/
import Lipi.Proofs.Expr.Fusion
import Mathlib.Data.List.Forall2

set_option autoImplicit false

namespace Lipi

namespace Piece

/-! ## The tables -/

/-- The operators that join runs, with the characters that each brings. The three words for
values are not among them. -/
def fusable : List (Operator × String) :=
  [(.eqEq, "=="), (.notEq, "!="), (.le, "<="), (.ge, ">="), (.andAnd, "&&"), (.wordAnd, "&&"),
   (.wordOr, "||"), (.wordNot, "!"), (.orOr, "||"), (.assign, "="), (.lt, "<"), (.gt, ">"),
   (.plus, "+"), (.minus, "-"), (.star, "*"), (.slash, "/"), (.percent, "%"), (.bang, "!")]

/-- `Spells t text`: the token joins a run and brings the characters of `text`. -/
def Spells (t : Token) (text : String) : Prop :=
  ∃ o, t.kind = .operator o ∧ (o, text) ∈ fusable

/-- What a token outside the runs becomes. -/
inductive Becomes : Token.Kind → Kind → Prop where
  | integer (n : Nat) : Becomes (.integer n) (.value (.number (Decimal.toFloat false ⟨n, 0⟩)))
  | decimal (x : Float) : Becomes (.decimal x) (.value (.number x))
  | text (s : String) : Becomes (.text s) (.value (.text s))
  | identifier (name : String) : Becomes (.identifier name) (.name name)
  | wordTrue : Becomes (.operator .wordTrue) (.value (.bool true))
  | wordFalse : Becomes (.operator .wordFalse) (.value (.bool false))
  | wordNull : Becomes (.operator .wordNull) (.value .null)
  | openParen : Becomes (.symbol .openParen) .openParen
  | closeParen : Becomes (.symbol .closeParen) .closeParen
  | comma : Becomes (.symbol .comma) .comma
  | openBrace : Becomes (.symbol .openBrace) (.stray "\x7b")
  | closeBrace : Becomes (.symbol .closeBrace) (.stray "\x7d")
  | semicolon : Becomes (.symbol .semicolon) (.stray ";")
  | keyword (k : Keyword) : Becomes (.keyword k) (.stray k.word)

/-- The signs that a run is cut into. -/
def punctuation : List String :=
  ["===", "!==", "==", "!=", "<=", ">=", "&&", "||", "++", "--", "+=", "-=", "*=", "/=", "%=",
   "=", "<", ">", "+", "-", "*", "/", "%", "!"]

/-- Each sign is in the table, and is the longest there that its own characters and all that
follow them begin with. -/
def Longest : List Sign → Prop
  | [] => True
  | s :: rest => s.spelling ∈ punctuation
      ∧ (∀ text ∈ punctuation, text.toList <+: Sign.spelled (s :: rest) →
          text.length ≤ s.spelling.length)
      ∧ Longest rest

/-- How the pieces of a slice are laid out. A token outside the runs becomes one piece at its own
place. A run, which no other token joins on either side, becomes signs that spell what its tokens
spell, each as long as it can be, at the place of its first token. -/
inductive LaidOut : List Token → List Piece → Prop where
  | nil : LaidOut [] []
  | other {t : Token} {kind : Kind} {rest : List Token} {pieces : List Piece}
      (ht : Becomes t.kind kind) (h : LaidOut rest pieces) :
      LaidOut (t :: rest) (⟨kind, t.location⟩ :: pieces)
  | run {t : Token} {run rest : List Token} {texts : List String} {signs : List Sign}
      {pieces : List Piece} (hrun : List.Forall₂ Spells (t :: run) texts)
      (hrest : ∀ u, rest.head? = some u → ∀ text, ¬ Spells u text)
      (hspelled : Sign.spelled signs = texts.flatMap String.toList) (hlongest : Longest signs)
      (h : LaidOut rest pieces) :
      LaidOut (t :: (run ++ rest)) (signs.map (fun s => ⟨.sign s, t.location⟩) ++ pieces)

/-! ## They are the program's -/

theorem spells_iff {t : Token} {text : String} : Spells t text ↔ joins? t.kind = some text := by
  obtain ⟨kind, l⟩ := t
  cases kind with
  | operator o =>
    cases o <;> simp [Spells, fusable, joins?, runSpelling?, Operator.spelling, eq_comm]
  | _ => simp [Spells, joins?]

theorem joining_iff {t : Token} : joining t = true ↔ ∃ text, Spells t text := by
  simp only [spells_iff, joining, Option.isSome_iff_exists]

theorem joining_eq_false_iff {t : Token} : joining t = false ↔ ∀ text, ¬ Spells t text := by
  rw [← Bool.not_eq_true, joining_iff, not_exists]

theorem becomes_iff {kind : Token.Kind} {piece : Kind} :
    Becomes kind piece ↔ joins? kind = none ∧ piece = ofKind kind := by
  constructor
  · intro h
    cases h <;> exact ⟨rfl, rfl⟩
  · rintro ⟨hjoins, rfl⟩
    cases kind with
    | operator o =>
      cases o with
      | wordTrue => exact .wordTrue
      | wordFalse => exact .wordFalse
      | wordNull => exact .wordNull
      | _ => cases hjoins
    | symbol s => cases s <;> constructor
    | _ => constructor

/-- A run and what its tokens bring. -/
theorem forall₂_spells_iff {run : List Token} {texts : List String} :
    List.Forall₂ Spells run texts ↔ (∀ u ∈ run, joining u = true)
      ∧ texts = run.map fun u => (joins? u.kind).getD "" := by
  induction run generalizing texts with
  | nil => simp
  | cons t run ih =>
    rw [List.forall₂_cons_left_iff]
    constructor
    · rintro ⟨text, rest, hspells, hrest, rfl⟩
      obtain ⟨hjoining, rfl⟩ := ih.mp hrest
      refine ⟨List.forall_mem_cons.mpr ⟨joining_iff.mpr ⟨text, hspells⟩, hjoining⟩, ?_⟩
      rw [List.map_cons, spells_iff.mp hspells, Option.getD_some]
    · rintro ⟨hjoining, rfl⟩
      obtain ⟨ht, hrest⟩ := List.forall_mem_cons.mp hjoining
      obtain ⟨text, hspells⟩ := joining_iff.mp ht
      refine ⟨text, _, hspells, ih.mpr ⟨hrest, rfl⟩, ?_⟩
      rw [List.map_cons, spells_iff.mp hspells, Option.getD_some]

theorem mem_punctuation_iff {text : String} :
    text ∈ punctuation ↔ ∃ s : Sign, s.spelling = text := by
  have htable : punctuation = Sign.lexicon.map Sign.spelling := rfl
  rw [htable, List.mem_map]
  exact ⟨fun ⟨s, _, h⟩ => ⟨s, h⟩, fun ⟨s, h⟩ => ⟨s, s.mem_lexicon, h⟩⟩

theorem longest_iff {signs : List Sign} : Longest signs ↔ Sign.Greedy signs := by
  induction signs with
  | nil => exact Iff.rfl
  | cons s rest ih =>
    constructor
    · rintro ⟨-, hlongest, hrest⟩
      exact ⟨fun other hother => hlongest _ (mem_punctuation_iff.mpr ⟨other, rfl⟩) hother,
        ih.mp hrest⟩
    · rintro ⟨hlongest, hrest⟩
      refine ⟨mem_punctuation_iff.mpr ⟨s, rfl⟩, fun text htext hbegins => ?_, ih.mpr hrest⟩
      obtain ⟨other, rfl⟩ := mem_punctuation_iff.mp htext
      exact hlongest other hbegins

theorem glued_eq_flatMap (run : List Token) :
    glued run = (run.map fun u => (joins? u.kind).getD "").flatMap String.toList := by
  rw [List.flatMap_map, glued]

/-- **Both layouts are one.** -/
theorem laidOut_iff {tokens : List Token} {pieces : List Piece} :
    LaidOut tokens pieces ↔ Fused tokens pieces := by
  -- The rules are the same, one by one; only the tables that they look into differ.
  constructor
  · intro h
    induction h with
    | nil => exact .nil
    | other ht _ ih =>
      obtain ⟨hjoins, rfl⟩ := becomes_iff.mp ht
      exact .other hjoins ih
    | run hrun hrest hspelled hlongest _ ih =>
      obtain ⟨hjoining, rfl⟩ := forall₂_spells_iff.mp hrun
      rw [← glued_eq_flatMap] at hspelled
      exact .run hjoining (fun u hu => joining_eq_false_iff.mpr (hrest u hu)) hspelled
        (longest_iff.mp hlongest) ih
  · intro h
    induction h with
    | nil => exact .nil
    | other ht _ ih => exact .other (becomes_iff.mpr ⟨ht, rfl⟩) ih
    | run hrun hrest hspelled hgreedy _ ih =>
      rw [glued_eq_flatMap] at hspelled
      exact .run (forall₂_spells_iff.mpr ⟨hrun, rfl⟩)
        (fun u hu => joining_eq_false_iff.mp (hrest u hu)) hspelled (longest_iff.mpr hgreedy) ih

/-- **Fusing is total and exact.** Every slice of tokens has pieces, they are laid out as the
tables say, and nothing else is. -/
theorem fuse_exact (tokens : List Token) :
    ∃ pieces, fuse tokens = .ok pieces ∧ LaidOut tokens pieces
      ∧ ∀ other, LaidOut tokens other → other = pieces := by
  obtain ⟨pieces, hpieces⟩ := exists_fused tokens
  have hfuse : fuse tokens = .ok pieces := hpieces.fuseFrom_eq
  refine ⟨pieces, hfuse, laidOut_iff.mpr hpieces, fun other hother => ?_⟩
  have hsame : fuse tokens = .ok other := (laidOut_iff.mp hother).fuseFrom_eq
  exact Except.ok.inj (hsame.symm.trans hfuse)

end Piece

end Lipi
