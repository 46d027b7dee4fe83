/-
What becomes of the tokens of a slice.

Tokens fall into runs of operators that stand next to each other, each as long as it can be, and
the tokens between them. The pieces of a slice are laid out in the same order (`Fused`): a run
becomes signs that spell what its operators spell, each sign the longest that fits, all at the
place where the run starts, and a token between runs becomes one piece at its own place. The
induction is on this layout and not on the tokens, because a run is open while its tokens are
taken and is cut only at its end (`Fused.fuseFrom_eq`). Which tokens join a run is taken here
from the tables of the program; `Lipi.Proofs.Expr.Runs` spells them out.

So every slice becomes pieces, and each piece has the place and the text of a token of the
slice (`fuse_within`).
-/
import Lipi.Expr.Fusion
import Lipi.Proofs.Expr.Gluing
import Lipi.Proofs.SyntaxError
import Lipi.Proofs.Text.Stretch

set_option autoImplicit false

namespace Lipi

namespace Piece

/-! ## Runs of tokens -/

/-- Whether a token joins a run of operators. -/
def joining (t : Token) : Bool := (joins? t.kind).isSome

/-- The characters that a run of tokens is glued to. -/
def glued (run : List Token) : List Char :=
  run.flatMap fun t => ((joins? t.kind).getD "").toList

theorem glued_cons {t : Token} {spelling : String} (h : joins? t.kind = some spelling)
    (run : List Token) : glued (t :: run) = spelling.toList ++ glued run := by
  rw [glued, List.flatMap_cons, h]
  rfl

theorem exists_joins {t : Token} (h : joining t = true) :
    ∃ spelling, joins? t.kind = some spelling :=
  Option.isSome_iff_exists.mp h

/-- A token that joins a run brings at least one character. -/
theorem joins_ne_nil {kind : Token.Kind} {spelling : String} (h : joins? kind = some spelling) :
    spelling.toList ≠ [] := by
  cases kind with
  | operator o =>
    cases o with
    | wordTrue | wordFalse | wordNull => cases h
    | _ =>
      cases h
      decide
  | _ => cases h

theorem glued_of_joins {kind : Token.Kind} {spelling : String} (h : joins? kind = some spelling) :
    Glued spelling.toList := by
  cases kind with
  | operator o => exact .of_runSpelling? h
  | _ => cases h

/-- A run of tokens is a row that can be cut. -/
theorem glued_glued {run : List Token} (hrun : ∀ u ∈ run, joining u = true) :
    Glued (glued run) := by
  induction run with
  | nil => exact .nil
  | cons t run ih =>
    obtain ⟨ht, hrun⟩ := List.forall_mem_cons.mp hrun
    obtain ⟨spelling, hspelling⟩ := exists_joins ht
    rw [glued_cons hspelling]
    exact (glued_of_joins hspelling).append (ih hrun)

/-! ## The layout -/

/-- How the pieces of a slice are laid out: a token that joins no run is one piece at its own
place, and a run that nothing joins on either side is cut greedily, with its signs at the place
of its first token. -/
inductive Fused : List Token → List Piece → Prop where
  | nil : Fused [] []
  | other {t : Token} {rest : List Token} {pieces : List Piece} (ht : joins? t.kind = none)
      (h : Fused rest pieces) : Fused (t :: rest) (⟨ofKind t.kind, t.location⟩ :: pieces)
  | run {t : Token} {run rest : List Token} {signs : List Sign} {pieces : List Piece}
      (hrun : ∀ u ∈ t :: run, joining u = true)
      (hrest : ∀ u, rest.head? = some u → joining u = false)
      (hspelled : Sign.spelled signs = glued (t :: run)) (hgreedy : Sign.Greedy signs)
      (h : Fused rest pieces) :
      Fused (t :: (run ++ rest)) (signs.map (fun s => ⟨.sign s, t.location⟩) ++ pieces)

/-- Every slice can be laid out. -/
theorem exists_fused (tokens : List Token) : ∃ pieces, Fused tokens pieces := by
  induction hlength : tokens.length using Nat.strongRecOn generalizing tokens with
  | _ length ih =>
  rcases tokens with _ | ⟨t, tokens⟩
  · exact ⟨[], .nil⟩
  · rw [List.length_cons] at hlength
    cases hjoins : joins? t.kind with
    | none =>
      obtain ⟨pieces, hpieces⟩ := ih tokens.length (by omega) tokens rfl
      exact ⟨_, .other hjoins hpieces⟩
    | some spelling =>
      obtain ⟨run, rest, rfl, -, hrun, hrest⟩ := exists_stretch joining tokens
      rw [List.length_append] at hlength
      obtain ⟨pieces, hpieces⟩ := ih rest.length (by omega) rest rfl
      have hjoining : joining t = true := Option.isSome_iff_exists.mpr ⟨spelling, hjoins⟩
      have hall : ∀ u ∈ t :: run, joining u = true := List.forall_mem_cons.mpr ⟨hjoining, hrun⟩
      obtain ⟨signs, hspelled, hgreedy⟩ := (glued_glued hall).exists_greedy
      exact ⟨_, .run hall hrest hspelled hgreedy hpieces⟩

/-! ## Taking the tokens -/

section Taking

variable {rest : List Token} {read : List Piece}

/-- Tokens that join an open run add what they spell and move nothing. -/
theorem fuseFrom_joining {run : List Token} (hrun : ∀ u ∈ run, joining u = true)
    {place : Location} {spelled : List Char} (hopen : spelled ≠ []) :
    fuseFrom (run ++ rest) ⟨place, spelled⟩ read
      = fuseFrom rest ⟨place, (glued run).reverse ++ spelled⟩ read := by
  induction run generalizing spelled with
  | nil => rfl
  | cons t run ih =>
    obtain ⟨ht, hrun⟩ := List.forall_mem_cons.mp hrun
    obtain ⟨spelling, hspelling⟩ := exists_joins ht
    have hjoin : Run.join ⟨place, spelled⟩ spelling t.location
        = ⟨place, spelling.toList.reverse ++ spelled⟩ := by
      rw [Run.join, if_neg fun h => hopen (List.isEmpty_iff.mp h)]
    rw [List.cons_append, fuseFrom, hspelling]
    dsimp only
    rw [hjoin, ih hrun (List.append_ne_nil_of_right_ne_nil _ hopen), glued_cons hspelling,
      List.reverse_append, List.append_assoc]

/-- The first token of a run opens it at its place. -/
theorem fuseFrom_run {t : Token} {run : List Token} (hrun : ∀ u ∈ t :: run, joining u = true) :
    fuseFrom (t :: (run ++ rest)) .empty read
      = fuseFrom rest ⟨t.location, (glued (t :: run)).reverse⟩ read := by
  obtain ⟨ht, hrun⟩ := List.forall_mem_cons.mp hrun
  obtain ⟨spelling, hspelling⟩ := exists_joins ht
  have hjoin : Run.empty.join spelling t.location = ⟨t.location, spelling.toList.reverse⟩ := by
    rw [Run.join, Run.empty, List.append_nil]
    rfl
  have hopen : spelling.toList.reverse ≠ [] :=
    fun h => joins_ne_nil hspelling (List.reverse_eq_nil_iff.mp h)
  rw [fuseFrom, hspelling]
  dsimp only
  rw [hjoin, fuseFrom_joining hrun hopen, glued_cons hspelling, List.reverse_append]

/-- Where no token joins it, an open run is cut and nothing is open. -/
theorem fuseFrom_closed (hrest : ∀ u, rest.head? = some u → joining u = false) {run : Run}
    {signs : List Sign} (hcut : Sign.cut run.spelled.reverse [] = .ok signs) :
    fuseFrom rest run read
      = fuseFrom rest .empty ((signs.map fun s => ⟨.sign s, run.start⟩).reverse ++ read) := by
  have hflush : run.flush read
      = .ok ((signs.map fun s => ⟨.sign s, run.start⟩).reverse ++ read) := by
    rw [Run.flush, hcut]
  have hnothing (pieces : List Piece) : Run.empty.flush pieces = .ok pieces := by
    rw [Run.flush, Run.empty, List.reverse_nil, Sign.cut]
    rfl
  rcases rest with _ | ⟨u, rest⟩
  · rw [fuseFrom, hflush, fuseFrom, hnothing]
  · have hjoins : joins? u.kind = none := Option.isNone_iff_eq_none.mp (by
      rw [← Option.not_isSome, show (joins? u.kind).isSome = false from hrest u rfl]
      rfl)
    rw [fuseFrom, hflush, hjoins, fuseFrom, hnothing, hjoins]

/-- What fusing gives is the layout, behind the pieces read before. -/
theorem Fused.fuseFrom_eq {tokens : List Token} {pieces : List Piece} (h : Fused tokens pieces) :
    fuseFrom tokens .empty read = .ok (read.reverse ++ pieces) := by
  induction h generalizing read with
  | nil => rw [fuseFrom, Run.flush, Run.empty, List.reverse_nil, Sign.cut, List.append_nil]; rfl
  | @other t rest pieces ht _ ih =>
    rw [fuseFrom, ht, Run.flush, Run.empty, List.reverse_nil, Sign.cut]
    exact ih.trans (by rw [List.reverse_cons, List.append_assoc]; rfl)
  | @run t run rest signs pieces hrun hrest hspelled hgreedy _ ih =>
    have hcut : Sign.cut (glued (t :: run)).reverse.reverse [] = .ok signs := by
      rw [List.reverse_reverse, ← hspelled]
      exact Sign.cut_spelled hgreedy []
    rw [fuseFrom_run hrun, fuseFrom_closed hrest hcut, ih, List.reverse_append,
      List.reverse_reverse, List.append_assoc]

end Taking

/-! ## Pieces of tokens -/

/-- A piece with the place and the text of one of some tokens. -/
structure Within (source : List Token) (p : Piece) : Prop where
  place : p.location ∈ Token.places source
  quotes : p.kind.Quotes source

section Within

variable {source : List Token}

theorem quotes_ofKind {kind : Token.Kind} (h : kind ∈ Token.kinds source) :
    (ofKind kind).Quotes source := by
  cases kind with
  | identifier name => exact h
  | keyword k => exact ⟨_, h, rfl⟩
  | symbol s =>
    cases s with
    | openParen | closeParen | comma => trivial
    | openBrace | closeBrace | semicolon => exact ⟨_, h, rfl⟩
  | operator o => cases o <;> exact ⟨_, h, rfl⟩
  | integer _ | decimal _ | text _ => exact ⟨_, h, rfl⟩

theorem Fused.within {tokens : List Token} {pieces : List Piece} (h : Fused tokens pieces)
    (htokens : tokens ⊆ source) : ∀ p ∈ pieces, p.Within source := by
  induction h with
  | nil => nofun
  | other _ _ ih =>
    obtain ⟨ht, hrest⟩ := List.cons_subset.mp htokens
    refine List.forall_mem_cons.mpr ⟨?_, ih hrest⟩
    exact ⟨Token.mem_places ht, quotes_ofKind (Token.mem_kinds ht)⟩
  | run _ _ _ _ _ ih =>
    obtain ⟨ht, hrest⟩ := List.cons_subset.mp htokens
    intro p hp
    rcases List.mem_append.mp hp with hp | hp
    · obtain ⟨s, -, rfl⟩ := List.mem_map.mp hp
      exact ⟨Token.mem_places ht, trivial⟩
    · exact ih (List.append_subset.mp hrest).2 p hp

/-- **Every slice becomes pieces**, each with the place and the text of a token. -/
theorem fuse_within {tokens : List Token} (htokens : tokens ⊆ source) :
    ∃ pieces, fuse tokens = .ok pieces ∧ ∀ p ∈ pieces, p.Within source := by
  obtain ⟨pieces, hpieces⟩ := exists_fused tokens
  exact ⟨pieces, hpieces.fuseFrom_eq, hpieces.within htokens⟩

end Within

end Piece

end Lipi
