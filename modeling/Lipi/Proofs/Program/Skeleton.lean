/-
Where keywords stand in a program.

The parser takes what stands in parentheses as it is and passes over tokens that begin
nothing, so it does not by itself keep keywords out of slices. Of a program whose slices
are free of them (`Statement.KeywordFree`) it can be said which tokens it was read from:
every keyword among them begins a statement or a branch, and the words of the skeleton begin
neither. So none of these is taken (`Takes.mem_rest_of_skeleton`, one case for each form).

What is read as such a program stands in its skeleton and holds no other word of it. Without
its last token it is no program, and the error says that the closing word is missing
(`exists_missing_finish`).
-/
import Lipi.Proofs.Expr.Slices
import Lipi.Proofs.Program.Parsing

set_option autoImplicit false

namespace Lipi

/-! ## Slices -/

/-- Whether a token is a word that frames a program. -/
def Token.isSkeleton (t : Token) : Bool :=
  match t.kind with
  | .keyword k => k.isSkeleton
  | _ => false

/-- What a counting loop opens with holds no keyword, but for that of a declaration at its
front. -/
def Token.OpeningKeywordFree (slice : List Token) : Prop :=
  KeywordFree slice ∨ ∃ l rest, ∃ mutability : Mutability,
    slice = ⟨.keyword mutability.declares, l⟩ :: rest ∧ KeywordFree rest

mutual

/-- A statement without keywords in its slices. -/
def Statement.KeywordFree : Statement → Prop
  | .declare _ _ _ value => Token.KeywordFree value
  | .assign _ _ value => Token.KeywordFree value
  | .output _ value => Token.KeywordFree value
  | .choice _ chain => chain.KeywordFree
  | .whileLoop _ condition body => Token.KeywordFree condition ∧ Statement.AllKeywordFree body
  | .forLoop _ initial condition increment body =>
    Token.OpeningKeywordFree initial ∧ Token.KeywordFree condition ∧ Token.KeywordFree increment
      ∧ Statement.AllKeywordFree body
  | .breakLoop _ => True
  | .continueLoop _ => True
termination_by structural s => s

/-- A chain without keywords in its slices. -/
def StatementChain.KeywordFree : StatementChain → Prop
  | .test condition body rest =>
    Token.KeywordFree condition ∧ Statement.AllKeywordFree body ∧ rest.KeywordFree
  | .otherwise body => Statement.AllKeywordFree body
  | .done => True
termination_by structural c => c

/-- Statements without keywords in their slices. -/
def Statement.AllKeywordFree : List Statement → Prop
  | [] => True
  | s :: rest => s.KeywordFree ∧ Statement.AllKeywordFree rest
termination_by structural ss => ss

end

theorem Statement.allKeywordFree_append {a b : List Statement} :
    AllKeywordFree (a ++ b) ↔ AllKeywordFree a ∧ AllKeywordFree b := by
  induction a with
  | nil => exact ⟨fun h => ⟨trivial, h⟩, fun h => h.2⟩
  | cons s a ih => rw [List.cons_append, AllKeywordFree, AllKeywordFree, ih, and_assoc]

namespace Token

theorem isSkeleton_eq_false_of_keyword {t : Token} (h : t.isAnyKeyword = false) :
    t.isSkeleton = false := by
  obtain ⟨kind, l⟩ := t
  cases kind with
  | keyword k => cases h
  | _ => rfl

/-- A word of the skeleton is not another token that it may stand behind. -/
theorem mem_tail_of_skeleton {t u : Token} {rest : List Token} (ht : t ∈ u :: rest)
    (hskeleton : t.isSkeleton = true) (hu : u.isSkeleton = false) : t ∈ rest := by
  rcases List.mem_cons.mp ht with rfl | ht
  · rw [hu] at hskeleton
    cases hskeleton
  · exact ht

theorem isSkeleton_declares (mutability : Mutability) (l : Location) :
    (Token.mk (.keyword mutability.declares) l).isSkeleton = false := by
  cases mutability <;> rfl

theorem KeywordFree.not_mem {slice : List Token} (h : KeywordFree slice) {t : Token}
    (hskeleton : t.isSkeleton = true) : t ∉ slice := by
  intro ht
  rw [isSkeleton_eq_false_of_keyword (h t ht)] at hskeleton
  cases hskeleton

theorem OpeningKeywordFree.not_mem {slice : List Token} (h : OpeningKeywordFree slice)
    {t : Token} (hskeleton : t.isSkeleton = true) : t ∉ slice := by
  rcases h with h | ⟨l, rest, mutability, rfl, h⟩
  · exact h.not_mem hskeleton
  · intro ht
    have hrest := mem_tail_of_skeleton ht hskeleton (isSkeleton_declares mutability l)
    exact h.not_mem hskeleton hrest

end Token

namespace Program

open Token

/-! ## Fragments -/

/-- A fragment without keywords in its slices. -/
def Fragment.KeywordFree : Fragment → Prop
  | .statement s => ∀ s', s = some s' → s'.KeywordFree
  | .block body => Statement.AllKeywordFree body
  | .chain branches => branches.KeywordFree
  | .sequence _ body => Statement.AllKeywordFree body

variable {t : Token} {slice rest : List Token}

theorem mem_of_mem_slice (hskeleton : t.isSkeleton = true) (hslice : KeywordFree slice)
    (ht : t ∈ slice ++ rest) : t ∈ rest :=
  (List.mem_append.mp ht).resolve_left (hslice.not_mem hskeleton)

/-- A word of the skeleton that stands in parentheses or after them. -/
theorem mem_of_mem_group {l₁ l₂ : Location} (hskeleton : t.isSkeleton = true)
    (ht : t ∈ group l₁ l₂ slice rest) : t ∈ slice ∨ t ∈ rest := by
  have hinside := mem_tail_of_skeleton ht hskeleton rfl
  refine (List.mem_append.mp hinside).imp_right fun hclosed => ?_
  exact mem_tail_of_skeleton hclosed hskeleton rfl

theorem not_mem_header {l₁ l₂ : Location} {initial condition increment : List Token}
    (hskeleton : t.isSkeleton = true) (hinitial : OpeningKeywordFree initial)
    (hcondition : KeywordFree condition) (hincrement : KeywordFree increment) :
    t ∉ header l₁ l₂ initial condition increment := by
  intro ht
  have hfirst := (List.mem_append.mp ht).resolve_left (hinitial.not_mem hskeleton)
  have hsecond := mem_of_mem_slice hskeleton hcondition (mem_tail_of_skeleton hfirst hskeleton rfl)
  exact hincrement.not_mem hskeleton (mem_tail_of_skeleton hsecond hskeleton rfl)

/-- A test or a row of arguments in parentheses is passed. -/
theorem mem_of_mem_test {l₁ l₂ : Location} (hskeleton : t.isSkeleton = true)
    (hslice : KeywordFree slice) (ht : t ∈ group l₁ l₂ slice rest) : t ∈ rest :=
  (mem_of_mem_group hskeleton ht).resolve_left (hslice.not_mem hskeleton)

/-- **No word of the skeleton is taken** for a fragment whose slices hold no keyword. -/
theorem Takes.mem_rest_of_skeleton {room : Nat} {tokens : List Token} {fragment : Fragment}
    (h : Takes room tokens fragment rest) (hfree : fragment.KeywordFree)
    (hskeleton : t.isSkeleton = true) (ht : t ∈ tokens) : t ∈ rest := by
  induction h with
  | declare l l₁ l₂ mutability name _ _ =>
    have hname := mem_tail_of_skeleton ht hskeleton (isSkeleton_declares mutability l)
    have hsign := mem_tail_of_skeleton hname hskeleton rfl
    exact mem_of_mem_slice hskeleton (hfree _ rfl) (mem_tail_of_skeleton hsign hskeleton rfl)
  | assign l l₁ name _ _ =>
    have hsign := mem_tail_of_skeleton ht hskeleton rfl
    exact mem_of_mem_slice hskeleton (hfree _ rfl) (mem_tail_of_skeleton hsign hskeleton rfl)
  | output l l₁ l₂ _ _ =>
    exact mem_of_mem_test hskeleton (hfree _ rfl) (mem_tail_of_skeleton ht hskeleton rfl)
  | choice l l₁ l₂ _ _ _ _ ihbody ihmore =>
    obtain ⟨hcondition, hbody, hmore⟩ := hfree _ rfl
    have hahead := mem_of_mem_test hskeleton hcondition (mem_tail_of_skeleton ht hskeleton rfl)
    exact ihmore hmore (ihbody hbody hahead)
  | whileLoop l l₁ l₂ _ _ _ ihbody =>
    obtain ⟨hcondition, hbody⟩ := hfree _ rfl
    exact ihbody hbody
      (mem_of_mem_test hskeleton hcondition (mem_tail_of_skeleton ht hskeleton rfl))
  | forLoop l l₁ l₂ l₃ l₄ _ _ _ _ _ ihbody =>
    obtain ⟨hinitial, hcondition, hincrement, hbody⟩ := hfree _ rfl
    have hgroup := mem_of_mem_group hskeleton (mem_tail_of_skeleton ht hskeleton rfl)
    exact ihbody hbody
      (hgroup.resolve_left (not_mem_header hskeleton hinitial hcondition hincrement))
  | breakLoop l => exact mem_tail_of_skeleton ht hskeleton rfl
  | continueLoop l => exact mem_tail_of_skeleton ht hskeleton rfl
  | @idle _ u _ hidle =>
    refine mem_tail_of_skeleton ht hskeleton (isSkeleton_eq_false_of_keyword ?_)
    obtain ⟨kind, l⟩ := u
    cases kind with
    | keyword k => exact absurd rfl (hidle.1 k)
    | _ => rfl
  | block l₁ l₂ _ ihbody =>
    exact mem_tail_of_skeleton (ihbody hfree (mem_tail_of_skeleton ht hskeleton rfl)) hskeleton rfl
  | elseIf l l₁ l₂ _ _ _ _ ihbody ihmore =>
    obtain ⟨hcondition, hbody, hmore⟩ := hfree
    have hahead := mem_of_mem_test hskeleton hcondition (mem_tail_of_skeleton ht hskeleton rfl)
    exact ihmore hmore (ihbody hbody hahead)
  | otherwise l _ ihbody => exact ihbody hfree (mem_tail_of_skeleton ht hskeleton rfl)
  | noBranch _ => exact ht
  | nothing _ => exact ht
  | brace _ => exact ht
  | @next _ _ _ _ _ _ s more _ _ _ ihfirst ihmore =>
    obtain ⟨hfirst, hmore⟩ := Statement.allKeywordFree_append.mp hfree
    refine ihmore hmore (ihfirst ?_ ht)
    rintro s' rfl
    exact hfirst.1

/-! ## Programs -/

/-- The closing word is missed where the tokens end without one. -/
theorem exists_missing_finish {l₁ l₂ : Location} {inside : List Token}
    (h : ∀ t ∈ inside, t.isSkeleton = false) :
    ∃ e, parse (⟨.keyword .start, l₁⟩ :: ⟨.keyword .main, l₂⟩ :: inside) = .error e
      ∧ e.tag = "MISSING_END_KEYWORD" := by
  cases hlast : inside.getLast? with
  | none =>
    obtain rfl := List.getLast?_eq_none_iff.mp hlast
    exact ⟨_, rfl, rfl⟩
  | some last =>
    have hfinish : last.isKeyword .finish = false := by
      rw [Bool.eq_false_iff]
      intro he
      have hnot := h last (List.mem_of_getLast? hlast)
      obtain ⟨kind, l⟩ := last
      obtain rfl : kind = .keyword .finish := beq_iff_eq.mp he
      cases hnot
    refine ⟨⟨.missingFinish (some last.kind), last.location⟩, ?_, rfl⟩
    simp [parse, expect, TokenCursor.ofTokens, unframed, hlast, hfinish, bind, Except.bind]

end Program

end Lipi
