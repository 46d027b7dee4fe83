/-
What compiling refuses that parsing lets pass.

The parser takes keywords in parentheses along with everything else there. They are refused
when the slices are read as expressions: of what can be lowered, no slice holds a keyword,
but for that of a declaration with which a loop opens (`Statement.keywordFree_lower`). For
the words of the skeleton this leaves no place but the three that frame the program
(`skeleton_of_compile`).
-/
import Lipi.Proofs.Compilation
import Lipi.Proofs.Program.Skeleton
import Lipi.Proofs.Script.Slices

set_option autoImplicit false

namespace Lipi

open Procedure

/-! ## Slices -/

namespace Lowering

theorem keywordFree_parse (slice : List Token) :
    Yields (fun _ => Token.KeywordFree slice) (liftM (Expr.parse slice) : Lowering Expr) :=
  yields_liftM fun _ h => Expr.keywordFree_of_parse h

theorem keywordFree_parseList (slice : List Token) :
    Yields (fun _ => Token.KeywordFree slice)
      (liftM (Expr.parseList slice) : Lowering (List Expr)) :=
  yields_liftM fun _ h => Expr.keywordFree_of_parseList h

theorem keywordFree_exprOrNone (slice : List Token) :
    Yields (fun _ => Token.KeywordFree slice)
      (liftM (exprOrNone slice) : Lowering (Option Expr)) := by
  refine yields_liftM fun x h => ?_
  rcases exprOrNone_cases h with ⟨rfl, -⟩ | ⟨e, he, -⟩
  · exact nofun
  · exact Expr.keywordFree_of_parse he

theorem keywordFree_opening (loop : Location) (slice : List Token) :
    Yields (fun _ => Token.OpeningKeywordFree slice)
      (liftM (opening loop slice) : Lowering (Option Command)) := by
  refine yields_liftM fun x h => ?_
  rcases opening_cases h with ⟨rfl, -⟩ | ⟨l, l₁, l₂, mutability, name, value, e, rfl, he, -⟩
    | ⟨l, e, he, -⟩
  · exact .inl nofun
  · refine .inr ⟨l, _, mutability, rfl, ?_⟩
    have hvalue : Token.KeywordFree value := Expr.keywordFree_of_parse he
    exact List.forall_mem_cons.mpr ⟨rfl, List.forall_mem_cons.mpr ⟨rfl, hvalue⟩⟩
  · exact .inl (Expr.keywordFree_of_parse he)

end Lowering

open Lowering

/-! ## Statements -/

mutual

/-- **Keywords in slices are refused.** -/
theorem Statement.keywordFree_lower (loops : Nat) (s : Statement) :
    Yields (fun _ => s.KeywordFree) (s.lower loops) := by
  match s with
  | .declare place mutability name value =>
    exact (keywordFree_parse value).bind fun _ h => yields_pure h
  | .assign place name value =>
    exact (keywordFree_parse value).bind fun _ h => yields_pure h
  | .output place value =>
    exact (keywordFree_parseList value).bind fun _ h => yields_pure h
  | .choice place chain =>
    exact (chain.keywordFree_lower loops).bind fun _ h => yields_pure h
  | .whileLoop place condition body =>
    refine (yields_any _).bind fun _ _ => ?_
    refine (keywordFree_parse condition).bind fun _ hc => ?_
    exact (Statement.allKeywordFree_lowerAll (loops + 1) body).bind fun _ hb => yields_pure ⟨hc, hb⟩
  | .forLoop place initial condition increment body =>
    refine (yields_any _).bind fun _ _ => ?_
    refine (keywordFree_opening place initial).bind fun _ hi => ?_
    refine (keywordFree_exprOrNone condition).bind fun _ hc => ?_
    refine (keywordFree_exprOrNone increment).bind fun _ hs => ?_
    exact (Statement.allKeywordFree_lowerAll (loops + 1) body).bind fun _ hb =>
      yields_pure ⟨hi, hc, hs, hb⟩
  | .breakLoop place => exact fun _ _ _ => trivial
  | .continueLoop place => exact fun _ _ _ => trivial
termination_by structural s

/-- The same for a chain. -/
theorem StatementChain.keywordFree_lower (loops : Nat) (c : StatementChain) :
    Yields (fun _ => c.KeywordFree) (c.lower loops) := by
  match c with
  | .test condition body rest =>
    refine (keywordFree_parse condition).bind fun _ hc => ?_
    refine (Statement.allKeywordFree_lowerAll loops body).bind fun _ hb => ?_
    exact (rest.keywordFree_lower loops).bind fun _ hr => yields_pure ⟨hc, hb, hr⟩
  | .otherwise body =>
    exact (Statement.allKeywordFree_lowerAll loops body).bind fun _ hb => yields_pure hb
  | .done => exact yields_pure trivial
termination_by structural c

/-- The same for a row of statements. -/
theorem Statement.allKeywordFree_lowerAll (loops : Nat) (ss : List Statement) :
    Yields (fun _ => Statement.AllKeywordFree ss) (Statement.lowerAll loops ss) := by
  match ss with
  | [] => exact yields_pure trivial
  | s :: ss =>
    refine (s.keywordFree_lower loops).bind fun _ hs => ?_
    exact (Statement.allKeywordFree_lowerAll loops ss).bind fun _ hss => yields_pure ⟨hs, hss⟩
termination_by structural ss

end

/-! ## Sources -/

/-- **The skeleton frames what compiles, and nothing else does.** The tokens of a source that
compiles are the two opening words, a body without any word of the skeleton, and the closing
word. The slices of its statements hold no keyword, but for that of a declaration at the
front of what a loop opens with. And the tokens without the last are refused for the missing
closing word. -/
theorem skeleton_of_compile {source : String} {script : Script}
    (h : compile source = .ok script) :
    ∃ l₁ l₂ l₃ body p,
      tokenize source = .ok (⟨.keyword .start, l₁⟩ :: ⟨.keyword .main, l₂⟩
          :: (body ++ [⟨.keyword .finish, l₃⟩]))
        ∧ (∀ t ∈ body, t.isSkeleton = false)
        ∧ Program.parse (⟨.keyword .start, l₁⟩ :: ⟨.keyword .main, l₂⟩
          :: (body ++ [⟨.keyword .finish, l₃⟩])) = .ok p
        ∧ Statement.AllKeywordFree p.body
        ∧ ∃ e, Program.parse (⟨.keyword .start, l₁⟩ :: ⟨.keyword .main, l₂⟩ :: body) = .error e
          ∧ e.tag = "MISSING_END_KEYWORD" := by
  obtain ⟨tokens, p, htokens, hparse, hscript⟩ := compile_eq_ok_iff.mp h
  obtain ⟨l₁, l₂, l₃, body, rfl, htakes⟩ := Program.parse_iff_takes.mp hparse
  have hfree : Statement.AllKeywordFree p.body :=
    Statement.allKeywordFree_lowerAll 0 p.body 0 script.body (Program.script_eq_ok_iff.mp hscript)
  have hbody : ∀ t ∈ body, t.isSkeleton = false := by
    intro t ht
    rw [Bool.eq_false_iff]
    intro hskeleton
    cases htakes.mem_rest_of_skeleton hfree hskeleton ht
  exact ⟨l₁, l₂, l₃, body, p, htokens, hbody, hparse, hfree, Program.exists_missing_finish hbody⟩

/-- A program whose loop opens with a declaration. -/
def counting : String :=
  "arambha systummm prati_ghatak (ghoshit_kar i = 0; i < 3; i++) \x7b prakashit_kar(i) \x7d " ++
    "bihari_sramik"

/-- Its own closing word is the only one. -/
theorem skeleton_of_compile_counting : ∃ script, compile counting = .ok script
    ∧ ∃ l₁ l₂ l₃ body,
      tokenize counting = .ok (⟨.keyword .start, l₁⟩ :: ⟨.keyword .main, l₂⟩
          :: (body ++ [⟨.keyword .finish, l₃⟩]))
        ∧ (∀ t ∈ body, t.isSkeleton = false)
        ∧ ∃ e, Program.parse (⟨.keyword .start, l₁⟩ :: ⟨.keyword .main, l₂⟩ :: body) = .error e
          ∧ e.tag = "MISSING_END_KEYWORD" := by
  obtain ⟨script, h⟩ := exists_eq_ok_of_isSome (x := compile counting) (by decide +kernel)
  obtain ⟨l₁, l₂, l₃, body, p, htokens, hbody, -, -, hmissing⟩ := skeleton_of_compile h
  exact ⟨script, h, l₁, l₂, l₃, body, htokens, hbody, hmissing⟩

end Lipi
