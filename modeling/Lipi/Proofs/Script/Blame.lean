/-
Errors of lowering blame tokens of the program.

Lowering reads slices as expressions, and where a loop opens with a declaration it looks at
the tokens of the slice itself. Either way it fails at a token of the slice, or at the
first token of a statement. So for statements made of some tokens whatever lowering raises
blames one of them (`Statement.raises_lower`), and so does a program that is read from them
and has no script (`Program.blames_of_script`).
-/
import Lipi.Proofs.Compilation
import Lipi.Proofs.Expr.Blame
import Lipi.Proofs.Program.Blame

set_option autoImplicit false

namespace Lipi

open SyntaxError Procedure

variable {source : List Token}

theorem SyntaxError.Blaming.of_eq_error {α : Type} {p : α → Prop} {x : Except SyntaxError α}
    (h : Blaming source p x) {e : SyntaxError} (he : x = .error e) : e.Blames source := by
  rw [he] at h
  exact h

namespace Lowering

/-! ## Slices -/

theorem raises_parse {slice : List Token} (h : Token.IsSlice source slice) :
    Raises (Blames source) (liftM (Expr.parse slice) : Lowering Expr) :=
  raises_liftM fun _ => (Expr.blaming_parse h.1 h.2).of_eq_error

theorem raises_parseList {slice : List Token} (h : Token.IsSlice source slice) :
    Raises (Blames source) (liftM (Expr.parseList slice) : Lowering (List Expr)) :=
  raises_liftM fun _ => (Expr.blaming_parseList h.1 h.2).of_eq_error

theorem raises_exprOrNone {slice : List Token} (h : slice ⊆ source) :
    Raises (Blames source) (liftM (exprOrNone slice) : Lowering (Option Expr)) := by
  refine raises_liftM fun e => Blaming.of_eq_error (p := fun _ => True) ?_
  unfold exprOrNone
  split
  · trivial
  · next hne =>
    have hslice : slice ≠ [] := fun he => hne (List.isEmpty_iff.mpr he)
    exact (Expr.blaming_parse h hslice).map fun _ _ => trivial

variable {loop : Location} (hloop : loop ∈ Token.places source)

include hloop

theorem blaming_openingDeclaration {keyword : Token} {rest : List Token}
    (hkeyword : keyword ∈ source) (hrest : rest ⊆ source) (mutability : Mutability) :
    Blaming source (fun _ => True) (openingDeclaration loop mutability keyword rest) := by
  have hplace := Token.mem_places hkeyword
  unfold openingDeclaration
  split
  · exact ⟨hplace, trivial⟩
  · next t more =>
    obtain ⟨ht, hmore⟩ := List.cons_subset.mp hrest
    split
    · exact ⟨hplace, trivial⟩
    · next name hname =>
      have hquotes := Token.identifier_mem_kinds ht hname
      split
      · next sign value =>
        obtain ⟨-, hvalue⟩ := List.cons_subset.mp hmore
        split
        · next hvalid =>
          have hne : value ≠ [] := by
            rintro rfl
            simp at hvalid
          exact (Expr.blaming_parse hvalue hne).map fun _ _ => trivial
        · exact ⟨hloop, hquotes⟩
      · exact ⟨hloop, hquotes⟩

theorem raises_opening {slice : List Token} (h : slice ⊆ source) :
    Raises (Blames source) (liftM (opening loop slice) : Lowering (Option Command)) := by
  refine raises_liftM fun e => Blaming.of_eq_error (p := fun _ => True) ?_
  unfold opening
  split
  · trivial
  · next first rest =>
    obtain ⟨hfirst, hrest⟩ := List.cons_subset.mp h
    split
    · exact (blaming_openingDeclaration hloop hfirst hrest .mutable).map fun _ _ => trivial
    · split
      · exact (blaming_openingDeclaration hloop hfirst hrest .constant).map fun _ _ => trivial
      · exact (Expr.blaming_parse h (List.cons_ne_nil _ _)).map fun _ _ => trivial

omit hloop

theorem raises_leaving {place : Location} (hplace : place ∈ Token.places source) (k : Keyword)
    (command : Command) (loops : Nat) :
    Raises (Blames source) (liftM (leaving k command loops place) : Lowering Command) := by
  refine raises_liftM fun e he => ?_
  unfold leaving at he
  split at he
  · cases he
    exact ⟨hplace, trivial⟩
  · cases he

theorem raises_newGuard : Raises (Blames source) newGuard := by
  intro made e he
  cases he

end Lowering

/-! ## Statements -/

open Lowering

mutual

/-- **What lowering a statement raises blames one of the tokens it is made of.** -/
theorem Statement.raises_lower (loops : Nat) (s : Statement) (h : s.Within source) :
    Raises (Blames source) (s.lower loops) := by
  match s with
  | .declare place mutability name value => exact (raises_parse h.2.2).bind fun _ => raises_pure _
  | .assign place name value => exact (raises_parse h.2.2).bind fun _ => raises_pure _
  | .output place value => exact (raises_parseList h.2).bind fun _ => raises_pure _
  | .choice place chain => exact (chain.raises_lower loops h.2).bind fun _ => raises_pure _
  | .whileLoop place condition body =>
    obtain ⟨-, hcondition, hbody⟩ := h
    refine raises_newGuard.bind fun _ => ?_
    refine (raises_parse hcondition).bind fun _ => ?_
    exact (Statement.raises_lowerAll (loops + 1) body hbody).bind fun _ => raises_pure _
  | .forLoop place initial condition increment body =>
    obtain ⟨hplace, hinitial, hcondition, hincrement, hbody⟩ := h
    refine raises_newGuard.bind fun _ => ?_
    refine (raises_opening hplace hinitial).bind fun _ => ?_
    refine (raises_exprOrNone hcondition).bind fun _ => ?_
    refine (raises_exprOrNone hincrement).bind fun _ => ?_
    exact (Statement.raises_lowerAll (loops + 1) body hbody).bind fun _ => raises_pure _
  | .breakLoop place => exact raises_leaving h _ _ _
  | .continueLoop place => exact raises_leaving h _ _ _
termination_by structural s

/-- The same for a chain. -/
theorem StatementChain.raises_lower (loops : Nat) (c : StatementChain) (h : c.Within source) :
    Raises (Blames source) (c.lower loops) := by
  match c with
  | .test condition body rest =>
    obtain ⟨hcondition, hbody, hrest⟩ := h
    refine (raises_parse hcondition).bind fun _ => ?_
    refine (Statement.raises_lowerAll loops body hbody).bind fun _ => ?_
    exact (rest.raises_lower loops hrest).bind fun _ => raises_pure _
  | .otherwise body => exact (Statement.raises_lowerAll loops body h).bind fun _ => raises_pure _
  | .done => exact raises_pure _
termination_by structural c

/-- The same for a row of statements. -/
theorem Statement.raises_lowerAll (loops : Nat) (ss : List Statement)
    (h : Statement.AllWithin source ss) : Raises (Blames source) (Statement.lowerAll loops ss) := by
  match ss with
  | [] => exact raises_pure _
  | s :: ss =>
    refine (s.raises_lower loops h.1).bind fun _ => ?_
    exact (Statement.raises_lowerAll loops ss h.2).bind fun _ => raises_pure _
termination_by structural ss

end

/-- **A program without a script blames a token** of those it was read from. -/
theorem Program.blames_of_script {p : Program} (h : Statement.AllWithin source p.body)
    {e : SyntaxError} (he : p.script = .error e) : e.Blames source := by
  refine Statement.raises_lowerAll 0 p.body h 0 e ?_
  have hmap : ((Statement.lowerAll 0 p.body 0).1.map Script.mk) = .error e := he
  cases houtcome : (Statement.lowerAll 0 p.body 0).1 with
  | ok body =>
    rw [houtcome] at hmap
    cases hmap
  | error e' =>
    rw [houtcome] at hmap
    cases hmap
    rfl

end Lipi
