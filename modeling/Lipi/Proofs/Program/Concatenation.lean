/-
Programs one after another.

Each statement's extent depends on the tokens that follow it, so putting a row of tokens
after another may change what the first is read as: a name at its end becomes a target
if `=` follows, a choice grows a branch. A semicolon between the two rules all of this
out, for nothing goes on over a semicolon. So what is taken off a row is taken off a
longer one that goes on with a semicolon, with the longer rest left (`Takes.extended`);
only a row of statements that has come to the end of its tokens goes on, and takes what
the rest has to offer.
-/
import Lipi.Proofs.Program.Grammar

set_option autoImplicit false

namespace Lipi

namespace Program

/-! ## What a semicolon separates -/

section Semicolon

variable {l : Location} {more : List Token}

/-- A semicolon and what follows it. -/
abbrev separated (l : Location) (more : List Token) : List Token := ⟨.symbol .semicolon, l⟩ :: more

theorem endsValue_append {t : Token} {rest : List Token} :
    endsValue t (rest ++ separated l more) = endsValue t rest := by
  cases rest <;> rfl

theorem RunsTo.append {slice rest : List Token} (h : RunsTo slice rest) :
    RunsTo slice (rest ++ separated l more) := by
  induction slice with
  | nil =>
    intro t after he
    rcases rest with _ | ⟨t', rest⟩
    · cases he
      rfl
    · cases he
      exact endsValue_append.trans (h _ rest rfl)
  | cons t slice ih =>
    refine ⟨?_, ih h.2⟩
    rw [← List.append_assoc, endsValue_append]
    exact h.1

theorem NoBranch.append {rest : List Token} (h : NoBranch rest) :
    NoBranch (rest ++ separated l more) := by
  intro t after he
  rcases rest with _ | ⟨t', rest⟩
  · cases he
    exact ⟨nofun, nofun⟩
  · obtain ⟨rfl, -⟩ := List.cons.inj he
    exact h _ rest rfl

theorem Idle.append {t : Token} {rest : List Token} (h : Idle t rest) :
    Idle t (rest ++ separated l more) := by
  refine ⟨h.1, ?_⟩
  intro hname l' after he
  rcases rest with _ | ⟨t', rest⟩
  · cases he
  · obtain ⟨rfl, -⟩ := List.cons.inj he
    exact h.2 hname l' rest rfl

/-! ## Longer rows -/

/-- A fragment is taken off the longer row: with the longer rest left, or, if it is a row
of statements that nothing was left of, with the statements of the rest. -/
def Fragment.Extends (room : Nat) (tokens after : List Token) : Fragment → List Token → Prop
  | sequence inBlock body, [] => ∀ {body' : List Statement} {last : List Token},
      Takes room after (.sequence inBlock body') last →
        Takes room (tokens ++ after) (.sequence inBlock (body ++ body')) last
  | fragment, rest => Takes room (tokens ++ after) fragment (rest ++ after)

theorem Takes.extended {room : Nat} {tokens rest : List Token} {fragment : Fragment}
    (h : Takes room tokens fragment rest) :
    fragment.Extends room tokens (separated l more) rest := by
  -- Only a row of statements may have come to the end of the tokens and goes on; every
  -- other fragment ends where it did.
  induction h with
  | declare l₁ l₂ l₃ mutability name hne hruns =>
    show Takes _ (_ :: _ :: _ :: (_ ++ _ ++ separated l more)) _ _
    rw [List.append_assoc]
    exact .declare l₁ l₂ l₃ mutability name hne hruns.append
  | assign l₁ l₂ name hne hruns =>
    show Takes _ (_ :: _ :: (_ ++ _ ++ separated l more)) _ _
    rw [List.append_assoc]
    exact .assign l₁ l₂ name hne hruns.append
  | output l₁ l₂ l₃ hne hbalanced =>
    show Takes _ (_ :: (group _ _ _ _ ++ separated l more)) _ _
    rw [group_append]
    exact .output l₁ l₂ l₃ hne hbalanced
  | choice l₁ l₂ l₃ hne hbalanced _ _ ihbody ihmore =>
    show Takes _ (_ :: (group _ _ _ _ ++ separated l more)) _ _
    rw [group_append]
    exact .choice l₁ l₂ l₃ hne hbalanced ihbody ihmore
  | whileLoop l₁ l₂ l₃ hne hbalanced _ ihbody =>
    show Takes _ (_ :: (group _ _ _ _ ++ separated l more)) _ _
    rw [group_append]
    exact .whileLoop l₁ l₂ l₃ hne hbalanced ihbody
  | forLoop l₁ l₂ l₃ l₄ l₅ hinitial hcondition hincrement hbalanced _ ihbody =>
    show Takes _ (_ :: (group _ _ _ _ ++ separated l more)) _ _
    rw [group_append]
    exact .forLoop l₁ l₂ l₃ l₄ l₅ hinitial hcondition hincrement hbalanced ihbody
  | breakLoop l₁ => exact Takes.breakLoop l₁
  | continueLoop l₁ => exact Takes.continueLoop l₁
  | idle h => exact Takes.idle h.append
  | block l₁ l₂ _ ih => exact Takes.block l₁ l₂ ih
  | elseIf l₁ l₂ l₃ hne hbalanced _ _ ihbody ihmore =>
    show Takes _ (_ :: (group _ _ _ _ ++ separated l more)) _ _
    rw [group_append]
    exact .elseIf l₁ l₂ l₃ hne hbalanced ihbody ihmore
  | otherwise l₁ _ ihbody => exact Takes.otherwise l₁ ihbody
  | noBranch h => exact Takes.noBranch h.append
  | nothing inBlock =>
    intro body' last hafter
    exact hafter
  | brace l₁ => exact Takes.brace l₁
  | @next _ t _ _ rest _ _ _ hgoes _ _ ihfirst ihmore =>
    rcases rest with _ | ⟨t', rest⟩
    · intro body' last hafter
      have hmore := ihmore hafter
      rw [List.append_assoc]
      exact .next hgoes ihfirst hmore
    · exact Takes.next hgoes ihfirst ihmore

end Semicolon

/-- **Two rows of statements with a semicolon between them** are the statements of the
first and then those of the second. -/
theorem Takes.append_sequence {room : Nat} {tokens tokens' : List Token} {body body' : List Statement}
    (h : Takes room tokens (.sequence false body) [])
    (h' : Takes room tokens' (.sequence false body') []) (l : Location) :
    Takes room (tokens ++ separated l tokens') (.sequence false (body ++ body')) [] :=
  h.extended (h'.terminated l)

end Program

end Lipi
