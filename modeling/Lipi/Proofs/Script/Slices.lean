/-
What lowering makes of the parts of a statement.

A guard has the next number and the usual limit. Where lowering succeeds, a slice says which
way it went: one that need not be there is empty or an expression (`exprOrNone_cases`), a loop
opens with nothing, a declaration or an expression (`opening_cases`), and what leaves a loop
stands inside one (`leaving_cases`).
-/
import Lipi.Proofs.Procedure
import Lipi.Proofs.Program.Grammar
import Lipi.Script.Lowering

set_option autoImplicit false

namespace Lipi.Lowering

open Procedure

/-- A guard has the number that the counter shows, which then goes on by one. -/
theorem newGuard_cases {made made' : Nat} {g : Guard} (h : newGuard made = (.ok g, made')) :
    g = .numbered made ∧ made' = made + 1 := by
  cases h
  exact ⟨rfl, rfl⟩

theorem yields_newGuard : Yields (fun g => g.limit = Guard.usualLimit) newGuard := by
  intro n g hg
  cases hg
  rfl

theorem exists_of_map_eq_ok {ε α β : Type} {x : Except ε α} {f : α → β} {b : β}
    (h : x.map f = .ok b) : ∃ a, x = .ok a ∧ f a = b := by
  cases x with
  | error e => cases h
  | ok a =>
    cases h
    exact ⟨a, rfl, rfl⟩

theorem exprOrNone_cases {slice : List Token} {x : Option Expr} (h : exprOrNone slice = .ok x) :
    (slice = [] ∧ x = none) ∨ ∃ e, Expr.parse slice = .ok e ∧ x = some e := by
  unfold exprOrNone at h
  split at h
  · next hempty =>
    cases h
    exact .inl ⟨List.isEmpty_iff.mp hempty, rfl⟩
  · obtain ⟨e, he, hx⟩ := exists_of_map_eq_ok h
    exact .inr ⟨e, he, hx.symm⟩

theorem openingDeclaration_cases {loop : Location} {mutability : Mutability} {keyword : Token}
    {rest : List Token} {c : Command}
    (h : openingDeclaration loop mutability keyword rest = .ok c) :
    ∃ name l₁ l₂ value e, rest = ⟨.identifier name, l₁⟩ :: ⟨.operator .assign, l₂⟩ :: value
      ∧ Expr.parse value = .ok e ∧ c = .declare keyword.location mutability name e := by
  unfold openingDeclaration at h
  rcases rest with _ | ⟨⟨kind, l₁⟩, rest⟩
  · cases h
  · cases kind with
    | identifier name =>
      rcases rest with _ | ⟨⟨sign, l₂⟩, value⟩
      · cases h
      · simp only [Token.name?] at h
        split at h
        · next hvalid =>
          have hsign : sign = .operator .assign :=
            beq_iff_eq.mp ((Bool.and_eq_true _ _).mp hvalid).1
          obtain ⟨e, he, hc⟩ := exists_of_map_eq_ok h
          exact ⟨name, l₁, l₂, value, e, by rw [hsign], he, hc.symm⟩
        · cases h
    | _ => cases h

/-- What a loop opens with. -/
theorem opening_cases {loop : Location} {slice : List Token} {x : Option Command}
    (h : opening loop slice = .ok x) :
    (slice = [] ∧ x = none)
      ∨ (∃ l l₁ l₂ mutability name value e,
        slice = ⟨.keyword (Mutability.declares mutability), l⟩ :: ⟨.identifier name, l₁⟩
            :: ⟨.operator .assign, l₂⟩ :: value
          ∧ Expr.parse value = .ok e ∧ x = some (.declare l mutability name e))
      ∨ ∃ l e, Expr.parse slice = .ok e ∧ x = some (.eval l e) := by
  rcases slice with _ | ⟨⟨kind, l⟩, rest⟩
  · cases h
    exact .inl ⟨rfl, rfl⟩
  · simp only [opening] at h
    split at h
    · next hlet =>
      obtain rfl : kind = .keyword .letDecl := beq_iff_eq.mp hlet
      obtain ⟨c, hc, hx⟩ := exists_of_map_eq_ok h
      obtain ⟨name, l₁, l₂, value, e, rfl, he, rfl⟩ := openingDeclaration_cases hc
      exact .inr (.inl ⟨l, l₁, l₂, .mutable, name, value, e, rfl, he, hx.symm⟩)
    · split at h
      · next hconst =>
        obtain rfl : kind = .keyword .constDecl := beq_iff_eq.mp hconst
        obtain ⟨c, hc, hx⟩ := exists_of_map_eq_ok h
        obtain ⟨name, l₁, l₂, value, e, rfl, he, rfl⟩ := openingDeclaration_cases hc
        exact .inr (.inl ⟨l, l₁, l₂, .constant, name, value, e, rfl, he, hx.symm⟩)
      · obtain ⟨e, he, hx⟩ := exists_of_map_eq_ok h
        exact .inr (.inr ⟨l, e, he, hx.symm⟩)

theorem leaving_cases {k : Keyword} {command c : Command} {loops : Nat} {place : Location}
    (h : leaving k command loops place = .ok c) : c = command ∧ 0 < loops := by
  unfold leaving at h
  split at h
  · cases h
  · next hloops =>
    cases h
    exact ⟨rfl, Nat.pos_of_ne_zero hloops⟩

end Lipi.Lowering
