/-
What stays of an environment.

Whatever a program does, it leaves much of an environment as it was. A binding keeps its
mutability; it keeps its value if it is a constant, or if its name is not one of those the
program assigns to, the targets (`Binding.Kept`). A scope keeps its names, each with its
binding kept (`Scope.Kept`). Of an environment the scopes below the innermost are kept in
this sense, one by one, and so is the innermost but for some names that it may have
gained (`Environment.Framed`).

Assigning to a target frames the environment, and declaring a name does if it is one that
may be gained. What is done in a scope of its own, which may gain any name, frames the
environment around it with nothing gained, since what is left of the scope is dropped
(`Environment.Framed.pop`).
-/
import Lipi.Proofs.Environment
import Mathlib.Data.List.Forall2

set_option autoImplicit false

namespace Lipi

/-! ## Bindings and scopes -/

/-- What becomes of a binding: the mutability stays, and so does the value unless the
binding is mutable and that of a target. -/
structure Binding.Kept (targets : String → Prop) (name : String) (b b' : Binding) : Prop where
  mutability : b'.mutability = b.mutability
  constant : b.mutability = .constant → b'.value = b.value
  untouched : ¬ targets name → b'.value = b.value

namespace Binding.Kept

variable {targets : String → Prop} {name : String} {b b' b'' : Binding}

theorem refl (targets : String → Prop) (name : String) (b : Binding) : Kept targets name b b :=
  ⟨rfl, fun _ => rfl, fun _ => rfl⟩

theorem trans (h : Kept targets name b b') (h' : Kept targets name b' b'') :
    Kept targets name b b'' := by
  refine ⟨h'.mutability.trans h.mutability, ?_, ?_⟩
  · intro hconstant
    have hconstant' : b'.mutability = .constant := h.mutability.trans hconstant
    rw [h'.constant hconstant', h.constant hconstant]
  · intro hname
    rw [h'.untouched hname, h.untouched hname]

theorem withValue (hname : targets name) (hb : b.mutability = .mutable) (value : Value) :
    Kept targets name b (b.withValue value) := by
  refine ⟨rfl, ?_, fun h => absurd hname h⟩
  intro hconstant
  rw [hb] at hconstant
  cases hconstant

end Binding.Kept

/-- Entries for a name, both missing or both there with the binding kept. -/
abbrev Binding.KeptEntry (targets : String → Prop) (name : String) :
    Option Binding → Option Binding → Prop :=
  Option.Rel (Kept targets name)

namespace Binding.KeptEntry

variable {targets : String → Prop} {name : String} {x y z : Option Binding}

theorem refl (targets : String → Prop) (name : String) (x : Option Binding) :
    KeptEntry targets name x x := by
  cases x with
  | none => exact .none
  | some b => exact .some (.refl targets name b)

theorem trans (h : KeptEntry targets name x y) (h' : KeptEntry targets name y z) :
    KeptEntry targets name x z := by
  cases h with
  | none => exact h'
  | some hb =>
    cases h' with
    | some hb' => exact .some (hb.trans hb')

/-- An entry is missing if it was. -/
theorem eq_none (h : KeptEntry targets name x y) (hy : y = none) : x = none := by
  subst hy
  cases h
  rfl

/-- A constant stays as it was. -/
theorem constant {b : Binding} (h : KeptEntry targets name x y) (hx : x = some b)
    (hb : b.mutability = .constant) : y = some b := by
  subst hx
  cases h with
  | @some _ b' hkept =>
    have hvalue : b'.value = b.value := hkept.constant hb
    have hmutability : b'.mutability = b.mutability := hkept.mutability
    obtain ⟨value, mutability⟩ := b
    obtain ⟨value', mutability'⟩ := b'
    cases hvalue
    cases hmutability
    rfl

end Binding.KeptEntry

open Binding

/-- The same names as before, each with its binding kept. -/
def Scope.Kept (targets : String → Prop) (scope scope' : Scope) : Prop :=
  ∀ name, KeptEntry targets name (scope.get? name) (scope'.get? name)

namespace Scope.Kept

variable {targets : String → Prop}

theorem refl (targets : String → Prop) (scope : Scope) : Scope.Kept targets scope scope :=
  fun name => .refl targets name _

theorem trans {scope scope' scope'' : Scope} (h : Scope.Kept targets scope scope')
    (h' : Scope.Kept targets scope' scope'') : Scope.Kept targets scope scope'' :=
  fun name => (h name).trans (h' name)

theorem update {name : String} (hname : targets name) {scope : Scope} {b : Binding}
    (hget : scope.get? name = some b) (hb : b.mutability = .mutable) (value : Value) :
    Scope.Kept targets scope (scope.update name value) := by
  intro other
  by_cases h : other = name
  · subst h
    rw [get?_update_self, hget]
    exact .some (Binding.Kept.withValue hname hb value)
  · rw [get?_update_other h]
    exact .refl targets other _

end Scope.Kept

/-- Scopes one by one. -/
abbrev Scope.KeptAll (targets : String → Prop) : List Scope → List Scope → Prop :=
  List.Forall₂ (Scope.Kept targets)

namespace Scope.KeptAll

variable {targets : String → Prop}

theorem refl (targets : String → Prop) (scopes : List Scope) : KeptAll targets scopes scopes :=
  List.forall₂_same.mpr fun scope _ => .refl targets scope

theorem trans {scopes scopes' scopes'' : List Scope} (h : KeptAll targets scopes scopes')
    (h' : KeptAll targets scopes' scopes'') : KeptAll targets scopes scopes'' := by
  induction h generalizing scopes'' with
  | nil => exact h'
  | cons hscope _ ih =>
    cases h' with
    | cons hscope' hrest => exact .cons (hscope.trans hscope') (ih hrest)

/-- Changing the first binding that a target has, if it is mutable. -/
theorem updateFirst {name : String} (hname : targets name) (value : Value) (scopes : List Scope)
    (h : ∀ b, scopes.findSome? (·.get? name) = some b → b.mutability = .mutable) :
    KeptAll targets scopes (Environment.updateFirst name value scopes) := by
  induction scopes with
  | nil => exact .nil
  | cons scope scopes ih =>
    cases hget : scope.get? name with
    | some b =>
      -- This is the binding that is found, so it is the mutable one.
      have hb : b.mutability = .mutable := h b (by rw [List.findSome?_cons, hget])
      simp only [Environment.updateFirst, hget]
      exact .cons (Scope.Kept.update hname hget hb value) (KeptAll.refl targets scopes)
    | none =>
      have hrest := ih fun b hb => h b (by rw [List.findSome?_cons, hget]; exact hb)
      simp only [Environment.updateFirst, hget]
      exact .cons (.refl targets scope) hrest

/-- The first binding of a name is kept, or there still is none. -/
theorem findSome? {scopes scopes' : List Scope} (h : KeptAll targets scopes scopes')
    (name : String) :
    KeptEntry targets name (scopes.findSome? (·.get? name)) (scopes'.findSome? (·.get? name)) := by
  induction h with
  | nil => exact .none
  | @cons scope scope' _ _ hscope _ ih =>
    have hentry := hscope name
    rw [List.findSome?_cons, List.findSome?_cons]
    generalize scope.get? name = x, scope'.get? name = y at hentry
    cases hentry with
    | none => exact ih
    | some hb => exact .some hb

end Scope.KeptAll

/-! ## Environments -/

namespace Environment

/-- What becomes of an environment: the scopes below the innermost are kept, and so is the
innermost but for names that it may have gained. -/
structure Framed (gained targets : String → Prop) (e f : Environment) : Prop where
  outer : Scope.KeptAll targets e.outer f.outer
  innermost : ∀ name, KeptEntry targets name (e.innermost.get? name) (f.innermost.get? name)
    ∨ gained name ∧ e.innermost.get? name = none

namespace Framed

variable {gained targets : String → Prop} {e f g : Environment}

theorem refl (gained targets : String → Prop) (e : Environment) : Framed gained targets e e :=
  ⟨.refl targets e.outer, fun name => .inl (.refl targets name _)⟩

theorem trans (h : Framed gained targets e f) (h' : Framed gained targets f g) :
    Framed gained targets e g := by
  refine ⟨h.outer.trans h'.outer, fun name => ?_⟩
  -- What the second step gained was missing after the first, and so before it.
  rcases h.innermost name with hkept | hnew
  · rcases h'.innermost name with hkept' | ⟨hgained, hnone⟩
    · exact .inl (hkept.trans hkept')
    · exact .inr ⟨hgained, hkept.eq_none hnone⟩
  · exact .inr hnew

/-- No scope is opened or closed. -/
theorem height (h : Framed gained targets e f) : f.height = e.height :=
  congrArg Nat.succ h.outer.length_eq.symm

/-- Where every scope is kept, nothing is gained. -/
theorem of_scopes (h : Scope.KeptAll targets e.scopes f.scopes) : Framed gained targets e f := by
  obtain ⟨hinnermost, houter⟩ := List.forall₂_cons.mp h
  exact ⟨houter, fun name => .inl (hinnermost name)⟩

/-- Where nothing is gained, every scope is kept. -/
theorem scopes (h : Framed (fun _ => False) targets e f) :
    Scope.KeptAll targets e.scopes f.scopes :=
  .cons (fun name => (h.innermost name).resolve_right And.left) h.outer

/-- What a name means is kept, where nothing is gained. -/
theorem binding? (h : Framed (fun _ => False) targets e f) (name : String) :
    KeptEntry targets name (e.binding? name) (f.binding? name) :=
  h.scopes.findSome? name

theorem assign {name : String} {value : Value} (hname : targets name)
    (h : e.assign name value = .ok f) : Framed gained targets e f := by
  unfold Environment.assign at h
  cases hbinding : e.binding? name with
  | none =>
    rw [hbinding] at h
    cases h
  | some b =>
    rw [hbinding] at h
    cases hb : b.mutability with
    | constant =>
      simp only [hb] at h
      cases h
    | mutable =>
      simp only [hb] at h
      cases h
      apply of_scopes
      rw [scopes_update]
      refine .updateFirst hname value e.scopes fun b' hb' => ?_
      have hsame : some b = some b' := hbinding.symm.trans hb'
      cases hsame
      exact hb

theorem declare {name : String} {b : Binding} (hname : gained name)
    (h : e.declare name b = .ok f) : Framed gained targets e f := by
  unfold Environment.declare at h
  cases hget : e.innermost.get? name with
  | some _ =>
    rw [hget] at h
    cases h
  | none =>
    rw [hget] at h
    cases h
    refine ⟨.refl targets e.outer, fun other => ?_⟩
    by_cases hother : other = name
    · subst hother
      exact .inr ⟨hname, hget⟩
    · left
      show KeptEntry targets other _ (Scope.get? ((name, b) :: e.innermost) other)
      rw [Scope.get?_cons, if_neg hother]
      exact .refl targets other _

/-- What is done in a scope of its own leaves nothing in the environment around it. -/
theorem pop {within : String → Prop} (h : Framed within targets e.push f) :
    Framed gained targets e f.pop := by
  obtain ⟨innermost, outer⟩ := f
  have houter : Scope.KeptAll targets e.scopes outer := h.outer
  cases houter with
  | cons hinnermost hrest => exact ⟨hrest, fun name => .inl (hinnermost name)⟩

end Framed

end Environment

end Lipi
