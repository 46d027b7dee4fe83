/-
Environments, one name at a time.

What an environment says about a name is a column: for each scope, the innermost first,
the binding that the name has there, if it has one. Reading takes the first binding of
the column. Every operation changes columns in a simple way, whatever else the scopes
hold: entering a scope puts a gap on top, leaving it takes the top off, declaring fills
the gap on top of one column, assigning changes the first binding of one column. Scopes
are kept as rows of pairs in the order of declaration; nothing said here depends on it.

Two environments agree on some names if they have as many scopes and the same columns for
these names (`Environment.Agrees`). Whatever is done to both with these names, they still
agree, and either both operations succeed or both fail in the same way.
-/
import Lipi.Environment
import Lipi.Proofs.Procedure

set_option autoImplicit false

namespace Lipi

/-- A binding with another value. -/
def Binding.withValue (b : Binding) (value : Value) : Binding := { b with value }

/-! ## Scopes -/

namespace Scope

theorem get?_cons (n : String) (b : Binding) (scope : Scope) (name : String) :
    get? ((n, b) :: scope) name = if name = n then some b else scope.get? name := by
  rw [get?, List.lookup_cons]
  by_cases h : name = n
  · rw [if_pos h, beq_iff_eq.mpr h]
  · rw [if_neg h, beq_eq_false_iff_ne.mpr h]
    rfl

theorem get?_update_self (name : String) (value : Value) (scope : Scope) :
    (scope.update name value).get? name = (scope.get? name).map (·.withValue value) := by
  induction scope with
  | nil => rfl
  | cons entry scope ih =>
    obtain ⟨n, b⟩ := entry
    rw [update]
    by_cases h : n = name
    · rw [if_pos h, get?_cons, get?_cons, if_pos h.symm, if_pos h.symm]
      rfl
    · rw [if_neg h, get?_cons, get?_cons, if_neg (Ne.symm h), if_neg (Ne.symm h), ih]

theorem get?_update_other {name other : String} (hne : other ≠ name) (value : Value)
    (scope : Scope) : (scope.update name value).get? other = scope.get? other := by
  induction scope with
  | nil => rfl
  | cons entry scope ih =>
    obtain ⟨n, b⟩ := entry
    rw [update]
    by_cases h : n = name
    · have hother : other ≠ n := fun he => hne (he.trans h)
      rw [if_pos h, get?_cons, get?_cons, if_neg hother, if_neg hother]
    · rw [if_neg h, get?_cons, get?_cons, ih]

end Scope

/-! ## Columns -/

namespace Environment

/-- What a name stands for in each scope, the innermost first. -/
def column (env : Environment) (name : String) : List (Option Binding) :=
  env.scopes.map (·.get? name)

/-- A column whose first binding has another value. -/
def assigned (value : Value) : List (Option Binding) → List (Option Binding)
  | [] => []
  | none :: rest => none :: assigned value rest
  | some b :: rest => some (b.withValue value) :: rest

theorem column_eq_cons (env : Environment) (name : String) :
    env.column name = env.innermost.get? name :: env.outer.map (·.get? name) := rfl

@[simp] theorem column_push (env : Environment) (name : String) :
    env.push.column name = none :: env.column name := rfl

theorem binding?_eq (env : Environment) (name : String) :
    env.binding? name = (env.column name).findSome? id := by
  rw [binding?, column, List.findSome?_map]
  rfl

theorem column_updateFirst_self (name : String) (value : Value) (scopes : List Scope) :
    (updateFirst name value scopes).map (·.get? name)
      = assigned value (scopes.map (·.get? name)) := by
  induction scopes with
  | nil => rfl
  | cons scope scopes ih =>
    cases h : scope.get? name with
    | none => simp only [updateFirst, h, List.map_cons, assigned, ih]
    | some b =>
      simp only [updateFirst, h, List.map_cons, assigned, Scope.get?_update_self, Option.map_some]

theorem column_updateFirst_other {name other : String} (hne : other ≠ name) (value : Value)
    (scopes : List Scope) :
    (updateFirst name value scopes).map (·.get? other) = scopes.map (·.get? other) := by
  induction scopes with
  | nil => rfl
  | cons scope scopes ih =>
    cases h : scope.get? name with
    | none => simp only [updateFirst, h, List.map_cons, ih]
    | some b => simp only [updateFirst, h, List.map_cons, Scope.get?_update_other hne]

/-- Giving a name another value changes the first binding of its column. -/
theorem column_update_self (env : Environment) (name : String) (value : Value) :
    (env.update name value).column name = assigned value (env.column name) := by
  rw [column, scopes_update, column_updateFirst_self, column]

/-- Giving a name another value leaves all other columns alone. -/
theorem column_update_other {name other : String} (hne : other ≠ name) (env : Environment)
    (value : Value) : (env.update name value).column other = env.column other := by
  rw [column, scopes_update, column_updateFirst_other hne, column]

/-! ## Agreeing environments -/

/-- As many scopes, and the same in each of them as far as some names go. -/
structure Agrees (names : String → Prop) (e f : Environment) : Prop where
  height : e.height = f.height
  column : ∀ name, names name → e.column name = f.column name

namespace Agrees

variable {names : String → Prop} {e f g : Environment}

theorem refl (names : String → Prop) (e : Environment) : Agrees names e e :=
  ⟨rfl, fun _ _ => rfl⟩

theorem symm (h : Agrees names e f) : Agrees names f e :=
  ⟨h.height.symm, fun name hname => (h.column name hname).symm⟩

theorem trans (h : Agrees names e f) (h' : Agrees names f g) : Agrees names e g :=
  ⟨h.height.trans h'.height, fun name hname => (h.column name hname).trans (h'.column name hname)⟩

theorem binding? (h : Agrees names e f) {name : String} (hname : names name) :
    e.binding? name = f.binding? name := by
  rw [binding?_eq, binding?_eq, h.column name hname]

theorem get (h : Agrees names e f) {name : String} (hname : names name) :
    e.get name = f.get name := by
  rw [Environment.get, Environment.get, h.binding? hname]

theorem push (h : Agrees names e f) : Agrees names e.push f.push := by
  refine ⟨congrArg Nat.succ h.height, fun name hname => ?_⟩
  rw [column_push, column_push, h.column name hname]

theorem pop (h : Agrees names e f) : Agrees names e.pop f.pop := by
  obtain ⟨innermost, _ | ⟨scope, outer⟩⟩ := e
  · obtain ⟨innermost', _ | ⟨scope', outer'⟩⟩ := f
    · exact h
    · exact absurd h.height nofun
  · obtain ⟨innermost', _ | ⟨scope', outer'⟩⟩ := f
    · exact absurd h.height nofun
    · exact ⟨Nat.succ.inj h.height, fun name hname => congrArg List.tail (h.column name hname)⟩

/-- Assigning to one of the names succeeds in both or fails in both. -/
theorem assign (h : Agrees names e f) {name : String} (hname : names name) (value : Value) :
    Agree (fun a b => a = b) (Agrees names) (e.assign name value) (f.assign name value) := by
  rw [Environment.assign, Environment.assign, h.binding? hname]
  cases f.binding? name with
  | none => exact .error rfl
  | some b =>
    obtain ⟨old, mutability⟩ := b
    cases mutability with
    | constant => exact .error rfl
    | mutable =>
      refine .ok ⟨?_, fun other hother => ?_⟩
      · rw [height_update, height_update, h.height]
      · by_cases he : other = name
        · subst he
          rw [column_update_self, column_update_self, h.column other hother]
        · rw [column_update_other he, column_update_other he, h.column other hother]

/-- Declaring one of the names succeeds in both or fails in both. -/
theorem declare (h : Agrees names e f) {name : String} (hname : names name) (b : Binding) :
    Agree (fun a b => a = b) (Agrees names) (e.declare name b) (f.declare name b) := by
  have htop : e.innermost.get? name = f.innermost.get? name :=
    (List.cons.inj (h.column name hname)).1
  rw [Environment.declare, Environment.declare, htop]
  cases f.innermost.get? name with
  | some _ => exact .error rfl
  | none =>
    refine .ok ⟨h.height, fun other hother => ?_⟩
    obtain ⟨hinner, houter⟩ := List.cons.inj (h.column other hother)
    simp only [column_eq_cons, Scope.get?_cons, hinner, houter]

end Agrees

end Environment

end Lipi
