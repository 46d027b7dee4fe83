/-
Scopes changed in place.

Environments answer with new environments, and they have a scope by their type. Here is the
stack itself, a list of scopes with the innermost first, and each operation changes it where it
is and then says how it went (`InPlace`). Nothing keeps the list from being empty but what the
operations do: the last scope is not taken off, and declaring looks whether there is one. An
assignment finds the binding that a name means together with the place where it stands
(`Scope.focus?`, `InPlace.focus?`), and puts the new value there.

On the scopes of an environment each operation does what it does to the environment
(`InPlace.declare_scopes`, `InPlace.assign_scopes`, `InPlace.get_scopes`), so an environment may
stand for its stack.
-/
import Lipi.Environment

set_option autoImplicit false

namespace Lipi

/-- A computation on a stack of scopes that may end in a fault. A fault loses no change. -/
abbrev InPlace (α : Type) := ExceptT Fault (StateM (List Scope)) α

/-- The binding of a name in a scope, with a way to put another in its place. -/
def Scope.focus? (name : String) : Scope → Option (Binding × (Binding → Scope))
  | [] => none
  | (n, b) :: rest =>
    if n = name then some (b, fun b => (n, b) :: rest)
    else (focus? name rest).map fun (found, put) => (found, fun other => (n, b) :: put other)

namespace InPlace

/-- The stack in which a program begins. -/
def fresh : List Scope := [[]]

/-! ## The operations -/

/-- Enters a scope (`push_scope`). -/
def push : InPlace Unit := fun scopes => (.ok (), [] :: scopes)

/-- Leaves the innermost scope, unless it is the last (`pop_scope`). -/
def pop : InPlace Unit := fun scopes =>
  (.ok (), if 1 < scopes.length then scopes.tail else scopes)

/-- Declares a name in the innermost scope (`declare`). -/
def declare (name : String) (b : Binding) : InPlace Unit := fun scopes =>
  match scopes with
  | [] => (.error (.undefined name), scopes)
  | scope :: rest =>
    if (scope.get? name).isSome then (.error (.redeclared name), scopes)
    else (.ok (), ((name, b) :: scope) :: rest)

/-- The binding that a name means, with a way to put another in its place. -/
def focus? (name : String) : List Scope → Option (Binding × (Binding → List Scope))
  | [] => none
  | scope :: rest =>
    match scope.focus? name with
    | some (found, put) => some (found, fun other => put other :: rest)
    | none => (focus? name rest).map fun (found, put) => (found, fun other => scope :: put other)

/-- The value that a name means (`get`). -/
def get (name : String) : InPlace Value := fun scopes =>
  match scopes.findSome? (·.get? name) with
  | some b => (.ok b.value, scopes)
  | none => (.error (.undefined name), scopes)

/-- Assigns to a name (`assign`). -/
def assign (name : String) (value : Value) : InPlace Unit := fun scopes =>
  match focus? name scopes with
  | none => (.error (.undefined name), scopes)
  | some (b, put) =>
    match b.mutability with
    | .constant => (.error (.constant name), scopes)
    | .mutable => (.ok (), put { b with value })

/-! ## On the scopes of an environment -/

theorem focus?_eq_none {scope : Scope} {name : String} (h : scope.get? name = none) :
    scope.focus? name = none := by
  induction scope with
  | nil => rfl
  | cons entry scope ih =>
    obtain ⟨n, b⟩ := entry
    by_cases hn : n = name
    · rw [Scope.get?, List.lookup_cons, hn, beq_self_eq_true] at h
      cases h
    · have hne : (name == n) = false := beq_eq_false_iff_ne.mpr (Ne.symm hn)
      rw [Scope.get?, List.lookup_cons, hne] at h
      rw [Scope.focus?, if_neg hn, ih h, Option.map_none]

/-- Putting another value in the place of a binding is updating it. -/
theorem focus?_eq_some {scope : Scope} {name : String} {b : Binding}
    (h : scope.get? name = some b) :
    ∃ put, scope.focus? name = some (b, put)
      ∧ ∀ value, put { b with value } = scope.update name value := by
  induction scope with
  | nil => cases h
  | cons entry scope ih =>
    obtain ⟨n, b'⟩ := entry
    by_cases hn : n = name
    · rw [Scope.get?, List.lookup_cons, hn, beq_self_eq_true] at h
      cases h
      refine ⟨_, by rw [Scope.focus?, if_pos hn], fun value => ?_⟩
      rw [Scope.update, if_pos hn]
    · have hne : (name == n) = false := beq_eq_false_iff_ne.mpr (Ne.symm hn)
      rw [Scope.get?, List.lookup_cons, hne] at h
      obtain ⟨put, hfocus, hput⟩ := ih h
      refine ⟨_, by rw [Scope.focus?, if_neg hn, hfocus, Option.map_some], fun value => ?_⟩
      rw [Scope.update, if_neg hn, hput]

theorem focus?_scopes_eq_none {scopes : List Scope} {name : String}
    (h : scopes.findSome? (·.get? name) = none) : focus? name scopes = none := by
  induction scopes with
  | nil => rfl
  | cons scope scopes ih =>
    rw [List.findSome?_cons] at h
    cases hget : scope.get? name with
    | some b =>
      rw [hget] at h
      cases h
    | none =>
      rw [hget] at h
      rw [focus?, focus?_eq_none hget]
      dsimp only
      rw [ih h, Option.map_none]

theorem focus?_scopes_eq_some {scopes : List Scope} {name : String} {b : Binding}
    (h : scopes.findSome? (·.get? name) = some b) :
    ∃ put, focus? name scopes = some (b, put)
      ∧ ∀ value, put { b with value } = Environment.updateFirst name value scopes := by
  induction scopes with
  | nil => cases h
  | cons scope scopes ih =>
    rw [List.findSome?_cons] at h
    cases hget : scope.get? name with
    | some b' =>
      rw [hget] at h
      cases h
      obtain ⟨put, hfocus, hput⟩ := focus?_eq_some hget
      refine ⟨_, by rw [focus?, hfocus], fun value => ?_⟩
      rw [Environment.updateFirst, hget]
      dsimp only
      rw [hput]
    | none =>
      rw [hget] at h
      obtain ⟨put, hfocus, hput⟩ := ih h
      refine ⟨_, by rw [focus?, focus?_eq_none hget, hfocus, Option.map_some], fun value => ?_⟩
      rw [Environment.updateFirst, hget]
      dsimp only
      rw [hput]

/-- How an operation of an environment goes, and the scopes that it leaves. -/
def outcome (env : Environment) : Except Fault Environment → Except Fault Unit × List Scope
  | .ok left => (.ok (), left.scopes)
  | .error fault => (.error fault, env.scopes)

theorem push_scopes (env : Environment) : push env.scopes = (.ok (), env.push.scopes) := rfl

theorem pop_scopes (env : Environment) : pop env.scopes = (.ok (), env.pop.scopes) := by
  obtain ⟨innermost, _ | ⟨scope, outer⟩⟩ := env <;> rfl

theorem declare_scopes (env : Environment) (name : String) (b : Binding) :
    declare name b env.scopes = outcome env (env.declare name b) := by
  -- The scopes of an environment have a first one, so the branch without a scope is not taken.
  rw [Environment.declare]
  cases hget : env.innermost.get? name with
  | some b' =>
    show (if (env.innermost.get? name).isSome then _ else _) = _
    rw [hget]
    rfl
  | none =>
    show (if (env.innermost.get? name).isSome then _ else _) = _
    rw [hget]
    rfl

theorem get_scopes (env : Environment) (name : String) :
    get name env.scopes = (env.get name, env.scopes) := by
  rw [get, Environment.get, Environment.binding?]
  cases env.scopes.findSome? (·.get? name) <;> rfl

theorem assign_scopes (env : Environment) (name : String) (value : Value) :
    assign name value env.scopes = outcome env (env.assign name value) := by
  -- Both find the same binding; a constant is refused before anything is put in its place.
  rw [assign, Environment.assign]
  cases hbinding : env.binding? name with
  | none =>
    rw [focus?_scopes_eq_none hbinding]
    rfl
  | some b =>
    obtain ⟨put, hfocus, hput⟩ := focus?_scopes_eq_some hbinding
    rw [hfocus]
    dsimp only
    have hwritten := hput value
    cases hb : b.mutability with
    | constant => rfl
    | mutable =>
      rw [hb] at hwritten
      dsimp only
      rw [hwritten, ← Environment.scopes_update]
      rfl

end InPlace

end Lipi
