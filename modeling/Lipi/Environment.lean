/-
Environments: what names stand for.

An environment is a stack of scopes, the innermost first, and it is never empty:
the outermost scope is the program's own, and leaving it does nothing. A name means
its binding in the innermost scope that has one. Declaring looks at the innermost
scope only; assigning changes the binding that reading would find, and a constant
there is not passed over in search of another. An operation that fails changes
nothing, because it answers with no environment at all.
-/
import Lipi.Fault
import Lipi.Mutability
import Lipi.Value

set_option autoImplicit false

namespace Lipi

/-! ## Scopes -/

/-- What a name stands for (`Binding`). -/
structure Binding where
  value : Value
  mutability : Mutability
deriving DecidableEq, Repr

/-- The names of one block, the latest first. -/
abbrev Scope := List (String × Binding)

namespace Scope

/-- What a name stands for in a scope. -/
def get? (scope : Scope) (name : String) : Option Binding := scope.lookup name

/-- Gives a name of a scope another value. -/
def update (name : String) (value : Value) : Scope → Scope
  | [] => []
  | (n, b) :: rest =>
    if n = name then (n, { b with value }) :: rest else (n, b) :: update name value rest

end Scope

/-! ## Environments -/

/-- A stack of at least one scope (`Environment`). -/
structure Environment where
  innermost : Scope
  outer : List Scope
deriving DecidableEq, Repr

namespace Environment

/-- The environment in which a program begins. -/
def empty : Environment := ⟨[], []⟩

instance : Inhabited Environment := ⟨empty⟩

/-- All scopes, the innermost first. -/
def scopes (env : Environment) : List Scope := env.innermost :: env.outer

/-- How many scopes there are. -/
def height (env : Environment) : Nat := env.scopes.length

/-- Enters a scope (`push_scope`). -/
def push (env : Environment) : Environment := ⟨[], env.scopes⟩

/-- Leaves the innermost scope, unless it is the last (`pop_scope`). -/
def pop (env : Environment) : Environment :=
  match env.outer with
  | [] => env
  | scope :: rest => ⟨scope, rest⟩

/-- The binding that a name means. -/
def binding? (env : Environment) (name : String) : Option Binding :=
  env.scopes.findSome? (·.get? name)

/-- The value that a name means (`get`). -/
def get (env : Environment) (name : String) : Except Fault Value :=
  match env.binding? name with
  | some b => .ok b.value
  | none => .error (.undefined name)

/-- Declares a name in the innermost scope (`declare`). -/
def declare (env : Environment) (name : String) (b : Binding) : Except Fault Environment :=
  match env.innermost.get? name with
  | some _ => .error (.redeclared name)
  | none => .ok { env with innermost := (name, b) :: env.innermost }

/-- Gives a name another value in the first scope that has it. -/
def updateFirst (name : String) (value : Value) : List Scope → List Scope
  | [] => []
  | scope :: rest =>
    match scope.get? name with
    | some _ => scope.update name value :: rest
    | none => scope :: updateFirst name value rest

/-- Gives the binding that a name means another value. -/
def update (env : Environment) (name : String) (value : Value) : Environment :=
  match env.innermost.get? name with
  | some _ => { env with innermost := env.innermost.update name value }
  | none => { env with outer := updateFirst name value env.outer }

/-- Assigns to a name (`assign`). -/
def assign (env : Environment) (name : String) (value : Value) : Except Fault Environment :=
  match env.binding? name with
  | none => .error (.undefined name)
  | some b =>
    match b.mutability with
    | .constant => .error (.constant name)
    | .mutable => .ok (env.update name value)

/-! ## Small facts -/

@[simp] theorem scopes_push (env : Environment) : env.push.scopes = [] :: env.scopes := rfl

@[simp] theorem pop_push (env : Environment) : env.push.pop = env := rfl

/-- An update is one of the scopes. -/
theorem scopes_update (env : Environment) (name : String) (value : Value) :
    (env.update name value).scopes = updateFirst name value env.scopes := by
  cases h : env.innermost.get? name <;> simp [update, scopes, updateFirst, h]

theorem length_updateFirst (name : String) (value : Value) (scopes : List Scope) :
    (updateFirst name value scopes).length = scopes.length := by
  induction scopes with
  | nil => rfl
  | cons scope rest ih =>
    cases h : scope.get? name <;> simp [updateFirst, h, ih]

/-- Assigning opens and closes no scope. -/
theorem height_update (env : Environment) (name : String) (value : Value) :
    (env.update name value).height = env.height := by
  rw [height, scopes_update, length_updateFirst, height]

end Environment

end Lipi
