/-
Environments are lexical scopes.

Lexical scoping is said here without environments. A stack of finite maps, the innermost first,
is all there is; a name means its binding in the innermost map that has it (`Lexical.Finds`),
reading and assigning go there, and declaring looks at the innermost map alone. Each operation
has its rules, one for every way it can end (`Lexical.Performs`). They say what declaring does
where there is no map at all, but a stack that has one always has one (`Lexical.Runs.ne_nil`).

An environment shows its scopes as such maps (`Environment.frames`), and what the operations
answer and leave behind is what the rules say, step by step (`performs_perform`) and so for every
sequence of them (`runs_performAll`). The rules leave no choice (`Lexical.Performs.unique`).

The same operations on a bare list of scopes, changed in place, answer the same and leave the same
scopes (`performAllInPlace_eq`). Such a list could be empty, but never is.

What a failed operation leaves is what was there. A constant keeps its value as long as its
scope is there: an operation inside the scopes frames them (`Environment.Framed`), and framing
keeps constants; entering and leaving change the innermost end of the stack only. Scopes are
counted from the outermost for this (`Environment.bindingAt`), since those within come and go.
-/
import Lipi.Environment.InPlace
import Lipi.Sandbox
import Lipi.Proofs.Environment.Frame
import Lipi.Proofs.Text.Stretch
import Mathlib.Data.Finmap

set_option autoImplicit false

namespace Lipi

/-! ## Operations -/

namespace Environment

/-- What is done to an environment. -/
inductive Operation where
  | push
  | pop
  | declare (name : String) (b : Binding)
  | assign (name : String) (value : Value)
  | get (name : String)

/-- What an operation answers: a fault, or the value that was asked for. -/
abbrev Answer := Except Fault (Option Value)

open Activity in
/-- Performs an operation in a sandbox. -/
def Operation.perform : Operation → Activity (Option Value)
  | push => do
    change Sandbox.enter
    return none
  | pop => do
    change Sandbox.leave
    return none
  | declare name b => do
    Activity.declare name b
    return none
  | assign name value => do
    evaluation (Evaluation.store name value)
    return none
  | get name => do
    return some (← evaluation (Evaluation.read name))

/-- Performs operations one after the other, whatever they answer. -/
def performAll : List Operation → Sandbox → List Answer × Sandbox
  | [], s => ([], s)
  | op :: ops, s =>
    let (answer, s) := op.perform s
    let (answers, s) := performAll ops s
    (answer :: answers, s)

/-- Performs an operation on a list of scopes. -/
def Operation.performInPlace : Operation → InPlace (Option Value)
  | push => do
    InPlace.push
    return none
  | pop => do
    InPlace.pop
    return none
  | declare name b => do
    InPlace.declare name b
    return none
  | assign name value => do
    InPlace.assign name value
    return none
  | get name => do
    return some (← InPlace.get name)

/-- Performs operations on a list of scopes, whatever they answer. -/
def performAllInPlace : List Operation → List Scope → List Answer × List Scope
  | [], scopes => ([], scopes)
  | op :: ops, scopes =>
    let (answer, scopes) := op.performInPlace scopes
    let (answers, scopes) := performAllInPlace ops scopes
    (answer :: answers, scopes)

/-- What operations answer that begin with nothing declared. -/
def answers (ops : List Operation) : List Answer := (performAll ops .fresh).1

/-- Where operations lead that begin with nothing declared. -/
def reached (ops : List Operation) : Sandbox := (performAll ops .fresh).2

end Environment

open Environment (Operation Answer)

/-! ## Lexical scopes -/

namespace Lexical

/-- The names of a scope as a finite map. -/
abbrev Frame := Finmap fun _ : String => Binding

/-- The innermost map that has a name, with those inside of it, those around it, and what the
name stands for in it. -/
structure Finds (stack : List Frame) (name : String) (inner : List Frame) (frame : Frame)
    (outer : List Frame) (b : Binding) : Prop where
  stack_eq : stack = inner ++ frame :: outer
  not_mem : ∀ f ∈ inner, name ∉ f
  lookup : frame.lookup name = some b

/-- What an operation on a stack of maps answers, and the stack that it leaves. -/
inductive Performs : List Frame → Operation → Answer → List Frame → Prop where
  | push (stack : List Frame) : Performs stack .push (.ok none) (∅ :: stack)
  | pop (frame next : Frame) (outer : List Frame) :
      Performs (frame :: next :: outer) .pop (.ok none) (next :: outer)
  /-- The last map is never left. -/
  | popLast {stack : List Frame} (h : stack.length ≤ 1) : Performs stack .pop (.ok none) stack
  | declare {frame : Frame} {name : String} (h : name ∉ frame) (outer : List Frame)
      (b : Binding) :
      Performs (frame :: outer) (.declare name b) (.ok none) (frame.insert name b :: outer)
  | redeclare {frame : Frame} {name : String} (h : name ∈ frame) (outer : List Frame)
      (b : Binding) :
      Performs (frame :: outer) (.declare name b) (.error (.redeclared name)) (frame :: outer)
  | declareNowhere (name : String) (b : Binding) :
      Performs [] (.declare name b) (.error (.undefined name)) []
  | assign {stack inner outer : List Frame} {frame : Frame} {name : String} {b : Binding}
      (h : Finds stack name inner frame outer b) (hb : b.mutability = .mutable) (value : Value) :
      Performs stack (.assign name value) (.ok none)
        (inner ++ frame.insert name (b.withValue value) :: outer)
  | assignConstant {stack inner outer : List Frame} {frame : Frame} {name : String} {b : Binding}
      (h : Finds stack name inner frame outer b) (hb : b.mutability = .constant) (value : Value) :
      Performs stack (.assign name value) (.error (.constant name)) stack
  | assignUndefined {stack : List Frame} {name : String} (h : ∀ f ∈ stack, name ∉ f)
      (value : Value) :
      Performs stack (.assign name value) (.error (.undefined name)) stack
  | get {stack inner outer : List Frame} {frame : Frame} {name : String} {b : Binding}
      (h : Finds stack name inner frame outer b) :
      Performs stack (.get name) (.ok (some b.value)) stack
  | getUndefined {stack : List Frame} {name : String} (h : ∀ f ∈ stack, name ∉ f) :
      Performs stack (.get name) (.error (.undefined name)) stack

/-- What a sequence of operations answers, and the stack that it leaves. -/
inductive Runs : List Frame → List Operation → List Answer → List Frame → Prop where
  | nil (stack : List Frame) : Runs stack [] [] stack
  | cons {stack stack' stack'' : List Frame} {op : Operation} {ops : List Operation}
      {answer : Answer} {answers : List Answer} (h : Performs stack op answer stack')
      (hrest : Runs stack' ops answers stack'') :
      Runs stack (op :: ops) (answer :: answers) stack''

/-! ### The rules leave no choice -/

variable {stack stack' inner inner' outer outer' : List Frame} {frame frame' : Frame}
  {name : String} {b b' : Binding} {op : Operation} {answer answer' : Answer}

theorem Finds.not_undefined (h : Finds stack name inner frame outer b) :
    ¬ ∀ f ∈ stack, name ∉ f := by
  intro hall
  refine hall frame ?_ (Finmap.mem_iff.mpr ⟨b, h.lookup⟩)
  rw [h.stack_eq]
  exact List.mem_append_right _ List.mem_cons_self

theorem Finds.unique (h : Finds stack name inner frame outer b)
    (h' : Finds stack name inner' frame' outer' b') :
    inner = inner' ∧ frame = frame' ∧ outer = outer' ∧ b = b' := by
  -- The maps inside are the longest row of maps without the name.
  have hcut : inner = inner' ∧ frame :: outer = frame' :: outer' := by
    refine stretch_unique (p := fun f : Frame => decide (name ∉ f)) ?_ ?_ ?_ ?_
      (h.stack_eq.symm.trans h'.stack_eq)
    · exact fun f hf => decide_eq_true (h.not_mem f hf)
    · exact fun f hf => decide_eq_true (h'.not_mem f hf)
    · rintro f ⟨⟩
      exact decide_eq_false (not_not.mpr (Finmap.mem_iff.mpr ⟨b, h.lookup⟩))
    · rintro f ⟨⟩
      exact decide_eq_false (not_not.mpr (Finmap.mem_iff.mpr ⟨b', h'.lookup⟩))
  obtain ⟨rfl, hrest⟩ := hcut
  obtain ⟨rfl, rfl⟩ := List.cons.inj hrest
  exact ⟨rfl, rfl, rfl, Option.some.inj (h.lookup.symm.trans h'.lookup)⟩

/-- **Every operation ends in one way.** -/
theorem Performs.unique {left left' : List Frame} (h : Performs stack op answer left)
    (h' : Performs stack op answer' left') : answer = answer' ∧ left = left' := by
  cases h with
  | push => cases h'; exact ⟨rfl, rfl⟩
  | pop =>
    cases h' with
    | pop => exact ⟨rfl, rfl⟩
    | popLast hlast => exact absurd hlast (by simp)
  | popLast hlast =>
    cases h' with
    | pop => exact absurd hlast (by simp)
    | popLast => exact ⟨rfl, rfl⟩
  | declare hnew =>
    cases h' with
    | declare => exact ⟨rfl, rfl⟩
    | redeclare hold => exact absurd hold hnew
  | redeclare hold =>
    cases h' with
    | declare hnew => exact absurd hold hnew
    | redeclare => exact ⟨rfl, rfl⟩
  | declareNowhere => cases h'; exact ⟨rfl, rfl⟩
  | assign hfinds hb =>
    cases h' with
    | assign hfinds' =>
      obtain ⟨rfl, rfl, rfl, rfl⟩ := hfinds.unique hfinds'
      exact ⟨rfl, rfl⟩
    | assignConstant hfinds' hb' =>
      obtain ⟨-, -, -, rfl⟩ := hfinds.unique hfinds'
      rw [hb] at hb'
      cases hb'
    | assignUndefined hnone => exact absurd hnone hfinds.not_undefined
  | assignConstant hfinds hb =>
    cases h' with
    | assign hfinds' hb' =>
      obtain ⟨-, -, -, rfl⟩ := hfinds.unique hfinds'
      rw [hb] at hb'
      cases hb'
    | assignConstant => exact ⟨rfl, rfl⟩
    | assignUndefined hnone => exact absurd hnone hfinds.not_undefined
  | assignUndefined hnone =>
    cases h' with
    | assign hfinds => exact absurd hnone hfinds.not_undefined
    | assignConstant hfinds => exact absurd hnone hfinds.not_undefined
    | assignUndefined => exact ⟨rfl, rfl⟩
  | get hfinds =>
    cases h' with
    | get hfinds' =>
      obtain ⟨-, -, -, rfl⟩ := hfinds.unique hfinds'
      exact ⟨rfl, rfl⟩
    | getUndefined hnone => exact absurd hnone hfinds.not_undefined
  | getUndefined hnone =>
    cases h' with
    | get hfinds => exact absurd hnone hfinds.not_undefined
    | getUndefined => exact ⟨rfl, rfl⟩

theorem Runs.unique {ops : List Operation} {answers answers' : List Answer}
    {left left' : List Frame} (h : Runs stack ops answers left) (h' : Runs stack ops answers' left') :
    answers = answers' ∧ left = left' := by
  induction h generalizing answers' with
  | nil => cases h'; exact ⟨rfl, rfl⟩
  | cons hstep _ ih =>
    cases h' with
    | cons hstep' hrest' =>
      obtain ⟨rfl, rfl⟩ := hstep.unique hstep'
      obtain ⟨rfl, rfl⟩ := ih hrest'
      exact ⟨rfl, rfl⟩

/-! ### There always is a map -/

theorem Performs.ne_nil {left : List Frame} (h : Performs stack op answer left)
    (hstack : stack ≠ []) : left ≠ [] := by
  cases h with
  | push => exact List.cons_ne_nil _ _
  | pop => exact List.cons_ne_nil _ _
  | declare => exact List.cons_ne_nil _ _
  | assign => exact List.append_ne_nil_of_right_ne_nil _ (List.cons_ne_nil _ _)
  | popLast => exact hstack
  | redeclare => exact hstack
  | declareNowhere => exact hstack
  | assignConstant => exact hstack
  | assignUndefined => exact hstack
  | get => exact hstack
  | getUndefined => exact hstack

theorem Runs.ne_nil {ops : List Operation} {answers : List Answer} {left : List Frame}
    (h : Runs stack ops answers left) (hstack : stack ≠ []) : left ≠ [] := by
  induction h with
  | nil => exact hstack
  | cons hstep _ ih => exact ih (hstep.ne_nil hstack)

end Lexical

/-! ## Environments as lexical scopes -/

open Lexical

namespace Scope

/-- Every constant is still there. -/
def KeepsConstants (scope scope' : Scope) : Prop :=
  ∀ name b, scope.get? name = some b → b.mutability = .constant → scope'.get? name = some b

theorem Kept.constants {targets : String → Prop} {scope scope' : Scope}
    (h : Scope.Kept targets scope scope') : scope.KeepsConstants scope' :=
  fun name _ hget hb => (h name).constant hget hb

/-- A scope as a finite map. -/
def toFrame (scope : Scope) : Frame :=
  scope.foldr (fun entry frame => frame.insert entry.1 entry.2) ∅

theorem lookup_toFrame (scope : Scope) (name : String) :
    scope.toFrame.lookup name = scope.get? name := by
  induction scope with
  | nil => rfl
  | cons entry scope ih =>
    obtain ⟨n, b⟩ := entry
    rw [get?_cons]
    by_cases h : name = n
    · subst h
      rw [if_pos rfl]
      exact Finmap.lookup_insert _
    · rw [if_neg h, ← ih]
      exact Finmap.lookup_insert_of_ne _ h

theorem mem_toFrame {scope : Scope} {name : String} {b : Binding}
    (h : scope.get? name = some b) : name ∈ scope.toFrame :=
  Finmap.mem_iff.mpr ⟨b, (lookup_toFrame scope name).trans h⟩

theorem not_mem_toFrame {scope : Scope} {name : String} (h : scope.get? name = none) :
    name ∉ scope.toFrame :=
  Finmap.lookup_eq_none.mp ((lookup_toFrame scope name).trans h)

/-- A name that has another value is a name that is entered again. -/
theorem toFrame_update {scope : Scope} {name : String} {b : Binding}
    (h : scope.get? name = some b) (value : Value) :
    (scope.update name value).toFrame = scope.toFrame.insert name (b.withValue value) := by
  refine Finmap.ext_lookup fun other => ?_
  rw [lookup_toFrame]
  by_cases hother : other = name
  · subst hother
    rw [get?_update_self, h, Finmap.lookup_insert]
    rfl
  · rw [get?_update_other hother, Finmap.lookup_insert_of_ne _ hother, lookup_toFrame]

/-- The binding that a name means, found among the maps, and what assigning makes of them. -/
theorem exists_finds {scopes : List Scope} {name : String} {b : Binding}
    (h : scopes.findSome? (·.get? name) = some b) :
    ∃ inner frame outer, Finds (scopes.map toFrame) name inner frame outer b
      ∧ ∀ value, (Environment.updateFirst name value scopes).map toFrame
        = inner ++ frame.insert name (b.withValue value) :: outer := by
  induction scopes with
  | nil => cases h
  | cons scope scopes ih =>
    rw [List.findSome?_cons] at h
    cases hget : scope.get? name with
    | some b' =>
      rw [hget] at h
      cases h
      refine ⟨[], scope.toFrame, scopes.map toFrame, ⟨rfl, nofun, ?_⟩, fun value => ?_⟩
      · rw [lookup_toFrame, hget]
      · rw [Environment.updateFirst, hget, List.map_cons, toFrame_update hget]
        rfl
    | none =>
      rw [hget] at h
      obtain ⟨inner, frame, outer, hfinds, hupdate⟩ := ih h
      refine ⟨scope.toFrame :: inner, frame, outer, ⟨?_, ?_, hfinds.lookup⟩, fun value => ?_⟩
      · rw [List.map_cons, hfinds.stack_eq]
        rfl
      · exact List.forall_mem_cons.mpr ⟨not_mem_toFrame hget, hfinds.not_mem⟩
      · rw [Environment.updateFirst, hget, List.map_cons, hupdate]
        rfl

end Scope

namespace Environment

/-- The scopes of an environment as finite maps, the innermost first. -/
def frames (env : Environment) : List Frame := env.scopes.map Scope.toFrame

theorem forall_not_mem_frames {env : Environment} {name : String}
    (h : env.binding? name = none) : ∀ f ∈ env.frames, name ∉ f := by
  intro f hf
  obtain ⟨scope, hscope, rfl⟩ := List.mem_map.mp hf
  exact Scope.not_mem_toFrame (List.findSome?_eq_none_iff.mp h scope hscope)

theorem frames_update {env : Environment} (name : String) (value : Value) :
    (env.update name value).frames = (updateFirst name value env.scopes).map Scope.toFrame := by
  rw [frames, scopes_update]

/-! ### One operation -/

/-- The sandbox with another environment, or with a fault the one there was. -/
def settle (s : Sandbox) : Except Fault Environment → Answer × Sandbox
  | .ok environment => (.ok none, { s with environment })
  | .error fault => (.error fault, s)

theorem settle_error {s : Sandbox} {x : Except Fault Environment} {fault : Fault}
    (h : (settle s x).1 = .error fault) : (settle s x).2 = s := by
  cases x with
  | ok _ => cases h
  | error _ => rfl

theorem perform_declare (name : String) (b : Binding) (s : Sandbox) :
    (Operation.declare name b).perform s = settle s (s.environment.declare name b) := by
  rw [Operation.perform, Procedure.bind_apply, Activity.declare]
  cases s.environment.declare name b <;> rfl

theorem perform_assign (name : String) (value : Value) (s : Sandbox) :
    (Operation.assign name value).perform s = settle s (s.environment.assign name value) := by
  rw [Operation.perform, Procedure.bind_apply, Activity.evaluation, Evaluation.store]
  cases s.environment.assign name value <;> rfl

theorem perform_get (name : String) (s : Sandbox) :
    (Operation.get name).perform s = ((s.environment.get name).map some, s) := by
  rw [Operation.perform, Procedure.bind_apply, Activity.evaluation, Evaluation.read]
  cases s.environment.get name <;> rfl

/-- **One operation does what the rules say.** -/
theorem performs_perform (op : Operation) (s : Sandbox) :
    Performs s.environment.frames op (op.perform s).1 (op.perform s).2.environment.frames := by
  cases op with
  | push => exact .push _
  | pop =>
    obtain ⟨⟨innermost, _ | ⟨scope, outer⟩⟩, log, place, journal⟩ := s
    · exact .popLast (Nat.le_refl 1)
    · exact .pop _ _ _
  | declare name b =>
    rw [perform_declare, Environment.declare]
    cases hget : s.environment.innermost.get? name with
    | some _ => exact .redeclare (Scope.mem_toFrame hget) _ b
    | none => exact .declare (Scope.not_mem_toFrame hget) _ b
  | assign name value =>
    rw [perform_assign, Environment.assign]
    cases hbinding : s.environment.binding? name with
    | none => exact .assignUndefined (forall_not_mem_frames hbinding) value
    | some b =>
      obtain ⟨inner, frame, outer, hfinds, hupdate⟩ := Scope.exists_finds hbinding
      cases hb : b.mutability with
      | constant =>
        simp only [hb]
        exact .assignConstant hfinds hb value
      | mutable =>
        simp only [hb]
        have hassign := Performs.assign hfinds hb value
        rw [← hupdate, ← frames_update] at hassign
        exact hassign
  | get name =>
    rw [perform_get, Environment.get]
    cases hbinding : s.environment.binding? name with
    | none => exact .getUndefined (forall_not_mem_frames hbinding)
    | some b =>
      obtain ⟨inner, frame, outer, hfinds, -⟩ := Scope.exists_finds hbinding
      exact .get hfinds

/-- What a failed operation leaves is what was there. -/
theorem perform_error {op : Operation} {s : Sandbox} {fault : Fault}
    (h : (op.perform s).1 = .error fault) : (op.perform s).2 = s := by
  cases op with
  | push => cases h
  | pop => cases h
  | declare name b =>
    rw [perform_declare] at h ⊢
    exact settle_error h
  | assign name value =>
    rw [perform_assign] at h ⊢
    exact settle_error h
  | get name => rw [perform_get]

/-- Declaring fails in one way only. -/
theorem perform_declare_error {name : String} {b : Binding} {s : Sandbox} {fault : Fault}
    (h : ((Operation.declare name b).perform s).1 = .error fault) : fault = .redeclared name := by
  rw [perform_declare, Environment.declare] at h
  cases hget : s.environment.innermost.get? name with
  | some _ =>
    rw [hget] at h
    cases h
    rfl
  | none =>
    rw [hget] at h
    cases h

/-! ### Sequences of operations -/

/-- **A sequence of operations does what the rules say.** -/
theorem runs_performAll (ops : List Operation) (s : Sandbox) :
    Runs s.environment.frames ops (performAll ops s).1 (performAll ops s).2.environment.frames := by
  induction ops generalizing s with
  | nil => exact .nil _
  | cons op ops ih => exact .cons (performs_perform op s) (ih (op.perform s).2)

theorem performAll_append (ops more : List Operation) (s : Sandbox) :
    (performAll (ops ++ more) s).2 = (performAll more (performAll ops s).2).2 := by
  induction ops generalizing s with
  | nil => rfl
  | cons op ops ih => exact ih (op.perform s).2

theorem reached_append (ops more : List Operation) :
    reached (ops ++ more) = (performAll more (reached ops)).2 :=
  performAll_append ops more .fresh

/-! ### Scopes changed in place -/

/-- What goes in place as it goes in an environment answers as it does in a sandbox. -/
theorem answer_inPlace {x : InPlace Unit} {s : Sandbox} {y : Except Fault Environment}
    (h : x s.environment.scopes = InPlace.outcome s.environment y) :
    (do x; return none : InPlace (Option Value)) s.environment.scopes
      = ((settle s y).1, (settle s y).2.environment.scopes) := by
  rw [Procedure.bind_apply, h]
  cases y <;> rfl

/-- **On the scopes of an environment each operation does the same.** -/
theorem performInPlace_eq (op : Operation) (s : Sandbox) :
    op.performInPlace s.environment.scopes
      = ((op.perform s).1, (op.perform s).2.environment.scopes) := by
  cases op with
  | push => rfl
  | pop =>
    rw [Operation.performInPlace, Procedure.bind_apply, InPlace.pop_scopes]
    rfl
  | declare name b =>
    rw [perform_declare]
    exact answer_inPlace (InPlace.declare_scopes _ name b)
  | assign name value =>
    rw [perform_assign]
    exact answer_inPlace (InPlace.assign_scopes _ name value)
  | get name =>
    rw [Operation.performInPlace, Procedure.bind_apply, InPlace.get_scopes, perform_get]
    cases s.environment.get name <;> rfl

/-- So does every sequence of them. -/
theorem performAllInPlace_eq (ops : List Operation) (s : Sandbox) :
    performAllInPlace ops s.environment.scopes
      = ((performAll ops s).1, (performAll ops s).2.environment.scopes) := by
  induction ops generalizing s with
  | nil => rfl
  | cons op ops ih =>
    rw [performAllInPlace, performInPlace_eq]
    dsimp only
    rw [ih]
    rfl

/-! ### Scopes counted from the outermost -/

/-- How many scopes there are around the innermost. -/
def depth (env : Environment) : Nat := env.outer.length

/-- What a name stands for in a scope that has so many around it. -/
def bindingAt (env : Environment) (depth : Nat) (name : String) : Option Binding :=
  env.scopes.reverse[depth]?.bind (·.get? name)

variable {e f : Environment} {d : Nat} {name : String} {b : Binding}

theorem length_scopes (env : Environment) : env.scopes.length = env.depth + 1 := rfl

theorem bindingAt_depth (env : Environment) (name : String) :
    env.bindingAt env.depth name = env.innermost.get? name := by
  have hlength : env.outer.reverse.length = env.depth := List.length_reverse
  rw [bindingAt, scopes, List.reverse_cons, ← hlength, List.getElem?_concat_length]
  rfl

/-- A scope put on top of others leaves them where they are. -/
theorem bindingAt_cons {scope : Scope} (h : f.scopes = scope :: e.scopes) (hd : d ≤ e.depth) :
    f.bindingAt d name = e.bindingAt d name := by
  have hlength : d < e.scopes.reverse.length := by
    rw [List.length_reverse, length_scopes]
    exact Nat.lt_succ_of_le hd
  rw [bindingAt, bindingAt, h, List.reverse_cons, List.getElem?_append_left hlength]

theorem bindingAt_push (hd : d ≤ e.depth) : e.push.bindingAt d name = e.bindingAt d name :=
  bindingAt_cons (scopes_push e) hd

theorem bindingAt_pop (hd : d ≤ e.pop.depth) : e.pop.bindingAt d name = e.bindingAt d name := by
  obtain ⟨innermost, _ | ⟨scope, outer⟩⟩ := e
  · rfl
  · exact (bindingAt_cons rfl hd).symm

/-! ### Constants -/

/-- What stays of scopes that are framed: their constants. -/
theorem Framed.constants {gained targets : String → Prop} (h : Framed gained targets e f) :
    List.Forall₂ Scope.KeepsConstants e.scopes f.scopes := by
  refine .cons ?_ (h.outer.imp fun _ _ hkept => hkept.constants)
  intro name b hget hb
  rcases h.innermost name with hkept | ⟨-, hnone⟩
  · exact hkept.constant hget hb
  · rw [hget] at hnone
    cases hnone

theorem bindingAt_constant (h : List.Forall₂ Scope.KeepsConstants e.scopes f.scopes)
    (hat : e.bindingAt d name = some b) (hb : b.mutability = .constant) :
    f.bindingAt d name = some b := by
  obtain ⟨scope, hscope, hget⟩ := Option.bind_eq_some_iff.mp hat
  obtain ⟨hd, rfl⟩ := List.getElem?_eq_some_iff.mp hscope
  have hreverse := List.rel_reverse h
  have hd' : d < f.scopes.reverse.length := hreverse.length_eq ▸ hd
  refine Option.bind_eq_some_iff.mpr ⟨_, List.getElem?_eq_getElem hd', ?_⟩
  exact hreverse.get hd hd' name b hget hb

theorem bindingAt_settle {s : Sandbox} {x : Except Fault Environment}
    (h : ∀ f, x = .ok f → Framed (fun _ => True) (fun _ => True) s.environment f)
    (hat : s.environment.bindingAt d name = some b) (hb : b.mutability = .constant) :
    (settle s x).2.environment.bindingAt d name = some b := by
  cases x with
  | ok f => exact bindingAt_constant (h f rfl).constants hat hb
  | error _ => exact hat

/-- **An operation keeps the constants of the scopes that stay.** -/
theorem bindingAt_perform {s : Sandbox} {op : Operation}
    (hat : s.environment.bindingAt d name = some b) (hb : b.mutability = .constant)
    (hd : d ≤ (op.perform s).2.environment.depth) :
    (op.perform s).2.environment.bindingAt d name = some b := by
  cases op with
  | push =>
    have hlength : d < s.environment.scopes.reverse.length := by
      obtain ⟨scope, hscope, -⟩ := Option.bind_eq_some_iff.mp hat
      exact (List.getElem?_eq_some_iff.mp hscope).1
    rw [List.length_reverse] at hlength
    exact (bindingAt_push (Nat.le_of_lt_succ hlength)).trans hat
  | pop => exact (bindingAt_pop hd).trans hat
  | declare other b' =>
    rw [perform_declare]
    exact bindingAt_settle (fun _ hdeclare => .declare trivial hdeclare) hat hb
  | assign other value =>
    rw [perform_assign]
    exact bindingAt_settle (fun _ hassign => .assign trivial hassign) hat hb
  | get other =>
    rw [perform_get]
    exact hat

/-- **A constant keeps its value for as long as its scope is there.** -/
theorem bindingAt_performAll (ops : List Operation) {s : Sandbox}
    (hat : s.environment.bindingAt d name = some b) (hb : b.mutability = .constant)
    (hd : ∀ before, before <+: ops → d ≤ (performAll before s).2.environment.depth) :
    (performAll ops s).2.environment.bindingAt d name = some b := by
  induction ops generalizing s with
  | nil => exact hat
  | cons op ops ih =>
    have hone : d ≤ (op.perform s).2.environment.depth :=
      hd [op] (List.cons_prefix_cons.mpr ⟨rfl, List.nil_prefix⟩)
    refine ih (bindingAt_perform hat hb hone) fun before hbefore => ?_
    exact hd (op :: before) (List.cons_prefix_cons.mpr ⟨rfl, hbefore⟩)

/-! ### Beginning with nothing declared -/

/-- The scope that is the innermost after some operations is not left while others go on. -/
def Stays (ops more : List Operation) : Prop :=
  ∀ before, before <+: more →
    (reached ops).environment.depth ≤ (reached (ops ++ before)).environment.depth

/-- What was declared stands in the innermost scope. -/
theorem bindingAt_declared {s : Sandbox} {name : String} {b : Binding}
    (h : ((Operation.declare name b).perform s).1 = .ok none) :
    ((Operation.declare name b).perform s).2.environment.bindingAt
      ((Operation.declare name b).perform s).2.environment.depth name = some b := by
  rw [bindingAt_depth]
  rw [perform_declare, Environment.declare] at h ⊢
  cases hget : s.environment.innermost.get? name with
  | some _ =>
    rw [hget] at h
    cases h
  | none =>
    show Scope.get? ((name, b) :: s.environment.innermost) name = some b
    rw [Scope.get?_cons, if_pos rfl]

/-- **Environments are lexical scopes.** What a sequence of operations answers and leaves, when
nothing was declared before, is what the rules for a stack of finite maps say, and the stack has
a map at all times: declaring fails for a name that the innermost one has, and for no other
reason. A failed operation leaves everything as it was, and a constant is what it was declared
to be until its scope is left. And a bare list of scopes that the operations change in place
answers the same, comes to the same scopes and is never empty. -/
theorem lexical_scoping (ops : List Operation) :
    (∀ outcomes stack, Lexical.Runs [∅] ops outcomes stack ↔
        outcomes = answers ops ∧ stack = (reached ops).environment.frames)
      ∧ (∀ outcomes stack, Lexical.Runs [∅] ops outcomes stack → stack ≠ [])
      ∧ (∀ name b fault, ((Operation.declare name b).perform (reached ops)).1 = .error fault →
        fault = .redeclared name)
      ∧ (∀ (op : Operation) fault, (op.perform (reached ops)).1 = .error fault →
        (op.perform (reached ops)).2 = reached ops)
      ∧ (∀ name value more,
        ((Operation.declare name ⟨value, .constant⟩).perform (reached ops)).1 = .ok none →
        Stays (ops ++ [.declare name ⟨value, .constant⟩]) more →
        (reached (ops ++ [.declare name ⟨value, .constant⟩] ++ more)).environment.bindingAt
            (reached (ops ++ [.declare name ⟨value, .constant⟩])).environment.depth name
          = some ⟨value, .constant⟩)
      ∧ performAllInPlace ops InPlace.fresh = (answers ops, (reached ops).environment.scopes)
      ∧ (performAllInPlace ops InPlace.fresh).2 ≠ [] := by
  have hruns : Lexical.Runs [∅] ops (answers ops) (reached ops).environment.frames :=
    runs_performAll ops .fresh
  have hinPlace : performAllInPlace ops InPlace.fresh
      = (answers ops, (reached ops).environment.scopes) := performAllInPlace_eq ops .fresh
  refine ⟨fun outcomes stack => ⟨fun h => h.unique hruns, ?_⟩, ?_, ?_, ?_, ?_, hinPlace, ?_⟩
  · rintro ⟨rfl, rfl⟩
    exact hruns
  · exact fun outcomes stack h => h.ne_nil (List.cons_ne_nil _ _)
  · exact fun name b fault => perform_declare_error
  · exact fun op fault => perform_error
  · intro name value more hok hstays
    have hreached : reached (ops ++ [.declare name ⟨value, .constant⟩])
        = ((Operation.declare name ⟨value, .constant⟩).perform (reached ops)).2 :=
      reached_append ops _
    rw [reached_append _ more]
    refine bindingAt_performAll more ?_ rfl fun before hbefore => ?_
    · rw [hreached]
      exact bindingAt_declared hok
    · rw [← reached_append]
      exact hstays before hbefore
  · rw [hinPlace]
    exact List.cons_ne_nil _ _

/-- A constant in a block, hidden for a while by a name that may change. -/
theorem lexical_scoping_hidden :
    let opened : List Operation := [.declare "n" ⟨.null, .mutable⟩, .push]
    let declared := opened ++ [.declare "n" ⟨.bool true, .constant⟩]
    let more : List Operation :=
      [.assign "n" .null, .push, .declare "n" ⟨.null, .mutable⟩, .assign "n" (.bool false), .pop]
    ((Operation.declare "n" ⟨.bool true, .constant⟩).perform (reached opened)).1 = .ok none
      ∧ Stays declared more
      ∧ (reached (declared ++ more)).environment.bindingAt 1 "n"
        = some ⟨.bool true, .constant⟩ := by
  intro opened declared more
  have hok : ((Operation.declare "n" ⟨.bool true, .constant⟩).perform (reached opened)).1
      = .ok none := rfl
  have hstays : Stays declared more := by
    have hall : ∀ before ∈ more.inits, (reached declared).environment.depth
        ≤ (reached (declared ++ before)).environment.depth := by decide
    exact fun before hbefore => hall before ((List.mem_inits before more).mpr hbefore)
  obtain ⟨-, -, -, -, hconstant, -⟩ := lexical_scoping opened
  exact ⟨hok, hstays, hconstant "n" (.bool true) more hok hstays⟩

end Environment

end Lipi
