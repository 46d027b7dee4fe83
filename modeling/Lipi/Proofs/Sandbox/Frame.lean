/-
What a script leaves as it was.

However a command ends, in a fault or in any of its three ways, it closes every scope that
it opened and nothing else. The scopes below the innermost keep their names, and so does
the innermost, which gains one name at most and only if the command is a declaration.
Constants keep their values, and so does every binding whose name the command nowhere
assigns to (`Command.framed_run`).

All of this is one relation between the environment before and the one after, which is
transitive and leaves open what is gained (`Environment.Framed`). A row of commands may
gain any name; it is run in a scope of its own, and leaving the scope leaves nothing of
that. So the relation goes through blocks, through the passes of a loop, by induction on
how many may still begin, and through the scope around the whole loop, for each way of
ending at once.
-/
import Lipi.Proofs.Environment.Frame
import Lipi.Proofs.Expr.Evaluation
import Lipi.Sandbox.Execution

set_option autoImplicit false

namespace Lipi

open Procedure

/-! ## Targets -/

/-- The names that a loop's own expressions assign to. -/
def LoopControl.targets (control : LoopControl) : List String :=
  control.condition.toList.flatMap Expr.targets ++ control.increment.toList.flatMap Expr.targets

mutual

/-- The names that a command assigns to. -/
def Command.targets : Command → List String
  | .declare _ _ _ value => value.targets
  | .assign _ name value => name :: value.targets
  | .capture _ arguments => arguments.flatMap Expr.targets
  | .choice _ chain => chain.targets
  | .loop control none body => control.targets ++ Command.targetsOfAll body
  | .loop control (some initial) body =>
    control.targets ++ (initial.targets ++ Command.targetsOfAll body)
  | .breakLoop => []
  | .continueLoop => []
  | .eval _ value => value.targets
termination_by structural c => c

/-- The names that a chain assigns to. -/
def CommandChain.targets : CommandChain → List String
  | .test condition body rest => condition.targets ++ (Command.targetsOfAll body ++ rest.targets)
  | .otherwise body => Command.targetsOfAll body
  | .done => []
termination_by structural c => c

/-- The names that a row of commands assigns to. -/
def Command.targetsOfAll : List Command → List String
  | [] => []
  | c :: rest => c.targets ++ Command.targetsOfAll rest
termination_by structural cs => cs

end

/-- The name that a command declares where it stands. -/
def Command.declared? : Command → Option String
  | .declare _ _ name _ => some name
  | _ => none

/-! ## Evaluation -/

namespace Evaluation

/-- An evaluation that keeps everything but what some names stand for. -/
abbrev Frames {α : Type} (gained targets : String → Prop) (x : Evaluation α) : Prop :=
  Keeps (Environment.Framed gained targets) x

variable {α β : Type} {gained targets : String → Prop}

theorem frames_pure (a : α) : Frames gained targets (pure a) := keeps_pure (.refl _ _) a

theorem Frames.bind {x : Evaluation α} {f : α → Evaluation β} (hx : Frames gained targets x)
    (hf : ∀ a, Frames gained targets (f a)) : Frames gained targets (x >>= f) :=
  Keeps.bind .trans hx hf

theorem frames_read (name : String) : Frames gained targets (read name) := fun e => .refl _ _ e

theorem frames_store {name : String} (hname : targets name) (value : Value) :
    Frames gained targets (store name value) := by
  intro e
  unfold store
  cases h : e.assign name value with
  | ok f => exact .assign hname h
  | error fault => exact .refl _ _ e

end Evaluation

open Evaluation

theorem Evaluation.law_frames (gained targets : String → Prop) :
    Law (fun _ => True) targets fun _ x => Frames gained targets x where
  pure a := frames_pure a
  bind hx hf := hx.bind hf
  read _ := frames_read _
  store _ htarget value := frames_store htarget value

/-- An expression assigns to its targets and does nothing else. -/
theorem Expr.frames_eval {gained targets : String → Prop} (e : Expr)
    (h : ∀ name ∈ e.targets, targets name) : Frames gained targets e.eval :=
  eval_of_law (law_frames gained targets) e (fun _ _ => trivial) h

/-- The same for a row of expressions. -/
theorem Expr.frames_evalAll {gained targets : String → Prop} (es : List Expr)
    (h : ∀ name ∈ es.flatMap Expr.targets, targets name) :
    Frames gained targets (Expr.evalAll es) :=
  evalAll_of_law (law_frames gained targets) es (fun _ _ => trivial) h

/-! ## Activities -/

namespace Activity

/-- An activity that keeps everything but what some names stand for. -/
abbrev Frames {α : Type} (gained targets : String → Prop) (x : Activity α) : Prop :=
  Keeps (fun s t => Environment.Framed gained targets s.environment t.environment) x

variable {α β : Type} {gained targets : String → Prop}

theorem frames_pure (a : α) : Frames gained targets (pure a) :=
  keeps_pure (fun _ => .refl _ _ _) a

theorem frames_throw (fault : Fault) : Frames gained targets (throw fault : Activity α) :=
  keeps_throw (fun _ => .refl _ _ _) fault

theorem Frames.bind {x : Activity α} {f : α → Activity β} (hx : Frames gained targets x)
    (hf : ∀ a, Frames gained targets (f a)) : Frames gained targets (x >>= f) :=
  Keeps.bind .trans hx hf

/-- Changing something else about the sandbox. -/
theorem frames_change {f : Sandbox → Sandbox} (h : ∀ s, (f s).environment = s.environment) :
    Frames gained targets (change f) := by
  intro s
  show Environment.Framed gained targets s.environment (f s).environment
  rw [h]
  exact .refl _ _ _

theorem frames_moveTo (place : Location) : Frames gained targets (change (·.moveTo place)) :=
  frames_change fun _ => rfl

theorem frames_print (line : String) : Frames gained targets (change (·.print line)) :=
  frames_change fun _ => rfl

theorem frames_note (entry : Journal.Entry) : Frames gained targets (change (·.note entry)) :=
  frames_change fun _ => rfl

theorem frames_evaluation {x : Evaluation α} (h : Evaluation.Frames gained targets x) :
    Frames gained targets (evaluation x) :=
  fun s => h s.environment

theorem frames_outcome {x : Activity α} (h : Frames gained targets x) :
    Frames gained targets (outcome x) :=
  fun s => h s

theorem frames_declare {name : String} (hname : gained name) (b : Binding) :
    Frames gained targets (declare name b) := by
  intro s
  unfold declare
  cases h : s.environment.declare name b with
  | ok environment => exact .declare hname h
  | error fault => exact .refl _ _ _

/-- Whatever names are gained within a scope, none is gained around it. -/
theorem frames_inScope {within : String → Prop} {x : Activity α}
    (h : Frames within targets x) : Frames gained targets (inScope x) :=
  fun s => (h s.enter).pop

end Activity

open Activity

/-! ## Loops -/

namespace LoopControl

variable {gained targets : String → Prop} {control : LoopControl}

theorem frames_evalOwn {e : Expr} (h : ∀ name ∈ e.targets, targets name) :
    Activity.Frames gained targets (control.evalOwn e) :=
  (frames_moveTo _).bind fun _ => frames_evaluation (e.frames_eval h)

theorem frames_holds (h : ∀ name ∈ control.targets, targets name) :
    Activity.Frames gained targets control.holds := by
  have hcondition := (List.forall_mem_append.mp h).1
  unfold holds
  cases hc : control.condition with
  | none => exact frames_pure true
  | some condition =>
    rw [hc, Option.toList_some, List.flatMap_singleton] at hcondition
    exact (frames_evalOwn hcondition).bind fun v => frames_pure _

theorem frames_advance (h : ∀ name ∈ control.targets, targets name) :
    Activity.Frames gained targets control.advance := by
  have hincrement := (List.forall_mem_append.mp h).2
  unfold advance
  cases hi : control.increment with
  | none => exact frames_pure ()
  | some increment =>
    rw [hi, Option.toList_some, List.flatMap_singleton] at hincrement
    exact (frames_evalOwn hincrement).bind fun _ => frames_pure ()

/-- The passes of a loop, by induction on how many may still begin. -/
theorem frames_passes (h : ∀ name ∈ control.targets, targets name) {within : String → Prop}
    {body : Activity Flow} (hbody : Activity.Frames within targets body) (left made : Nat) :
    Activity.Frames gained targets (control.passes body left made) := by
  induction left generalizing made with
  | zero =>
    rw [passes]
    refine (frames_holds h).bind fun goesOn => ?_
    cases goesOn with
    | false => exact frames_pure made
    | true => exact frames_throw _
  | succ left ih =>
    rw [passes]
    refine (frames_holds h).bind fun goesOn => ?_
    cases goesOn with
    | false => exact frames_pure made
    | true =>
      refine (frames_inScope hbody).bind fun flow => ?_
      have hnext := (frames_advance h).bind fun _ => ih (made + 1)
      cases flow with
      | leaveLoop => exact frames_pure _
      | done => exact hnext
      | nextPass => exact hnext

/-- What a loop opens with may gain a name, and so may each pass; the loop gains none. -/
theorem frames_run (h : ∀ name ∈ control.targets, targets name) {within : String → Prop}
    {initial : Activity Unit} {body : Activity Flow}
    (hinitial : Activity.Frames within targets initial)
    (hbody : Activity.Frames within targets body) :
    Activity.Frames gained targets (control.run initial body) := by
  refine frames_inScope (hinitial.bind fun _ => ?_)
  refine (frames_note _).bind fun _ => ?_
  refine (frames_passes h hbody _ _).bind fun _ => ?_
  exact frames_note _

end LoopControl

/-! ## Commands -/

section Commands

variable {targets : String → Prop}

mutual

/-- A command keeps everything but what its targets stand for, and gains the name that it
declares. -/
theorem Command.frames_run {gained : String → Prop} (c : Command)
    (h : ∀ name ∈ c.targets, targets name) (hgained : ∀ name, c.declared? = some name → gained name) :
    Activity.Frames gained targets c.run := by
  match c with
  | .declare place mutability name value =>
    refine (frames_moveTo _).bind fun _ => ?_
    refine (frames_evaluation (value.frames_eval h)).bind fun v => ?_
    exact (frames_declare (hgained name rfl) _).bind fun _ => frames_pure _
  | .assign place name value =>
    obtain ⟨hname, hvalue⟩ := List.forall_mem_cons.mp h
    refine (frames_moveTo _).bind fun _ => ?_
    refine (frames_evaluation (value.frames_eval hvalue)).bind fun v => ?_
    exact (frames_evaluation (Evaluation.frames_store hname v)).bind fun _ => frames_pure _
  | .capture place arguments =>
    have harguments : Activity.Frames gained targets (evaluation (Expr.evalAll arguments)) :=
      frames_evaluation (Expr.frames_evalAll arguments h)
    refine (frames_moveTo _).bind fun _ => ?_
    refine (frames_outcome harguments).bind fun _ => ?_
    exact (frames_print _).bind fun _ => frames_pure _
  | .choice place chain => exact (frames_moveTo _).bind fun _ => chain.frames_run h
  | .loop control none body =>
    obtain ⟨hcontrol, hbody⟩ := List.forall_mem_append.mp h
    have hpass := Command.frames_runAll body hbody
    refine (frames_moveTo _).bind fun _ => ?_
    exact (LoopControl.frames_run hcontrol (frames_pure ()) hpass).bind fun _ => frames_pure _
  | .loop control (some initial) body =>
    obtain ⟨hcontrol, hrest⟩ := List.forall_mem_append.mp h
    obtain ⟨hinitial, hbody⟩ := List.forall_mem_append.mp hrest
    -- What the loop opens with may declare a name, but in the scope of the loop.
    have hopening : Activity.Frames (fun _ => True) targets initial.run :=
      initial.frames_run hinitial fun _ _ => trivial
    have hpass := Command.frames_runAll body hbody
    refine (frames_moveTo _).bind fun _ => ?_
    refine (LoopControl.frames_run hcontrol ?_ hpass).bind fun _ => frames_pure _
    exact hopening.bind fun _ => frames_pure ()
  | .breakLoop => exact frames_pure _
  | .continueLoop => exact frames_pure _
  | .eval place value =>
    refine (frames_moveTo _).bind fun _ => ?_
    exact (frames_evaluation (value.frames_eval h)).bind fun _ => frames_pure _
termination_by structural c

/-- A chain gains no name: its blocks have scopes of their own. -/
theorem CommandChain.frames_run {gained : String → Prop} (c : CommandChain)
    (h : ∀ name ∈ c.targets, targets name) : Activity.Frames gained targets c.run := by
  match c with
  | .test condition body rest =>
    obtain ⟨hcondition, hblocks⟩ := List.forall_mem_append.mp h
    obtain ⟨hbody, hrest⟩ := List.forall_mem_append.mp hblocks
    refine (frames_evaluation (condition.frames_eval hcondition)).bind fun v => ?_
    by_cases hholds : v.isTruthy = true
    · rw [if_pos hholds]
      exact frames_inScope (Command.frames_runAll body hbody)
    · rw [if_neg hholds]
      exact rest.frames_run hrest
  | .otherwise body => exact frames_inScope (Command.frames_runAll body h)
  | .done => exact frames_pure _
termination_by structural c

/-- A row of commands may gain any name. -/
theorem Command.frames_runAll (cs : List Command)
    (h : ∀ name ∈ Command.targetsOfAll cs, targets name) :
    Activity.Frames (fun _ => True) targets (Command.runAll cs) := by
  match cs with
  | [] => exact frames_pure _
  | c :: cs =>
    obtain ⟨hfirst, hrest⟩ := List.forall_mem_append.mp h
    refine (c.frames_run hfirst fun _ _ => trivial).bind fun flow => ?_
    -- The others run in the same scope, and only if the first is simply done.
    cases flow with
    | done => exact Command.frames_runAll cs hrest
    | leaveLoop => exact frames_pure _
    | nextPass => exact frames_pure _
termination_by structural cs

end

end Commands

/-- **What a command leaves as it was**, however it ends. There are as many scopes as
before. Those below the innermost have the names that they had, with the same mutability,
and so has the innermost, but for the name that a declaration adds. No constant has another
value, and neither has a binding whose name the command nowhere assigns to. -/
theorem Command.framed_run (c : Command) (s : Sandbox) :
    (c.run s).2.environment.height = s.environment.height
      ∧ Environment.Framed (fun name => c.declared? = some name) (fun name => name ∈ c.targets)
          s.environment (c.run s).2.environment := by
  have hframed := c.frames_run (fun _ hname => hname) (fun _ hname => hname) s
  exact ⟨hframed.height, hframed⟩

/-- The same for a script, which may gain any names in the innermost scope. A sandbox is as
deep after a run as before, whether or not a fault has ended it. -/
theorem Sandbox.framed_script (script : Script) (s : Sandbox) :
    Environment.Framed (fun _ => True) (fun name => name ∈ Command.targetsOfAll script.body)
      s.environment (s.run script).environment := by
  have hframed := Command.frames_runAll script.body (fun _ hname => hname)
    (s.note (.executing script.body.length))
  unfold Sandbox.run
  generalize Command.runAll script.body (s.note (.executing script.body.length)) = x at hframed ⊢
  obtain ⟨outcome, t⟩ := x
  cases outcome with
  | ok flow => exact hframed
  | error fault => exact hframed

end Lipi
