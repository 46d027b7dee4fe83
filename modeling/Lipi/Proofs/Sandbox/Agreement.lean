/-
What a script sees of a sandbox.

A command reads, assigns and declares only the names that occur in it, and it never looks
at the log, the journal or the place, though it writes to all of them. Nor does it look at
the places, the names of guards and the forms of loops that it carries: these only reach
the journal and the text of a fault that is never shown. So a command and its bare form,
in sandboxes whose environments agree on the names of the command, add the same lines to
their logs, end in the same way and leave environments that agree (`Command.same_run`).
Two commands with one bare form are then alike as well (`Command.same_runAll_of_bare`).

The two logs need not begin alike. What they were before is part of the relation, and so
it says of each moment of the two runs that the same lines have been added since.
-/
import Lipi.Proofs.Expr.Agreement
import Lipi.Proofs.Script.Bare
import Lipi.Sandbox.Execution

set_option autoImplicit false

namespace Lipi

open Procedure

/-! ## Names -/

/-- The names that a loop's own expressions contain. -/
def LoopControl.names (control : LoopControl) : List String :=
  control.condition.toList.flatMap Expr.names ++ control.increment.toList.flatMap Expr.names

mutual

/-- The names that occur in a command. -/
def Command.names : Command → List String
  | .declare _ _ name value => name :: value.names
  | .assign _ name value => name :: value.names
  | .capture _ arguments => arguments.flatMap Expr.names
  | .choice _ chain => chain.names
  | .loop control none body => control.names ++ Command.namesOfAll body
  | .loop control (some initial) body => control.names ++ (initial.names ++ Command.namesOfAll body)
  | .breakLoop => []
  | .continueLoop => []
  | .eval _ value => value.names
termination_by structural c => c

/-- The names that occur in a chain. -/
def CommandChain.names : CommandChain → List String
  | .test condition body rest => condition.names ++ (Command.namesOfAll body ++ rest.names)
  | .otherwise body => Command.namesOfAll body
  | .done => []
termination_by structural c => c

/-- The names that occur in a row of commands. -/
def Command.namesOfAll : List Command → List String
  | [] => []
  | c :: rest => c.names ++ Command.namesOfAll rest
termination_by structural cs => cs

end

/-! ## Sandboxes -/

/-- A fault without the name of a guard. -/
def Fault.unnamed : Fault → Fault
  | .iterationLimit _ limit => .iterationLimit "" limit
  | fault => fault

/-- The name of a guard is not part of any text. -/
theorem Fault.fatalLine_unnamed (f : Fault) : f.unnamed.fatalLine = f.fatalLine := by
  cases f <;> rfl

/-- Sandboxes whose environments agree on some names and whose logs have the same lines
after what they began with. -/
structure Sandbox.Agrees (names : String → Prop) (before before' : Array String)
    (s t : Sandbox) : Prop where
  environment : s.environment.Agrees names t.environment
  log : ∃ lines, s.log.lines = before ++ lines ∧ t.log.lines = before' ++ lines

namespace Sandbox.Agrees

variable {names : String → Prop} {before before' : Array String} {s t u : Sandbox}

theorem refl (names : String → Prop) (s : Sandbox) : Agrees names #[] #[] s s :=
  ⟨.refl names _, s.log.lines, by rw [Array.empty_append], by rw [Array.empty_append]⟩

/-- Sandboxes that agree with the same one agree. -/
theorem through {before'' : Array String} (h : Agrees names before before'' s u)
    (h' : Agrees names before' before'' t u) : Agrees names before before' s t := by
  obtain ⟨lines, hs, hu⟩ := h.log
  obtain ⟨lines', ht, hu'⟩ := h'.log
  have hlines : lines = lines' := Array.append_right_inj _ |>.mp (hu.symm.trans hu')
  refine ⟨h.environment.trans h'.environment.symm, lines, hs, ?_⟩
  rw [ht, hlines]

theorem symm (h : Agrees names before before' s t) : Agrees names before' before t s := by
  obtain ⟨lines, hs, ht⟩ := h.log
  exact ⟨h.environment.symm, lines, ht, hs⟩

/-- Sandboxes that agree on all names, with all their lines, look the same. -/
theorem log_eq (h : Agrees names before before s t) : s.log = t.log := by
  obtain ⟨lines, hs, ht⟩ := h.log
  exact congrArg OutputLog.mk (hs.trans ht.symm)

theorem print (h : Agrees names before before' s t) (line : String) :
    Agrees names before before' (s.print line) (t.print line) := by
  obtain ⟨lines, hs, ht⟩ := h.log
  refine ⟨h.environment, lines.push line, ?_, ?_⟩
  · show s.log.lines.push line = _
    rw [hs, Array.append_push]
  · show t.log.lines.push line = _
    rw [ht, Array.append_push]

theorem note (h : Agrees names before before' s t) (entry entry' : Journal.Entry) :
    Agrees names before before' (s.note entry) (t.note entry') :=
  ⟨h.environment, h.log⟩

theorem moveTo (h : Agrees names before before' s t) (place place' : Location) :
    Agrees names before before' (s.moveTo place) (t.moveTo place') :=
  ⟨h.environment, h.log⟩

theorem enter (h : Agrees names before before' s t) :
    Agrees names before before' s.enter t.enter :=
  ⟨h.environment.push, h.log⟩

theorem leave (h : Agrees names before before' s t) :
    Agrees names before before' s.leave t.leave :=
  ⟨h.environment.pop, h.log⟩

end Sandbox.Agrees

/-! ## Activities -/

namespace Activity

/-- Two activities that end in the same way in sandboxes that agree. -/
abbrev Same {α β : Type} (names : String → Prop) (before before' : Array String)
    (r : α → β → Prop) (x : Activity α) (y : Activity β) : Prop :=
  Alike (Sandbox.Agrees names before before') (fun a b => a.unnamed = b.unnamed) r x y

variable {α β : Type} {names : String → Prop} {before before' : Array String}
  {r : α → β → Prop}

theorem same_change {f g : Sandbox → Sandbox}
    (h : ∀ {s t}, Sandbox.Agrees names before before' s t →
      Sandbox.Agrees names before before' (f s) (g t)) :
    Same names before before' (fun a b => a = b) (change f) (change g) :=
  fun _ _ hst => ⟨.ok rfl, h hst⟩

/-- Going to a place is not seen. -/
theorem same_moveTo (place place' : Location) :
    Same names before before' (fun a b => a = b) (change (·.moveTo place))
      (change (·.moveTo place')) :=
  same_change fun hst => hst.moveTo place place'

theorem same_evaluation {x y : Evaluation α} (h : Evaluation.Same names x y) :
    Same names before before' (fun a b => a = b) (evaluation x) (evaluation y) := by
  intro s t hst
  obtain ⟨houtcome, hstate⟩ := h _ _ hst.environment
  refine ⟨?_, hstate, hst.log⟩
  show Agree _ _ (x s.environment).1 (y t.environment).1
  generalize (x s.environment).1 = a, (y t.environment).1 = b at houtcome ⊢
  cases houtcome with
  | ok h => exact .ok h
  | error h => exact .error (congrArg Fault.unnamed h)

/-- The outcome of an evaluation is the same outcome. -/
theorem same_outcome_evaluation {x y : Evaluation α} (h : Evaluation.Same names x y) :
    Same names before before' (fun a b => a = b) (outcome (evaluation x))
      (outcome (evaluation y)) := by
  intro s t hst
  obtain ⟨houtcome, hstate⟩ := h _ _ hst.environment
  refine ⟨.ok ?_, hstate, hst.log⟩
  show (x s.environment).1 = (y t.environment).1
  generalize (x s.environment).1 = a, (y t.environment).1 = b at houtcome ⊢
  cases houtcome with
  | ok h => rw [h]
  | error h => rw [h]

theorem same_inScope {x : Activity α} {y : Activity β} (h : Same names before before' r x y) :
    Same names before before' r (inScope x) (inScope y) := by
  intro s t hst
  obtain ⟨houtcome, hstate⟩ := h _ _ hst.enter
  exact ⟨houtcome, hstate.leave⟩

theorem same_declare {name : String} (hname : names name) (b : Binding) :
    Same names before before' (fun a b => a = b) (declare name b) (declare name b) := by
  intro s t hst
  have hdeclare := hst.environment.declare hname b
  unfold declare
  generalize s.environment.declare name b = outcome, t.environment.declare name b = outcome'
    at hdeclare
  cases hdeclare with
  | ok hstate => exact ⟨.ok rfl, hstate, hst.log⟩
  | error hfault => exact ⟨.error (congrArg Fault.unnamed hfault), hst⟩

end Activity

open Activity

/-! ## Loops -/

namespace LoopControl

variable {names : String → Prop} {before before' : Array String} {control : LoopControl}

theorem same_evalOwn {e : Expr} (h : ∀ name ∈ e.names, names name) :
    Same names before before' (fun a b => a = b) (control.evalOwn e) (control.bare.evalOwn e) :=
  (same_moveTo _ _).bind fun _ _ _ => same_evaluation (e.same_eval h)

theorem same_holds (h : ∀ name ∈ control.names, names name) :
    Same names before before' (fun a b => a = b) control.holds control.bare.holds := by
  have hcondition := (List.forall_mem_append.mp h).1
  obtain ⟨place, form, guard, _ | condition, increment⟩ := control
  · exact alike_pure rfl
  · rw [Option.toList_some, List.flatMap_singleton] at hcondition
    exact (same_evalOwn hcondition).bind fun v w hvw => alike_pure (congrArg Value.isTruthy hvw)

theorem same_advance (h : ∀ name ∈ control.names, names name) :
    Same names before before' (fun a b => a = b) control.advance control.bare.advance := by
  have hincrement := (List.forall_mem_append.mp h).2
  obtain ⟨place, form, guard, condition, _ | increment⟩ := control
  · exact alike_pure rfl
  · rw [Option.toList_some, List.flatMap_singleton] at hincrement
    exact (same_evalOwn hincrement).bind fun _ _ _ => alike_pure rfl

/-- The passes of a loop, by induction on how many may still begin. -/
theorem same_passes (h : ∀ name ∈ control.names, names name) {body body' : Activity Flow}
    (hbody : Same names before before' (fun a b => a = b) body body') (left made : Nat) :
    Same names before before' (fun a b => a = b) (control.passes body left made)
      (control.bare.passes body' left made) := by
  induction left generalizing made with
  | zero =>
    rw [passes, passes]
    refine (same_holds h).bind fun goesOn _ he => ?_
    rw [← he]
    cases goesOn with
    | false => exact alike_pure rfl
    | true => exact alike_throw rfl
  | succ left ih =>
    rw [passes, passes]
    refine (same_holds h).bind fun goesOn _ he => ?_
    rw [← he]
    cases goesOn with
    | false => exact alike_pure rfl
    | true =>
      refine (same_inScope hbody).bind fun flow _ hflow => ?_
      rw [← hflow]
      -- Whether the pass is done or goes on to the next, one fewer is left.
      have hnext := (same_advance h).bind fun _ _ _ => ih (made + 1)
      cases flow with
      | leaveLoop => exact alike_pure rfl
      | done => exact hnext
      | nextPass => exact hnext

theorem same_run (h : ∀ name ∈ control.names, names name) {initial initial' : Activity Unit}
    {body body' : Activity Flow}
    (hinitial : Same names before before' (fun a b => a = b) initial initial')
    (hbody : Same names before before' (fun a b => a = b) body body') :
    Same names before before' (fun a b => a = b) (control.run initial body)
      (control.bare.run initial' body') := by
  refine same_inScope (hinitial.bind fun _ _ _ => ?_)
  refine (same_change fun hst => hst.note _ _).bind fun _ _ _ => ?_
  refine (same_passes h hbody _ _).bind fun _ _ _ => ?_
  exact same_change fun hst => hst.note _ _

end LoopControl

/-! ## Commands -/

section Commands

variable {names : String → Prop} {before before' : Array String}

mutual

/-- **A command is like its bare form**, wherever its names stand for the same. -/
theorem Command.same_run (c : Command) (h : ∀ name ∈ c.names, names name) :
    Same names before before' (fun a b => a = b) c.run c.bare.run := by
  match c with
  | .declare place mutability name value =>
    obtain ⟨hname, hvalue⟩ := List.forall_mem_cons.mp h
    refine (same_moveTo _ _).bind fun _ _ _ => ?_
    refine (same_evaluation (value.same_eval hvalue)).bind fun v _ hv => ?_
    rw [← hv]
    exact (same_declare hname _).bind fun _ _ _ => alike_pure rfl
  | .assign place name value =>
    obtain ⟨hname, hvalue⟩ := List.forall_mem_cons.mp h
    refine (same_moveTo _ _).bind fun _ _ _ => ?_
    refine (same_evaluation (value.same_eval hvalue)).bind fun v _ hv => ?_
    rw [← hv]
    exact (same_evaluation (Evaluation.same_store hname v)).bind fun _ _ _ => alike_pure rfl
  | .capture place arguments =>
    have harguments := Expr.same_evalAll arguments h
    refine (same_moveTo _ _).bind fun _ _ _ => ?_
    -- A fault in the arguments is part of the outcome, and the same in both.
    refine (same_outcome_evaluation harguments).bind fun vs _ hvs => ?_
    rw [← hvs]
    exact (same_change fun hst => hst.print _).bind fun _ _ _ => alike_pure rfl
  | .choice place chain =>
    exact (same_moveTo _ _).bind fun _ _ _ => chain.same_run h
  | .loop control none body =>
    obtain ⟨hcontrol, hbody⟩ := List.forall_mem_append.mp h
    refine (same_moveTo _ _).bind fun _ _ _ => ?_
    refine (LoopControl.same_run hcontrol (alike_pure rfl) (Command.same_runAll body hbody)).bind
      fun _ _ _ => alike_pure rfl
  | .loop control (some initial) body =>
    obtain ⟨hcontrol, hrest⟩ := List.forall_mem_append.mp h
    obtain ⟨hinitial, hbody⟩ := List.forall_mem_append.mp hrest
    refine (same_moveTo _ _).bind fun _ _ _ => ?_
    refine (LoopControl.same_run hcontrol ?_ (Command.same_runAll body hbody)).bind
      fun _ _ _ => alike_pure rfl
    exact (initial.same_run hinitial).bind fun _ _ _ => alike_pure rfl
  | .breakLoop => exact alike_pure rfl
  | .continueLoop => exact alike_pure rfl
  | .eval place value =>
    refine (same_moveTo _ _).bind fun _ _ _ => ?_
    exact (same_evaluation (value.same_eval h)).bind fun _ _ _ => alike_pure rfl
termination_by structural c

/-- The same for a chain. -/
theorem CommandChain.same_run (c : CommandChain) (h : ∀ name ∈ c.names, names name) :
    Same names before before' (fun a b => a = b) c.run c.bare.run := by
  match c with
  | .test condition body rest =>
    obtain ⟨hcondition, hblocks⟩ := List.forall_mem_append.mp h
    obtain ⟨hbody, hrest⟩ := List.forall_mem_append.mp hblocks
    refine (same_evaluation (condition.same_eval hcondition)).bind fun v _ hv => ?_
    rw [← hv]
    by_cases hholds : v.isTruthy = true
    · rw [if_pos hholds, if_pos hholds]
      exact same_inScope (Command.same_runAll body hbody)
    · rw [if_neg hholds, if_neg hholds]
      exact rest.same_run hrest
  | .otherwise body => exact same_inScope (Command.same_runAll body h)
  | .done => exact alike_pure rfl
termination_by structural c

/-- The same for a row of commands. -/
theorem Command.same_runAll (cs : List Command) (h : ∀ name ∈ Command.namesOfAll cs, names name) :
    Same names before before' (fun a b => a = b) (Command.runAll cs)
      (Command.runAll (Command.bareAll cs)) := by
  match cs with
  | [] => exact alike_pure rfl
  | c :: cs =>
    obtain ⟨hfirst, hrest⟩ := List.forall_mem_append.mp h
    refine (c.same_run hfirst).bind fun flow _ hflow => ?_
    rw [← hflow]
    cases flow with
    | done => exact Command.same_runAll cs hrest
    | leaveLoop => exact alike_pure rfl
    | nextPass => exact alike_pure rfl
termination_by structural cs

end

/-- **Commands of the same bare form are alike.** -/
theorem Command.same_runAll_of_bare {cs ds : List Command}
    (h : Command.bareAll cs = Command.bareAll ds) (hcs : ∀ name ∈ Command.namesOfAll cs, names name)
    (hds : ∀ name ∈ Command.namesOfAll ds, names name) :
    Same names before before' (fun a b => a = b) (Command.runAll cs) (Command.runAll ds) := by
  have hleft : Same names before before' (fun a b => a = b) (Command.runAll cs) _ :=
    Command.same_runAll cs hcs
  have hright : Same names before' before' (fun a b => a = b) (Command.runAll ds) _ :=
    Command.same_runAll ds hds
  rw [← h] at hright
  refine hleft.through hright ?_ ?_ ?_ ?_
  · exact fun he hf => he.trans hf.symm
  · exact fun ha hb => ha.trans hb.symm
  · intro s t hst
    obtain ⟨lines, -, ht⟩ := hst.log
    exact ⟨t, hst, .refl names _, lines, ht, ht⟩
  · exact fun hs ht => hs.through ht

end Commands

/-! ## Scripts -/

namespace Sandbox

/-- The fault that ends a run, if one does. -/
def fatalFault? (script : Script) (s : Sandbox) : Option Fault :=
  match (Command.runAll script.body (s.note (.executing script.body.length))).1 with
  | .ok _ => none
  | .error fault => some fault

/-- How the commands of a script end. -/
def outcome (script : Script) (s : Sandbox) : Except Fault Flow :=
  (Command.runAll script.body (s.note (.executing script.body.length))).1

/-- How a run ends, as far as anything can be seen of it: the sandbox in which its commands
end, with one more line if they end in a fault. -/
def closed : Except Fault Flow × Sandbox → Sandbox
  | (.ok _, s) => s
  | (.error fault, s) => (s.note (.stopped s.place fault)).print fault.fatalLine

theorem run_eq (script : Script) (s : Sandbox) :
    s.run script = closed (Command.runAll script.body (s.note (.executing script.body.length))) := by
  rfl

variable {names : String → Prop} {before before' : Array String} {s t : Sandbox}

/-- Outcomes and sandboxes that agree still do when the run is over. -/
theorem agrees_closed {x y : Except Fault Flow × Sandbox}
    (houtcome : Agree (fun a b => a.unnamed = b.unnamed) (fun a b => a = b) x.1 y.1)
    (hstate : Agrees names before before' x.2 y.2) :
    Agrees names before before' (closed x) (closed y) := by
  obtain ⟨outcome, s⟩ := x
  obtain ⟨outcome', t⟩ := y
  cases houtcome with
  | ok h => exact hstate
  | error h =>
    rename_i fault fault'
    have hline : fault.fatalLine = fault'.fatalLine := by
      rw [← fault.fatalLine_unnamed, h, fault'.fatalLine_unnamed]
    show Agrees names before before' (print fault.fatalLine _) (print fault'.fatalLine _)
    rw [hline]
    exact (hstate.note _ _).print _

/-- **Scripts of the same bare form run alike.** -/
theorem agrees_run {a b : Script} (h : Command.bareAll a.body = Command.bareAll b.body)
    (ha : ∀ name ∈ Command.namesOfAll a.body, names name)
    (hb : ∀ name ∈ Command.namesOfAll b.body, names name)
    (hst : Agrees names before before' s t) :
    Agrees names before before' (s.run a) (t.run b) := by
  rw [run_eq, run_eq]
  obtain ⟨houtcome, hstate⟩ := Command.same_runAll_of_bare h ha hb _ _ (hst.note _ _)
  exact agrees_closed houtcome hstate

end Sandbox

end Lipi
