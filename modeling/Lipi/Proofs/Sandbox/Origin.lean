/-
Where a fault comes from, and where it is reported.

A fault that ends a run is reported at the place of the sandbox, and that place is moved by
every command that begins. Whether it is the right one can only be said beside an account of
the command that was being worked out when the fault arose. So the run is done once more
with every fault labelled with its origin: the command and the part of it that was at work
(`Command.tracked`). The labels change nothing; without them it is the run
(`Command.erase_tracked`).

With them, one statement goes through the commands: a fault that comes out has an origin
that could raise it, and the place of the sandbox is that of the origin
(`Tracked.Locates`). There is one exception. A loop returns to its own place to test a
condition or to take an increment, but not to count its passes; so a loop without
either does not return at all, and when its passes are used up, the place reported is
wherever its body ended (`Origin.Settled`).
-/
import Lipi.Proofs.Sandbox.Agreement

set_option autoImplicit false

namespace Lipi

open Procedure

/-! ## Origins -/

/-- The parts of a command in which a fault can arise. -/
inductive Origin.Part where
  /-- Working out the value, and keeping it. -/
  | value
  | condition
  | increment
  /-- Beginning a pass that the guard does not allow. -/
  | limit
deriving DecidableEq, Repr

/-- A command and the part of it in which a fault arose. -/
structure Origin where
  owner : Command
  part : Origin.Part

namespace Origin

/-- A fault can arise in this part of this command. -/
def Raises (origin : Origin) (fault : Fault) : Prop :=
  match origin.owner, origin.part with
  | .declare _ _ _ _, .value | .assign _ _ _, .value | .eval _ _, .value => True
  | .choice _ _, .condition => True
  | .loop control _ _, .condition => control.condition ≠ none
  | .loop control _ _, .increment => control.increment ≠ none
  | .loop control _ _, .limit => fault = .iterationLimit control.guard.name control.guard.limit
  | _, _ => False

/-- The place has been moved to the command since another one was last at work. Only a loop
that uses up its passes need not have done so: one that has no condition, and no increment
or no passes to take it after. -/
def Settled (origin : Origin) : Prop :=
  match origin.owner, origin.part with
  | .loop control _ _, .limit =>
    control.condition ≠ none ∨ (control.increment ≠ none ∧ 0 < control.guard.limit)
  | _, _ => True

/-- What is true of a fault, its origin and the place where the sandbox is left. -/
structure Located (origin : Origin) (fault : Fault) (place : Location) : Prop where
  raises : origin.Raises fault
  place : origin.Settled → origin.owner.place? = some place

end Origin

/-! ## Tracked activities -/

/-- An activity whose faults come with their origins. -/
abbrev Tracked (α : Type) := Procedure Sandbox (Fault × Origin) α

namespace Tracked

variable {α β : Type}

/-- A tracked activity that only changes the sandbox. -/
def change (f : Sandbox → Sandbox) : Tracked Unit := fun s => (.ok (), f s)

/-- An activity all of whose faults have one origin. -/
def within (origin : Origin) (x : Activity α) : Tracked α := fun s =>
  let (outcome, s) := x s
  (outcome.mapError (·, origin), s)

/-- A tracked activity inside a scope of its own. -/
def inScope (x : Tracked α) : Tracked α := fun s =>
  let (outcome, s) := x s.enter
  (outcome, s.leave)

/-- The activity without the origins. -/
def erase (x : Tracked α) : Activity α := fun s =>
  let (outcome, s) := x s
  (outcome.mapError Prod.fst, s)

end Tracked

namespace LoopControl

open Tracked

/-- The passes of a loop, with the origins of their faults; the loop's own are those of a
command. -/
def trackedPasses (control : LoopControl) (owner : Command) (body : Tracked Flow) :
    (left made : Nat) → Tracked Nat
  | left, made => do
    if ← within ⟨owner, .condition⟩ control.holds then
      match left with
      | 0 =>
        within ⟨owner, .limit⟩ (throw (.iterationLimit control.guard.name control.guard.limit))
      | left + 1 =>
        match ← inScope body with
        | .leaveLoop => return made + 1
        | _ =>
          within ⟨owner, .increment⟩ control.advance
          trackedPasses control owner body left (made + 1)
    else return made

/-- A loop with the origins of its faults. -/
def trackedRun (control : LoopControl) (owner : Command) (initial : Tracked Unit)
    (body : Tracked Flow) : Tracked Unit :=
  inScope do
    initial
    change (·.note (.armed control.guard.name control.place))
    let made ← control.trackedPasses owner body control.guard.limit 0
    change (·.note (.released control.guard.name made))

end LoopControl

open Tracked

mutual

/-- Runs a command, with the origins of its faults. -/
def Command.tracked : Command → Tracked Flow
  | .declare place mutability name value => do
    change (·.moveTo place)
    within ⟨.declare place mutability name value, .value⟩ do
      let value ← Activity.evaluation value.eval
      Activity.declare name ⟨value, mutability⟩
    return .done
  | .assign place name value => do
    change (·.moveTo place)
    within ⟨.assign place name value, .value⟩ do
      let value ← Activity.evaluation value.eval
      Activity.evaluation (Evaluation.store name value)
    return .done
  | .capture place arguments => do
    change (·.moveTo place)
    -- A print makes a line of a fault in its arguments.
    let values ← within ⟨.capture place arguments, .value⟩
      (Activity.outcome (Activity.evaluation (Expr.evalAll arguments)))
    change (·.print (OutputLog.captureLine values))
    return .done
  | .choice place chain => do
    change (·.moveTo place)
    chain.tracked (.choice place chain)
  | .loop control initial body => do
    change (·.moveTo control.place)
    control.trackedRun (.loop control initial body)
      (match initial with
        | none => return ()
        | some command => do let _ ← command.tracked)
      (Command.trackedAll body)
    return .done
  | .breakLoop => return .leaveLoop
  | .continueLoop => return .nextPass
  | .eval place value => do
    change (·.moveTo place)
    within ⟨.eval place value, .value⟩ do
      let _ ← Activity.evaluation value.eval
    return .done
termination_by structural c => c

/-- Runs the block of the first test that holds; the tests belong to a command. -/
def CommandChain.tracked (owner : Command) : CommandChain → Tracked Flow
  | .test condition body rest => do
    let value ← within ⟨owner, .condition⟩ (Activity.evaluation condition.eval)
    if value.isTruthy then inScope (Command.trackedAll body)
    else rest.tracked owner
  | .otherwise body => inScope (Command.trackedAll body)
  | .done => return .done
termination_by structural c => c

/-- Runs a row of commands, with the origins of their faults. -/
def Command.trackedAll : List Command → Tracked Flow
  | [] => return .done
  | c :: rest => do
    match ← c.tracked with
    | .done => Command.trackedAll rest
    | flow => return flow
termination_by structural cs => cs

end

/-! ## Without the origins -/

namespace Tracked

variable {α β : Type}

theorem erase_pure (a : α) : (pure a : Tracked α).erase = pure a := rfl

theorem erase_change (f : Sandbox → Sandbox) : (change f).erase = Activity.change f := rfl

theorem erase_bind (x : Tracked α) (f : α → Tracked β) :
    (x >>= f).erase = x.erase >>= fun a => (f a).erase := by
  funext s
  unfold erase
  rw [bind_apply, bind_apply]
  cases x s with
  | mk outcome t =>
    cases outcome with
    | error e => rfl
    | ok a => rfl

theorem erase_within (origin : Origin) (x : Activity α) : (within origin x).erase = x := by
  funext s
  unfold erase within
  cases x s with
  | mk outcome t =>
    cases outcome with
    | error fault => rfl
    | ok a => rfl

theorem erase_inScope (x : Tracked α) : (inScope x).erase = Activity.inScope x.erase := rfl

theorem erase_trackedPasses (control : LoopControl) (owner : Command) (body : Tracked Flow)
    (left made : Nat) :
    (control.trackedPasses owner body left made).erase = control.passes body.erase left made := by
  induction left generalizing made with
  | zero =>
    rw [LoopControl.trackedPasses, LoopControl.passes, erase_bind, erase_within]
    congr 1
    funext goesOn
    cases goesOn with
    | true => rfl
    | false => rfl
  | succ left ih =>
    rw [LoopControl.trackedPasses, LoopControl.passes, erase_bind, erase_within]
    congr 1
    funext goesOn
    cases goesOn with
    | false => rfl
    | true =>
      simp only [if_true]
      rw [erase_bind, erase_inScope]
      congr 1
      funext flow
      cases flow with
      | leaveLoop => rfl
      | done | nextPass =>
        dsimp only
        rw [erase_bind, erase_within]
        congr 1
        funext _
        exact ih (made + 1)

theorem erase_trackedRun (control : LoopControl) (owner : Command) (initial : Tracked Unit)
    (body : Tracked Flow) :
    (control.trackedRun owner initial body).erase = control.run initial.erase body.erase := by
  unfold LoopControl.trackedRun LoopControl.run
  rw [erase_inScope]
  congr 1
  simp only [erase_bind, erase_change, erase_trackedPasses]

end Tracked

mutual

/-- **The labels change nothing.** -/
theorem Command.erase_tracked (c : Command) : c.tracked.erase = c.run := by
  match c with
  | .declare place mutability name value =>
    simp only [Command.tracked, Command.run, erase_bind, erase_change, erase_within, erase_pure,
      bind_assoc]
  | .assign place name value =>
    simp only [Command.tracked, Command.run, erase_bind, erase_change, erase_within, erase_pure,
      bind_assoc]
  | .capture place arguments =>
    simp only [Command.tracked, Command.run, erase_bind, erase_change, erase_within, erase_pure]
  | .choice place chain =>
    simp only [Command.tracked, Command.run, erase_bind, erase_change, chain.erase_tracked]
  | .loop control none body =>
    simp only [Command.tracked, Command.run, erase_bind, erase_change, erase_pure,
      erase_trackedRun, Command.erase_trackedAll body]
  | .loop control (some initial) body =>
    simp only [Command.tracked, Command.run, erase_bind, erase_change, erase_pure,
      erase_trackedRun, Command.erase_trackedAll body, initial.erase_tracked]
  | .breakLoop => rfl
  | .continueLoop => rfl
  | .eval place value =>
    simp only [Command.tracked, Command.run, erase_bind, erase_change, erase_within, erase_pure,
      bind_assoc, pure_bind]
termination_by structural c

/-- The same for a chain. -/
theorem CommandChain.erase_tracked (c : CommandChain) (owner : Command) :
    (c.tracked owner).erase = c.run := by
  match c with
  | .test condition body rest =>
    rw [CommandChain.tracked, CommandChain.run, erase_bind, erase_within]
    congr 1
    funext value
    by_cases hv : value.isTruthy = true
    · rw [if_pos hv, if_pos hv, erase_inScope, Command.erase_trackedAll body]
    · rw [if_neg hv, if_neg hv, rest.erase_tracked]
  | .otherwise body =>
    rw [CommandChain.tracked, CommandChain.run, erase_inScope, Command.erase_trackedAll body]
  | .done => rfl
termination_by structural c

/-- The same for a row of commands. -/
theorem Command.erase_trackedAll (cs : List Command) :
    (Command.trackedAll cs).erase = Command.runAll cs := by
  match cs with
  | [] => rfl
  | c :: cs =>
    rw [Command.trackedAll, Command.runAll, erase_bind, c.erase_tracked]
    congr 1
    funext flow
    cases flow with
    | done => exact Command.erase_trackedAll cs
    | leaveLoop => rfl
    | nextPass => rfl
termination_by structural cs

end

/-! ## Places -/

namespace Activity

theorem keeps_place_evaluation {α : Type} (e : Evaluation α) :
    Keeps (fun s t => t.place = s.place) (evaluation e) :=
  fun _ => rfl

theorem keeps_place_declare (name : String) (b : Binding) :
    Keeps (fun s t => t.place = s.place) (declare name b) := by
  intro s
  unfold declare
  split
  · rfl
  · rfl

theorem keeps_place_bind {α β : Type} {x : Activity α} {f : α → Activity β}
    (hx : Keeps (fun s t => t.place = s.place) x)
    (hf : ∀ a, Keeps (fun s t => t.place = s.place) (f a)) :
    Keeps (fun s t => t.place = s.place) (x >>= f) :=
  hx.bind (fun hst htu => htu.trans hst) hf

end Activity

/-- From a place of some kind, a tracked activity ends in a value and a place that fit, or in
a fault that is reported at its origin. -/
def Tracked.Locates {α : Type} (pre : Location → Prop) (x : Tracked α)
    (post : α → Location → Prop) : Prop :=
  ∀ s : Sandbox, pre s.place → match x s with
    | (.ok a, t) => post a t.place
    | (.error (fault, origin), t) => origin.Located fault t.place

namespace Tracked

variable {α β : Type} {pre : Location → Prop} {post : α → Location → Prop}
  {post' : β → Location → Prop}

theorem locates_pure {a : α} (h : ∀ l, pre l → post a l) :
    Locates pre (pure a : Tracked α) post :=
  fun s hs => h s.place hs

theorem Locates.bind {x : Tracked α} {f : α → Tracked β} (hx : Locates pre x post)
    (hf : ∀ a, Locates (post a) (f a) post') : Locates pre (x >>= f) post' := by
  intro s hs
  have hfirst := hx s hs
  rw [bind_apply]
  cases hrun : x s with
  | mk outcome t =>
    rw [hrun] at hfirst
    cases outcome with
    | error e => exact hfirst
    | ok a => exact hf a t hfirst

theorem Locates.weaken {x : Tracked α} {pre' : Location → Prop} {post'' : α → Location → Prop}
    (h : Locates pre x post) (hpre : ∀ l, pre' l → pre l) (hpost : ∀ a l, post a l → post'' a l) :
    Locates pre' x post'' := by
  intro s hs
  have hrun := h s (hpre _ hs)
  cases hx : x s with
  | mk outcome t =>
    rw [hx] at hrun
    cases outcome with
    | error e => exact hrun
    | ok a => exact hpost a t.place hrun

/-- Moving to a place. -/
theorem locates_moveTo (place : Location) :
    Locates pre (change (·.moveTo place)) (fun _ l => l = place) :=
  fun _ _ => rfl

/-- A change that keeps the place. -/
theorem locates_change (f : Sandbox → Sandbox) (h : ∀ s, (f s).place = s.place) :
    Locates pre (change f) (fun _ l => pre l) := by
  intro s hs
  show pre (f s).place
  rw [h]
  exact hs

theorem Locates.inScope {x : Tracked α} (h : Locates pre x post) :
    Locates pre (Tracked.inScope x) post := by
  intro s hs
  have hrun := h s.enter hs
  unfold Tracked.inScope
  cases hx : x s.enter with
  | mk outcome t =>
    rw [hx] at hrun
    cases outcome with
    | error e => exact hrun
    | ok a => exact hrun

/-- An activity that ends at the place of its origin. -/
theorem locates_within {x : Activity α} (origin : Origin) {place : Location}
    (hraises : ∀ fault, origin.Raises fault) (hplace : origin.owner.place? = some place)
    (hends : ∀ s, pre s.place → (x s).2.place = place) :
    Locates pre (within origin x) (fun _ l => l = place) := by
  intro s hs
  have hend := hends s hs
  unfold within
  cases hx : x s with
  | mk outcome t =>
    rw [hx] at hend
    cases outcome with
    | error fault =>
      refine ⟨hraises fault, fun _ => ?_⟩
      rw [hplace]
      exact congrArg some hend.symm
    | ok a => exact hend

/-- A tracked activity that, from any place, reports its faults at their origins. -/
def Reports (x : Tracked α) : Prop := Locates (fun _ => True) x (fun _ _ => True)

theorem Reports.after {x : Tracked α} (h : Reports x) (pre : Location → Prop) :
    Locates pre x (fun _ _ => True) :=
  h.weaken (fun _ _ => trivial) fun _ _ h => h

theorem reports_pure (a : α) : Reports (pure a : Tracked α) :=
  locates_pure fun _ _ => trivial

theorem Reports.bind {x : Tracked α} {f : α → Tracked β} (hx : Reports x)
    (hf : ∀ a, Reports (f a)) : Reports (x >>= f) :=
  Locates.bind hx hf

/-- What moves to a place and goes on from there. -/
theorem reports_moveTo {place : Location} {x : Tracked α}
    (hx : Locates (· = place) x (fun _ _ => True)) : Reports (do change (·.moveTo place); x) :=
  (locates_moveTo place).bind fun _ => hx

/-- A command that does one thing, at its own place. -/
theorem reports_value (c : Command) {place : Location} {x : Activity α}
    (hraises : ∀ fault, Origin.Raises ⟨c, .value⟩ fault) (hplace : c.place? = some place)
    (hkeeps : Keeps (fun s t => t.place = s.place) x) (flow : Flow) :
    Reports (do change (·.moveTo place); let _ ← within ⟨c, .value⟩ x; return flow) := by
  refine reports_moveTo ?_
  refine (locates_within ⟨c, .value⟩ hraises hplace fun s hs => (hkeeps s).trans hs).bind
    fun _ => ?_
  exact locates_pure fun _ _ => trivial

end Tracked

/-! ## Loops -/

namespace LoopControl

variable {control : LoopControl} {initial : Option Command} {cs : List Command}

/-- A loop's own expressions are worked out at its place. -/
theorem place_evalOwn (e : Expr) (s : Sandbox) : (control.evalOwn e s).2.place = control.place :=
  rfl

theorem place_holds (h : control.condition ≠ none) (s : Sandbox) :
    (control.holds s).2.place = control.place := by
  obtain ⟨e, he⟩ := Option.ne_none_iff_exists'.mp h
  have hholds : control.holds = (do return (← control.evalOwn e).isTruthy) := by
    unfold holds
    rw [he]
  rw [hholds, snd_bind_pure]
  exact place_evalOwn e s

theorem place_advance (h : control.increment ≠ none) (s : Sandbox) :
    (control.advance s).2.place = control.place := by
  obtain ⟨e, he⟩ := Option.ne_none_iff_exists'.mp h
  have hadvance : control.advance = (do let _ ← control.evalOwn e) := by
    unfold advance
    rw [he]
  rw [hadvance, snd_bind_pure]
  exact place_evalOwn e s

/-- After so many passes, a loop that has no condition to return for has returned for its
increment. -/
def Ready (control : LoopControl) (made : Nat) (l : Location) : Prop :=
  control.condition = none → control.increment ≠ none → 0 < made → l = control.place

theorem locates_holds (pre : Location → Prop) :
    Locates pre (within ⟨.loop control initial cs, .condition⟩ control.holds)
      (fun _ l => (control.condition ≠ none → l = control.place)
        ∧ (control.condition = none → pre l)) := by
  by_cases hcondition : control.condition = none
  · -- Nothing is tested, and nothing happens.
    have hholds : control.holds = pure true := by
      unfold holds
      rw [hcondition]
    rw [hholds]
    exact fun s hs => ⟨fun h => absurd hcondition h, fun _ => hs⟩
  · have hends : Locates pre (within ⟨.loop control initial cs, .condition⟩ control.holds)
        (fun _ l => l = control.place) :=
      locates_within _ (fun _ => hcondition) rfl fun s _ => place_holds hcondition s
    refine hends.weaken (fun _ h => h) fun _ l hl => ?_
    exact ⟨fun _ => hl, fun h => absurd h hcondition⟩

theorem locates_advance (pre : Location → Prop) :
    Locates pre (within ⟨.loop control initial cs, .increment⟩ control.advance)
      (fun _ l => control.increment ≠ none → l = control.place) := by
  by_cases hincrement : control.increment = none
  · have hadvance : control.advance = pure () := by
      unfold advance
      rw [hincrement]
    rw [hadvance]
    exact fun s _ h => absurd hincrement h
  · have hends : Locates pre (within ⟨.loop control initial cs, .increment⟩ control.advance)
        (fun _ l => l = control.place) :=
      locates_within _ (fun _ => hincrement) rfl fun s _ => place_advance hincrement s
    exact hends.weaken (fun _ h => h) fun _ l hl _ => hl

/-- **The passes of a loop**, by induction on how many may still begin. With those that have
begun they make up the limit. -/
theorem locates_trackedPasses {body : Tracked Flow} (hbody : body.Reports) {left made : Nat}
    (h : made + left = control.guard.limit) :
    Locates (control.Ready made)
      (control.trackedPasses (.loop control initial cs) body left made) (fun _ _ => True) := by
  induction left generalizing made with
  | zero =>
    rw [trackedPasses]
    refine (locates_holds _).bind fun goesOn => ?_
    cases goesOn with
    | false => exact locates_pure fun _ _ => trivial
    | true =>
      -- The passes are used up.
      rintro s ⟨hmoved, hready⟩
      refine ⟨rfl, ?_⟩
      intro hsettled
      show some control.place = some s.place
      by_cases hcondition : control.condition = none
      · rcases hsettled with hsome | ⟨hincrement, hpos⟩
        · exact absurd hcondition hsome
        · have hmade : 0 < made := by omega
          rw [hready hcondition hcondition hincrement hmade]
      · rw [hmoved hcondition]
  | succ left ih =>
    rw [trackedPasses]
    refine (locates_holds _).bind fun goesOn => ?_
    cases goesOn with
    | false => exact locates_pure fun _ _ => trivial
    | true =>
      refine (Reports.after hbody.inScope _).bind fun flow => ?_
      have hnext := ih (show made + 1 + left = control.guard.limit by omega)
      have hrest : Locates (fun _ => True)
          (do within ⟨.loop control initial cs, .increment⟩ control.advance
              control.trackedPasses (.loop control initial cs) body left (made + 1))
          (fun _ _ => True) := by
        refine (locates_advance _).bind fun _ => hnext.weaken ?_ fun _ _ h => h
        exact fun l hl _ hincrement _ => hl hincrement
      cases flow with
      | leaveLoop => exact locates_pure fun _ _ => trivial
      | done => exact hrest
      | nextPass => exact hrest

theorem reports_trackedRun {opening : Tracked Unit} (hopening : opening.Reports)
    {body : Tracked Flow} (hbody : body.Reports) :
    (control.trackedRun (.loop control initial cs) opening body).Reports := by
  unfold trackedRun
  refine Locates.inScope ?_
  have hpasses : Locates (fun _ => True)
      (control.trackedPasses (.loop control initial cs) body control.guard.limit 0)
      (fun _ _ => True) := by
    refine (locates_trackedPasses hbody (Nat.zero_add _)).weaken ?_ fun _ _ h => h
    -- No pass has begun.
    exact fun l _ _ _ hpos => absurd hpos (Nat.lt_irrefl 0)
  refine Locates.bind hopening fun _ => ?_
  refine (locates_change (·.note _) fun _ => rfl).bind fun _ => ?_
  exact hpasses.bind fun made => locates_change (·.note _) fun _ => rfl

end LoopControl

/-! ## Commands -/

open Activity LoopControl

mutual

/-- **Every fault of a command is reported at its origin**, if that has moved the place. -/
theorem Command.reports_tracked (c : Command) : c.tracked.Reports := by
  match c with
  | .declare place mutability name value =>
    refine reports_value (.declare place mutability name value) (fun _ => trivial) rfl ?_ .done
    exact keeps_place_bind (keeps_place_evaluation _) fun v => keeps_place_declare name _
  | .assign place name value =>
    refine reports_value (.assign place name value) (fun _ => trivial) rfl ?_ .done
    exact keeps_place_bind (keeps_place_evaluation _) fun v => keeps_place_evaluation _
  | .capture place arguments =>
    -- The arguments may fail, and the print does not.
    refine reports_moveTo ?_
    have hvalues : Locates (· = place) (within ⟨.capture place arguments, .value⟩
        (Activity.outcome (Activity.evaluation (Expr.evalAll arguments)))) (fun _ _ => True) :=
      fun _ _ => trivial
    refine hvalues.bind fun _ => ?_
    refine (locates_change (·.print _) fun _ => rfl).bind fun _ => ?_
    exact locates_pure fun _ _ => trivial
  | .choice place chain => exact reports_moveTo (chain.reports_tracked place chain)
  | .loop control none body =>
    refine reports_moveTo ?_
    have hloop : (control.trackedRun (.loop control none body) (pure ())
        (Command.trackedAll body)).Reports :=
      reports_trackedRun (reports_pure ()) (Command.reports_trackedAll body)
    exact (hloop.after _).bind fun _ => reports_pure _
  | .loop control (some initial) body =>
    refine reports_moveTo ?_
    have hopening : Tracked.Reports (do let _ ← initial.tracked) :=
      initial.reports_tracked.bind fun _ => reports_pure ()
    have hloop : (control.trackedRun (.loop control (some initial) body)
        (do let _ ← initial.tracked) (Command.trackedAll body)).Reports :=
      reports_trackedRun hopening (Command.reports_trackedAll body)
    exact (hloop.after _).bind fun _ => reports_pure _
  | .breakLoop => exact reports_pure _
  | .continueLoop => exact reports_pure _
  | .eval place value =>
    refine reports_value (.eval place value) (fun _ => trivial) rfl ?_ .done
    exact keeps_place_bind (keeps_place_evaluation _) fun v => fun _ => rfl
termination_by structural c

/-- The tests of a chain are all worked out at the place of the choice. -/
theorem CommandChain.reports_tracked (c : CommandChain) (place : Location) (whole : CommandChain) :
    Locates (· = place) (c.tracked (.choice place whole)) (fun _ _ => True) := by
  match c with
  | .test condition body rest =>
    refine (locates_within ⟨.choice place whole, .condition⟩ (fun _ => trivial) rfl
      fun s hs => hs).bind fun value => ?_
    by_cases hv : value.isTruthy = true
    · rw [if_pos hv]
      exact Reports.after (Command.reports_trackedAll body).inScope _
    · rw [if_neg hv]
      exact rest.reports_tracked place whole
  | .otherwise body =>
    exact Reports.after (Command.reports_trackedAll body).inScope _
  | .done => exact locates_pure fun _ _ => trivial
termination_by structural c

/-- The same for a row of commands. -/
theorem Command.reports_trackedAll (cs : List Command) : (Command.trackedAll cs).Reports := by
  match cs with
  | [] => exact reports_pure _
  | c :: cs =>
    refine c.reports_tracked.bind fun flow => ?_
    cases flow with
    | done => exact Command.reports_trackedAll cs
    | leaveLoop => exact reports_pure _
    | nextPass => exact reports_pure _
termination_by structural cs

end

/-! ## Scripts -/

namespace Sandbox

/-- How the commands of a script end, with the origin of the fault that ends them. -/
def tracked (script : Script) (s : Sandbox) : Except (Fault × Origin) Flow × Sandbox :=
  Command.trackedAll script.body (s.note (.executing script.body.length))

/-- **A fault that ends a run is reported at the command that raised it.** The run with origins
ends in the same fault and the same sandbox, and the warning names the place of that
sandbox. The origin is a declaration, an assignment or an expression that was being worked
out, a choice whose condition was, or a loop whose condition or increment was or whose
passes were used up. The place is that of the command, except in one case: where
the passes are used up of a loop without a condition that takes no increment either, the
loop has not returned to its own place. -/
theorem stopped_at_origin {script : Script} {s : Sandbox} {fault : Fault}
    (h : s.outcome script = .error fault) :
    ∃ origin t, s.tracked script = (.error (fault, origin), t)
      ∧ s.run script = (t.note (.stopped t.place fault)).print fault.fatalLine
      ∧ origin.Raises fault
      ∧ (origin.Settled → origin.owner.place? = some t.place) := by
  have herase : (Command.trackedAll script.body).erase = Command.runAll script.body :=
    Command.erase_trackedAll script.body
  have hreports := Command.reports_trackedAll script.body
    (s.note (.executing script.body.length)) trivial
  unfold outcome at h
  rw [run_eq]
  rw [← herase] at h ⊢
  unfold tracked Tracked.erase at *
  cases hrun : Command.trackedAll script.body (s.note (.executing script.body.length)) with
  | mk outcome t =>
    rw [hrun] at h hreports
    cases outcome with
    | ok flow => cases h
    | error e =>
      obtain ⟨fault', origin⟩ := e
      cases h
      exact ⟨origin, t, rfl, rfl, hreports.raises, hreports.place⟩

end Sandbox

/-- A loop that steps a name that is not there. -/
def steppingLoop : Command :=
  .loop ⟨⟨17, 2, 1⟩, .counting, ⟨"__loop_guard_0", 9⟩, none, some (.update "i" .increment false)⟩
    none [.eval ⟨40, 3, 3⟩ (.literal .null)]

/-- The fault is reported at the loop, not at the body that has run before. -/
theorem stopped_at_origin_steppingLoop :
    Sandbox.fresh.outcome ⟨[steppingLoop]⟩ = .error (.undefined "i")
      ∧ ∃ t, Sandbox.fresh.tracked ⟨[steppingLoop]⟩
          = (.error (.undefined "i", ⟨steppingLoop, .increment⟩), t)
        ∧ t.place = ⟨17, 2, 1⟩ := by
  have houtcome : Sandbox.fresh.outcome ⟨[steppingLoop]⟩ = .error (.undefined "i") := rfl
  obtain ⟨origin, t, htracked, -, -, hplace⟩ := Sandbox.stopped_at_origin houtcome
  have horigin : (Sandbox.fresh.tracked ⟨[steppingLoop]⟩).1
      = .error (.undefined "i", ⟨steppingLoop, .increment⟩) := rfl
  rw [htracked] at horigin
  cases horigin
  exact ⟨houtcome, t, htracked, (Option.some.inj (hplace trivial)).symm⟩

/-- A loop without a condition and without an increment. -/
def endlessLoop : Command :=
  .loop ⟨⟨17, 2, 1⟩, .counting, ⟨"__loop_guard_0", 1⟩, none, none⟩ none
    [.eval ⟨40, 3, 3⟩ (.literal .null)]

/-- **The exception is real**: when the passes of this loop are used up, its fault is reported
in the body. -/
theorem endlessLoop_stopped_elsewhere :
    ∃ t, Sandbox.fresh.tracked ⟨[endlessLoop]⟩
        = (.error (.iterationLimit "__loop_guard_0" 1, ⟨endlessLoop, .limit⟩), t)
      ∧ endlessLoop.place? = some ⟨17, 2, 1⟩ ∧ t.place = ⟨40, 3, 3⟩ :=
  ⟨_, rfl, rfl, rfl⟩

end Lipi
