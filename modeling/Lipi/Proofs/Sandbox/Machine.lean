/-
Running a script step by step.

What a command does is defined by recursion over the command, and for a loop by recursion
on the number of passes that may still begin. Here the same is done by a machine that takes
one step at a time: it has a task, and under it a stack of frames that say what is to be
done when the task has ended (`Machine.step`). Its loops count the passes they have begun
and compare the count with the limit. No step looks further than the top of the stack, and
that the machine comes to an end is not built into it.

It does come to an end, with the outcome and the sandbox of the recursive definition
(`Command.performs_run`, `Sandbox.reaches_run`). So statements about the order in which things
happen in a run can be made of the steps of the machine: which commands are executed, what
each of them adds to the log, and what is still done after a fault.
-/
import Lipi.Proofs.Sandbox.Agreement

set_option autoImplicit false

namespace Lipi

open Procedure Activity

/-! ## The machine -/

/-- What a machine is about to do. -/
inductive Machine.Task where
  | command (c : Command)
  | row (cs : List Command)
  | chain (c : CommandChain)
  /-- The condition of a loop, after a number of passes. -/
  | test (control : LoopControl) (body : List Command) (made : Nat)
  /-- Nothing: what was to be done has ended. -/
  | ended (outcome : Except Fault Flow)

/-- What a machine has put off. -/
inductive Machine.Frame where
  /-- The other commands of a row. -/
  | rest (cs : List Command)
  /-- Leaving a scope. -/
  | scope
  /-- A loop, once it has been opened. -/
  | opening (control : LoopControl) (body : List Command)
  /-- A loop, after a pass; the number includes that pass. -/
  | pass (control : LoopControl) (body : List Command) (made : Nat)

/-- A machine that runs commands, with what it has put off, the latest first. -/
structure Machine where
  task : Machine.Task
  frames : List Machine.Frame
  sandbox : Sandbox

namespace Machine

/-- Begins a command. A chain or a loop is work of several steps, any other command is done
at once. -/
def beginCommand (frames : List Frame) (s : Sandbox) : Command → Machine
  | .choice place chain => ⟨.chain chain, frames, s.moveTo place⟩
  | .loop control none body =>
    ⟨.ended (.ok .done), .opening control body :: .scope :: frames,
      (s.moveTo control.place).enter⟩
  | .loop control (some initial) body =>
    ⟨.command initial, .opening control body :: .scope :: frames,
      (s.moveTo control.place).enter⟩
  | c => ⟨.ended (c.run s).1, frames, (c.run s).2⟩

/-- Begins the first command of a row. -/
def beginRow (frames : List Frame) (s : Sandbox) : List Command → Machine
  | [] => ⟨.ended (.ok .done), frames, s⟩
  | c :: cs => ⟨.command c, .rest cs :: frames, s⟩

/-- Tests the first condition of a chain. -/
def beginChain (frames : List Frame) (s : Sandbox) : CommandChain → Machine
  | .test condition body rest =>
    match evaluation condition.eval s with
    | (.error fault, t) => ⟨.ended (.error fault), frames, t⟩
    | (.ok v, t) =>
      if v.isTruthy then ⟨.row body, .scope :: frames, t.enter⟩ else ⟨.chain rest, frames, t⟩
  | .otherwise body => ⟨.row body, .scope :: frames, s.enter⟩
  | .done => ⟨.ended (.ok .done), frames, s⟩

/-- Begins a pass of a loop, unless it is one more than the limit allows. -/
def beginPass (frames : List Frame) (s : Sandbox) (control : LoopControl) (body : List Command)
    (made : Nat) : Machine :=
  if control.guard.limit < made + 1 then
    ⟨.ended (.error (.iterationLimit control.guard.name control.guard.limit)), frames, s⟩
  else ⟨.row body, .scope :: .pass control body (made + 1) :: frames, s.enter⟩

/-- Tests the condition of a loop. -/
def testLoop (frames : List Frame) (s : Sandbox) (control : LoopControl) (body : List Command)
    (made : Nat) : Machine :=
  match control.holds s with
  | (.error fault, t) => ⟨.ended (.error fault), frames, t⟩
  | (.ok goesOn, t) =>
    if goesOn then beginPass frames t control body made
    else ⟨.ended (.ok .done), frames, t.note (.released control.guard.name made)⟩

/-- Takes the increment of a loop, after a pass that has not left it. -/
def advanceLoop (frames : List Frame) (s : Sandbox) (control : LoopControl) (body : List Command)
    (made : Nat) : Machine :=
  match control.advance s with
  | (.error fault, t) => ⟨.ended (.error fault), frames, t⟩
  | (.ok _, t) => ⟨.test control body made, frames, t⟩

/-- Goes on with what was put off last. A fault drops it, but leaves the scope if it is one. -/
def resume (frames : List Frame) (s : Sandbox) (outcome : Except Fault Flow) : Frame → Machine
  | .scope => ⟨.ended outcome, frames, s.leave⟩
  | .rest cs =>
    match outcome with
    | .ok .done => ⟨.row cs, frames, s⟩
    | _ => ⟨.ended outcome, frames, s⟩
  | .opening control body =>
    match outcome with
    | .error _ => ⟨.ended outcome, frames, s⟩
    | .ok _ => ⟨.test control body 0, frames, s.note (.armed control.guard.name control.place)⟩
  | .pass control body made =>
    match outcome with
    | .error _ => ⟨.ended outcome, frames, s⟩
    | .ok .leaveLoop =>
      ⟨.ended (.ok .done), frames, s.note (.released control.guard.name made)⟩
    | .ok _ => advanceLoop frames s control body made

/-- One step. A machine that has ended with nothing put off stops. -/
def step : Machine → Option Machine
  | ⟨.command c, frames, s⟩ => some (beginCommand frames s c)
  | ⟨.row cs, frames, s⟩ => some (beginRow frames s cs)
  | ⟨.chain c, frames, s⟩ => some (beginChain frames s c)
  | ⟨.test control body made, frames, s⟩ => some (testLoop frames s control body made)
  | ⟨.ended outcome, frame :: frames, s⟩ => some (resume frames s outcome frame)
  | ⟨.ended _, [], _⟩ => none

/-- Going from one machine to another, and the machines that take a step on the way. -/
inductive Steps : Machine → List Machine → Machine → Prop where
  | refl (m : Machine) : Steps m [] m
  | head {m m' m'' : Machine} {ms : List Machine} (h : m.step = some m')
    (hrest : Steps m' ms m'') : Steps m (m :: ms) m''

theorem Steps.trans {m m' m'' : Machine} {ms ms' : List Machine} (h : Steps m ms m')
    (h' : Steps m' ms' m'') : Steps m (ms ++ ms') m'' := by
  induction h with
  | refl m => exact h'
  | head hstep _ ih => exact .head hstep (ih h')

/-- A machine has one way to go, so if it comes to a stop, it has gone no further before. -/
theorem Steps.length_le {m stop m' : Machine} {ms ms' : List Machine} (h : Steps m ms stop)
    (hstop : stop.step = none) (h' : Steps m ms' m') : ms'.length ≤ ms.length := by
  induction h generalizing ms' with
  | refl m =>
    cases h' with
    | refl => exact Nat.le_refl 0
    | head hstep _ =>
      rw [hstop] at hstep
      cases hstep
  | head hstep _ ih =>
    cases h' with
    | refl => exact Nat.zero_le _
    | head hstep' hrest =>
      rw [hstep] at hstep'
      cases hstep'
      exact Nat.succ_le_succ (ih hstop hrest)

/-- So it comes to a stop in one way only. -/
theorem Steps.unique {m stop stop' : Machine} {ms ms' : List Machine} (h : Steps m ms stop)
    (hstop : stop.step = none) (h' : Steps m ms' stop') (hstop' : stop'.step = none) :
    ms = ms' ∧ stop = stop' := by
  induction h generalizing ms' with
  | refl m =>
    cases h' with
    | refl => exact ⟨rfl, rfl⟩
    | head hstep _ =>
      rw [hstop] at hstep
      cases hstep
  | @head m next _ ms hstep _ ih =>
    cases h' with
    | refl =>
      rw [hstop'] at hstep
      cases hstep
    | head hstep' hrest =>
      rw [hstep] at hstep'
      cases hstep'
      obtain ⟨hms, hend⟩ := ih hstop hrest
      exact ⟨congrArg (m :: ·) hms, hend⟩

/-- In finitely many steps a machine becomes another. -/
def Reaches (m m' : Machine) : Prop := ∃ ms, Steps m ms m'

variable {m m' m'' : Machine}

theorem Reaches.refl (m : Machine) : Reaches m m := ⟨[], .refl m⟩

theorem Reaches.trans (h : Reaches m m') (h' : Reaches m' m'') : Reaches m m'' := by
  obtain ⟨ms, hms⟩ := h
  obtain ⟨ms', hms'⟩ := h'
  exact ⟨ms ++ ms', hms.trans hms'⟩

theorem Reaches.head (h : m.step = some m') (hrest : Reaches m' m'') : Reaches m m'' := by
  obtain ⟨ms, hms⟩ := hrest
  exact ⟨m :: ms, .head h hms⟩

theorem Reaches.step (h : m.step = some m') : Reaches m m' := .head h (.refl m')

/-! ## Tasks and activities -/

/-- A task is an activity if a machine with this task, whatever it has put off, comes to the
activity's outcome and sandbox. -/
def Performs (task : Task) (x : Activity Flow) : Prop :=
  ∀ frames s, Reaches ⟨task, frames, s⟩ ⟨.ended (x s).1, frames, (x s).2⟩

/-- A row of commands in a scope of its own. -/
theorem Performs.inScope {cs : List Command} {x : Activity Flow} (h : Performs (.row cs) x)
    (frames : List Frame) (s : Sandbox) :
    Reaches ⟨.row cs, .scope :: frames, s.enter⟩
      ⟨.ended (inScope x s).1, frames, (inScope x s).2⟩ :=
  (h (.scope :: frames) s.enter).trans (.step rfl)

/-! ## Loops -/

/-- The end of a loop. -/
def release (control : LoopControl) (made : Nat) : Activity Flow := do
  change (·.note (.released control.guard.name made))
  return .done

/-- What is left of a loop that is about to test its condition. -/
def remaining (control : LoopControl) (x : Activity Flow) (left made : Nat) : Activity Flow := do
  release control (← control.passes x left made)

variable {control : LoopControl} {body : List Command} {x y : Activity Flow} {left made : Nat}

theorem remaining_zero : remaining control x 0 made = (do
    if ← control.holds then throw (.iterationLimit control.guard.name control.guard.limit)
    else release control made) := by
  rw [remaining, LoopControl.passes, bind_assoc]
  congr 1
  funext goesOn
  cases goesOn <;> rfl

theorem remaining_succ : remaining control x (left + 1) made = (do
    if ← control.holds then
      match ← inScope x with
      | .leaveLoop => release control (made + 1)
      | _ =>
        control.advance
        remaining control x left (made + 1)
    else release control made) := by
  rw [remaining, LoopControl.passes, bind_assoc]
  congr 1
  funext goesOn
  cases goesOn with
  | false => rfl
  | true =>
    simp only [if_true, bind_assoc]
    congr 1
    funext flow
    cases flow with
    | leaveLoop => rfl
    | done => exact bind_assoc _ _ _
    | nextPass => exact bind_assoc _ _ _

/-- Testing the condition, given what beginning a pass comes to. -/
theorem performs_test_of_pass
    (h : ∀ frames s, Reaches (beginPass frames s control body made)
      ⟨.ended (y s).1, frames, (y s).2⟩) :
    Performs (.test control body made)
      (do if ← control.holds then y else release control made) := by
  intro frames s
  have htest : Machine.step ⟨.test control body made, frames, s⟩
      = some (testLoop frames s control body made) := rfl
  refine .head htest ?_
  rw [testLoop, bind_apply]
  cases control.holds s with
  | mk outcome t =>
    cases outcome with
    | error fault => exact .refl _
    | ok goesOn =>
      cases goesOn with
      | false => exact .refl _
      | true => exact h frames t

/-- After a pass that has not left the loop comes the increment. -/
theorem step_pass {flow : Flow} (hflow : flow ≠ .leaveLoop) (frames : List Frame) (s : Sandbox) :
    Machine.step ⟨.ended (.ok flow), .pass control body made :: frames, s⟩
      = some (advanceLoop frames s control body made) := by
  cases flow with
  | leaveLoop => exact absurd rfl hflow
  | done => rfl
  | nextPass => rfl

/-- After a pass that has not left the loop. -/
theorem reaches_next (h : Performs (.test control body made) y) (flow : Flow)
    (hflow : flow ≠ .leaveLoop) (frames : List Frame) (s : Sandbox) :
    Reaches ⟨.ended (.ok flow), .pass control body made :: frames, s⟩
      ⟨.ended ((do control.advance; y : Activity Flow) s).1, frames,
        ((do control.advance; y : Activity Flow) s).2⟩ := by
  refine .head (step_pass hflow frames s) ?_
  rw [advanceLoop, bind_apply]
  cases control.advance s with
  | mk outcome t =>
    cases outcome with
    | error fault => exact .refl _
    | ok _ => exact h frames t

/-- **The passes of a loop**, by induction on how many may still begin. With those that have
begun they make up the limit. -/
theorem performs_test (hbody : Performs (.row body) x) (h : made + left = control.guard.limit) :
    Performs (.test control body made) (remaining control x left made) := by
  induction left generalizing made with
  | zero =>
    have hlimit : control.guard.limit < made + 1 := by omega
    rw [remaining_zero]
    refine performs_test_of_pass fun frames s => ?_
    rw [beginPass, if_pos hlimit]
    exact .refl _
  | succ left ih =>
    have hlimit : ¬ control.guard.limit < made + 1 := by omega
    have hnext : Performs (.test control body (made + 1)) (remaining control x left (made + 1)) :=
      ih (by omega)
    rw [remaining_succ]
    refine performs_test_of_pass fun frames s => ?_
    rw [beginPass, if_neg hlimit]
    refine (hbody.inScope (.pass control body (made + 1) :: frames) s).trans ?_
    rw [bind_apply]
    cases inScope x s with
    | mk outcome t =>
      cases outcome with
      | error fault => exact .step rfl
      | ok flow =>
        cases flow with
        | leaveLoop => exact .step rfl
        | done => exact reaches_next hnext .done nofun frames t
        | nextPass => exact reaches_next hnext .nextPass nofun frames t

/-- A loop that has been opened, in a scope of its own. -/
theorem reaches_opened (hbody : Performs (.row body) x) (flow : Flow) (frames : List Frame)
    (s : Sandbox) :
    Reaches ⟨.ended (.ok flow), .opening control body :: .scope :: frames, s⟩
      (match remaining control x control.guard.limit 0
          (s.note (.armed control.guard.name control.place)) with
        | (outcome, t) => ⟨.ended outcome, frames, t.leave⟩) := by
  have hpasses : Performs (.test control body 0) (remaining control x control.guard.limit 0) :=
    performs_test hbody (Nat.zero_add _)
  refine .head rfl ((hpasses (.scope :: frames) _).trans (.step ?_))
  rfl

/-- A loop whose opening has ended in a fault. -/
theorem reaches_unopened (fault : Fault) (frames : List Frame) (s : Sandbox) :
    Reaches ⟨.ended (.error fault), .opening control body :: .scope :: frames, s⟩
      ⟨.ended (.error fault), frames, s.leave⟩ :=
  .head rfl (.step rfl)

/-- A loop is its opening and, if no fault ends that, what is left of it then. -/
theorem run_loop_apply (control : LoopControl) (initial : Activity Unit) (x : Activity Flow)
    (s : Sandbox) :
    (do control.run initial x; return Flow.done : Activity Flow) s =
      match initial s.enter with
      | (.error fault, t) => (.error fault, t.leave)
      | (.ok _, t) =>
        match remaining control x control.guard.limit 0
            (t.note (.armed control.guard.name control.place)) with
        | (outcome, u) => (outcome, u.leave) := by
  rw [bind_apply, LoopControl.run, inScope, bind_apply]
  cases initial s.enter with
  | mk outcome t =>
    cases outcome with
    | error fault => rfl
    | ok _ =>
      simp only [bind_apply, remaining, change]
      cases control.passes x control.guard.limit 0
          (t.note (.armed control.guard.name control.place)) with
      | mk outcome u =>
        cases outcome with
        | error fault => rfl
        | ok made => rfl

end Machine

open Machine

/-! ## Commands -/

mutual

/-- **The machine does what running a command does.** -/
theorem Command.performs_run (c : Command) : Performs (.command c) c.run := by
  match c with
  | .declare place mutability name value => exact fun _ _ => .step rfl
  | .assign place name value => exact fun _ _ => .step rfl
  | .capture place arguments => exact fun _ _ => .step rfl
  | .choice place chain => exact fun frames s => .head rfl (chain.performs_run frames _)
  | .loop control none body =>
    have hbody := Command.performs_runAll body
    intro frames s
    have hrun : (Command.loop control none body).run s = _ :=
      run_loop_apply control (pure ()) (Command.runAll body) (s.moveTo control.place)
    rw [hrun]
    exact .head rfl (reaches_opened hbody .done frames _)
  | .loop control (some initial) body =>
    have hbody := Command.performs_runAll body
    have hopening := initial.performs_run
    intro frames s
    have hrun : (Command.loop control (some initial) body).run s = _ :=
      run_loop_apply control (do let _ ← initial.run) (Command.runAll body)
        (s.moveTo control.place)
    refine .head rfl ((hopening (.opening control body :: .scope :: frames) _).trans ?_)
    rw [hrun, bind_apply]
    cases initial.run (s.moveTo control.place).enter with
    | mk outcome t =>
      cases outcome with
      | error fault => exact reaches_unopened fault frames t
      | ok flow => exact reaches_opened hbody flow frames t
  | .breakLoop => exact fun _ _ => .step rfl
  | .continueLoop => exact fun _ _ => .step rfl
  | .eval place value => exact fun _ _ => .step rfl
termination_by structural c

/-- The same for a chain. -/
theorem CommandChain.performs_run (c : CommandChain) : Performs (.chain c) c.run := by
  match c with
  | .test condition body rest =>
    have hbody := Command.performs_runAll body
    have hrest := rest.performs_run
    intro frames s
    have htest : Machine.step ⟨.chain (.test condition body rest), frames, s⟩
        = some (beginChain frames s (.test condition body rest)) := rfl
    refine .head htest ?_
    rw [CommandChain.run, bind_apply, beginChain]
    cases evaluation condition.eval s with
    | mk outcome t =>
      cases outcome with
      | error fault => exact .refl _
      | ok v =>
        by_cases hholds : v.isTruthy = true
        · simp only [if_pos hholds]
          exact hbody.inScope frames t
        · simp only [if_neg hholds]
          exact hrest frames t
  | .otherwise body =>
    have hbody := Command.performs_runAll body
    exact fun frames s => .head rfl (hbody.inScope frames s)
  | .done => exact fun _ _ => .step rfl
termination_by structural c

/-- The same for a row of commands. -/
theorem Command.performs_runAll (cs : List Command) : Performs (.row cs) (Command.runAll cs) := by
  match cs with
  | [] => exact fun _ _ => .step rfl
  | c :: cs =>
    have hfirst := c.performs_run
    have hrest := Command.performs_runAll cs
    intro frames s
    refine .head rfl ((hfirst (.rest cs :: frames) s).trans ?_)
    rw [Command.runAll, bind_apply]
    cases c.run s with
    | mk outcome t =>
      cases outcome with
      | error fault => exact .step rfl
      | ok flow =>
        cases flow with
        | done => exact .head rfl (hrest frames t)
        | leaveLoop => exact .step rfl
        | nextPass => exact .step rfl
termination_by structural cs

end

/-! ## Scripts -/

/-- The machine that is about to run a script. -/
def Script.start (script : Script) (s : Sandbox) : Machine :=
  ⟨.row script.body, [], s.note (.executing script.body.length)⟩

/-- **The machine runs a script to its end**, after which it takes no step, and then a fault
gets its line. -/
theorem Sandbox.reaches_run (script : Script) (s : Sandbox) :
    ∃ ms t, Steps (script.start s) ms ⟨.ended (s.outcome script), [], t⟩
      ∧ s.run script = closed (s.outcome script, t) := by
  obtain ⟨ms, hms⟩ := Command.performs_runAll script.body [] (s.note (.executing script.body.length))
  exact ⟨ms, _, hms, run_eq script s⟩

end Lipi
