/-
Running scripts.

A command ends in a fault or in one of three ways: it is done, it leaves the loop
around it, or it goes on to that loop's next pass. Blocks have scopes of their own,
and so do loops, with one scope around the whole loop for what it opens with and
another around each pass of its body. The guard of a loop is not a name: it is the
number of passes that may still begin, counted down by the recursion that runs the
loop, which is why running a script needs no other bound and every run ends.

The place of the sandbox follows the commands. A loop returns to its own place
before it tests its condition and before it takes its increment, so a fault in
either is reported at the loop and not at the last command of its body.
-/
import Lipi.Sandbox

set_option autoImplicit false

namespace Lipi

/-- How a command ends when no fault ends it (`ControlFlow`). -/
inductive Flow where
  | done
  | leaveLoop
  | nextPass
deriving DecidableEq, Repr, Inhabited

namespace LoopControl

open Activity

/-- Evaluates one of a loop's own expressions, at the place of the loop. -/
def evalOwn (control : LoopControl) (e : Expr) : Activity Value := do
  change (·.moveTo control.place)
  evaluation e.eval

/-- Whether a loop goes on (`drive_loop`). -/
def holds (control : LoopControl) : Activity Bool :=
  match control.condition with
  | none => return true
  | some condition => return (← control.evalOwn condition).isTruthy

/-- What happens between two passes (`drive_loop`). -/
def advance (control : LoopControl) : Activity Unit :=
  match control.increment with
  | none => return ()
  | some increment => do
    let _ ← control.evalOwn increment

/-- Runs the passes of a loop whose body is given, when `left` more may begin and `made`
have begun (`drive_loop`). Answers with how many have begun in the end. -/
def passes (control : LoopControl) (body : Activity Flow) : (left made : Nat) → Activity Nat
  | left, made => do
    if ← control.holds then
      match left with
      | 0 => throw (.iterationLimit control.guard.name control.guard.limit)
      | left + 1 =>
        match ← inScope body with
        | .leaveLoop => return made + 1
        | _ =>
          control.advance
          passes control body left (made + 1)
    else return made

/-- Runs a loop, given what it opens with and its body (`execute_loop`). -/
def run (control : LoopControl) (initial : Activity Unit) (body : Activity Flow) : Activity Unit :=
  inScope do
    initial
    change (·.note (.armed control.guard.name control.place))
    let made ← control.passes body control.guard.limit 0
    change (·.note (.released control.guard.name made))

end LoopControl

open Activity

mutual

/-- Runs a command (`execute_statement`). -/
def Command.run : Command → Activity Flow
  | .declare place mutability name value => do
    change (·.moveTo place)
    let value ← evaluation value.eval
    declare name ⟨value, mutability⟩
    return .done
  | .assign place name value => do
    change (·.moveTo place)
    let value ← evaluation value.eval
    evaluation (Evaluation.store name value)
    return .done
  | .capture place arguments => do
    change (·.moveTo place)
    let values ← outcome (evaluation (Expr.evalAll arguments))
    change (·.print (OutputLog.captureLine values))
    return .done
  | .choice place chain => do
    change (·.moveTo place)
    chain.run
  | .loop control initial body => do
    change (·.moveTo control.place)
    control.run
      (match initial with
        | none => return ()
        | some command => do let _ ← command.run)
      (Command.runAll body)
    return .done
  | .breakLoop => return .leaveLoop
  | .continueLoop => return .nextPass
  | .eval place value => do
    change (·.moveTo place)
    let _ ← evaluation value.eval
    return .done
termination_by structural c => c

/-- Runs the block of the first test that holds. -/
def CommandChain.run : CommandChain → Activity Flow
  | .test condition body rest => do
    if (← evaluation condition.eval).isTruthy then inScope (Command.runAll body)
    else rest.run
  | .otherwise body => inScope (Command.runAll body)
  | .done => return .done
termination_by structural c => c

/-- Runs a row of commands until one is not simply done (`execute_statements`). -/
def Command.runAll : List Command → Activity Flow
  | [] => return .done
  | c :: rest => do
    match ← c.run with
    | .done => Command.runAll rest
    | flow => return flow
termination_by structural cs => cs

end

namespace Sandbox

/-- Runs a script. A fault that no print has caught ends the run with a line of its
own. -/
def run (script : Script) (s : Sandbox) : Sandbox :=
  match Command.runAll script.body (s.note (.executing script.body.length)) with
  | (.ok _, s) => s
  | (.error fault, s) => (s.note (.stopped s.place fault)).print fault.fatalLine

end Sandbox

/-- The sandbox after a script has run by itself (`execute`). -/
def Script.run (script : Script) : Sandbox := Sandbox.fresh.run script

end Lipi
