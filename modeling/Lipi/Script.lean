/-
Scripts: programs that are ready to run.

A script has the shape of the program it came from, with every slice of tokens
read as an expression and every loop under a guard. A guard has a name, which only
the listing and the faults it raises show, and a limit on how often one run of the
loop may enter the body. A counting loop and a loop on a condition are one thing
here: an opening command that may be missing, a condition that may be missing, an
increment that may be missing, and a body; what the loop was written as is kept
for the listing alone.
-/
import Lipi.Expr
import Lipi.Location
import Lipi.Mutability

set_option autoImplicit false

namespace Lipi

/-! ## Guards -/

/-- What keeps a loop from running forever (`LoopGuard`). -/
structure Guard where
  name : String
  limit : Nat
deriving DecidableEq, Repr

namespace Guard

/-- How often one run of a loop may enter its body (`LOOP_ITERATION_LIMIT`). -/
def usualLimit : Nat := 10000

/-- The guard that is made after `n` others. -/
def numbered (n : Nat) : Guard := ⟨"__loop_guard_" ++ toString n, usualLimit⟩

end Guard

/-! ## Commands -/

/-- What a loop was written as (`LoopKind`). -/
inductive LoopForm where
  | onCondition
  | counting
deriving DecidableEq, Repr

/-- What decides whether a loop goes on (`GuardedLoop`). A missing condition always
holds, and a missing increment does nothing. -/
structure LoopControl where
  place : Location
  form : LoopForm
  guard : Guard
  condition : Option Expr
  increment : Option Expr
deriving DecidableEq, Repr

mutual

/-- A statement with its expressions (`Stmt`). The two that leave a pass of a loop need no
place, for nothing can go wrong in them. -/
inductive Command where
  | declare (place : Location) (mutability : Mutability) (name : String) (value : Expr)
  | assign (place : Location) (name : String) (value : Expr)
  | capture (place : Location) (arguments : List Expr)
  | choice (place : Location) (chain : CommandChain)
  | loop (control : LoopControl) (initial : Option Command) (body : List Command)
  | breakLoop
  | continueLoop
  | eval (place : Location) (value : Expr)

/-- Tests with their blocks, and what is left when none holds (`ScriptBranch`). -/
inductive CommandChain where
  | test (condition : Expr) (body : List Command) (rest : CommandChain)
  | otherwise (body : List Command)
  | done

end

instance : Inhabited Command := ⟨.breakLoop⟩

/-- A program that is ready to run (`Script`). -/
structure Script where
  body : List Command

/-- Where a command begins, if it matters (`location`). -/
def Command.place? : Command → Option Location
  | declare place _ _ _ => some place
  | assign place _ _ => some place
  | capture place _ => some place
  | choice place _ => some place
  | loop control _ _ => some control.place
  | breakLoop => none
  | continueLoop => none
  | eval place _ => some place

/-! ## The guards of a script -/

mutual

/-- The guards of a command's loops in the order the loops begin (`collect_guards`).
What a loop opens with is a single command and has no part in this. -/
def Command.guards : Command → List Guard
  | .choice _ chain => chain.guards
  | .loop control _ body => control.guard :: Command.guardsOfAll body
  | .declare _ _ _ _ => []
  | .assign _ _ _ => []
  | .capture _ _ => []
  | .breakLoop => []
  | .continueLoop => []
  | .eval _ _ => []
termination_by structural c => c

/-- The guards in the blocks of a chain. -/
def CommandChain.guards : CommandChain → List Guard
  | .test _ body rest => Command.guardsOfAll body ++ rest.guards
  | .otherwise body => Command.guardsOfAll body
  | .done => []
termination_by structural c => c

/-- The guards of a row of commands. -/
def Command.guardsOfAll : List Command → List Guard
  | [] => []
  | c :: rest => c.guards ++ Command.guardsOfAll rest
termination_by structural cs => cs

end

/-- The names of a script's guards (`guard_names`). -/
def Script.guardNames (s : Script) : List String :=
  (Command.guardsOfAll s.body).map (·.name)

end Lipi
