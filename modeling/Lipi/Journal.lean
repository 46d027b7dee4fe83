/-
What is recorded about the work itself.

Beside the log that a script prints stands a journal that says how it was compiled
and run. Its entries are facts, not sentences: the words, the level of detail and
the channel of an entry are functions of the fact, so that whoever records
something writes down what happened and nothing else. Only an execution that a
fault has stopped is worth a warning.
-/
import Lipi.Fault
import Lipi.Script

set_option autoImplicit false

namespace Lipi

namespace Journal

/-- How much detail an entry is, the least first. -/
inductive Level where
  | warning
  | debug
  | trace
deriving DecidableEq, Repr

/-- The name of a level. -/
def Level.name : Level → String
  | warning => "WARN"
  | debug => "DEBUG"
  | trace => "TRACE"

/-- How far a level is from the warnings. -/
def Level.depth : Level → Nat
  | warning => 0
  | debug => 1
  | trace => 2

/-- Which part of the work an entry is about. -/
inductive Channel where
  | compilation
  | lowering
  | execution
  | loops
deriving DecidableEq, Repr

/-- The name under which a channel is shown. -/
def Channel.name : Channel → String
  | compilation => "vishwaguru::pipeline"
  | lowering => "vishwaguru::translator"
  | execution => "vishwaguru::interpreter::engine"
  | loops => "vishwaguru::interpreter::loops"

/-- Something that happened. -/
inductive Entry where
  | tokenized (characters tokens : Nat)
  | parsed (statements : Nat)
  | guarded (guard : Guard)
  | lowered (guards : Nat)
  /-- A source did not compile, for a reason of this class. -/
  | refused (tag : String)
  | executing (commands : Nat)
  /-- A loop is about to test its condition for the first time. -/
  | armed (guard : String) (place : Location)
  /-- A loop has ended, having entered its body this often. -/
  | released (guard : String) (passes : Nat)
  /-- A fault has ended an execution at a place. -/
  | stopped (place : Location) (fault : Fault)
deriving Repr

namespace Entry

/-- How much detail an entry is. -/
def level : Entry → Level
  | tokenized _ _ => .debug
  | parsed _ => .debug
  | guarded _ => .trace
  | lowered _ => .debug
  | refused _ => .debug
  | executing _ => .debug
  | armed _ _ => .trace
  | released _ _ => .trace
  | stopped _ _ => .warning

/-- Which part of the work an entry is about. -/
def channel : Entry → Channel
  | tokenized _ _ => .compilation
  | parsed _ => .compilation
  | guarded _ => .lowering
  | lowered _ => .compilation
  | refused _ => .compilation
  | executing _ => .execution
  | armed _ _ => .loops
  | released _ _ => .loops
  | stopped _ _ => .execution

/-- An entry in words. -/
def text : Entry → String
  | tokenized characters tokens =>
    "tokenized " ++ toString characters ++ " chars into " ++ toString tokens ++ " tokens"
  | parsed statements => "parsed " ++ toString statements ++ " top-level statements"
  | guarded guard =>
    "created loop guard " ++ guard.name ++ " (limit " ++ toString guard.limit ++ ")"
  | lowered guards => "translated script with " ++ toString guards ++ " loop guards"
  | refused tag => "compile failed: " ++ tag
  | executing commands => "executing " ++ toString commands ++ " top-level statements"
  | armed guard place => guard ++ " armed at line " ++ toString place.line
  | released guard passes => guard ++ " released after " ++ toString passes ++ " iterations"
  | stopped place fault =>
    "execution stopped at line " ++ toString place.line ++ ", column "
      ++ toString place.column ++ ": " ++ fault.message

/-- Whether an entry is a warning. -/
def isWarning (e : Entry) : Bool := e.level = .warning

end Entry

end Journal

/-- Entries, the oldest first. -/
abbrev Journal := Array Journal.Entry

/-- The warnings of a journal in words. -/
def Journal.warnings (j : Journal) : List String :=
  (j.toList.filter (·.isWarning)).map (·.text)

end Lipi
