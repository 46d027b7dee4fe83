/-
What can go wrong while a script runs.

A fault carries what its text has to name. Whether it ends the run is not a matter
of the fault but of where it arises: in the arguments of a print it becomes a line
of the log, anywhere else the run ends with it.
-/

set_option autoImplicit false

namespace Lipi

/-- A failure while a script runs (`RuntimeFault`). -/
inductive Fault where
  /-- A name that no scope has was read or assigned to. -/
  | undefined (name : String)
  /-- A name was declared twice in one scope. -/
  | redeclared (name : String)
  /-- A constant was assigned to. -/
  | constant (name : String)
  /-- A loop was about to enter its body more often than its guard allows. -/
  | iterationLimit (guard : String) (limit : Nat)
deriving DecidableEq, Repr

namespace Fault

/-- The class of a fault (`class`). -/
def tag : Fault → String
  | undefined _ => "ReferenceError"
  | redeclared _ => "SyntaxError"
  | constant _ => "TypeError"
  | iterationLimit _ _ => "Error"

/-- A fault in words. -/
def message : Fault → String
  | undefined name => name ++ " is not defined"
  | redeclared name => "Identifier '" ++ name ++ "' has already been declared"
  | constant _ => "Assignment to constant variable."
  | iterationLimit _ limit =>
    "Loop iteration limit exceeded: more than " ++ toString limit ++ " iterations"

/-- The line of a log that a fault inside a print leaves. -/
def recoveredLine (f : Fault) : String := "Error: " ++ f.message

/-- The last line of a log whose run a fault has ended. -/
def fatalLine (f : Fault) : String := "Execution Error: " ++ f.tag ++ ": " ++ f.message

end Fault

end Lipi
