/-
Scripts as they are shown.

A script is shown as lines of a curly-braced language, two blanks deeper in each
block, in which loops count their passes by hand: each is preceded by the
declaration of its counter, and its body opens with the test of the limit. A
listing is for reading only; nothing in this library runs one. Lines are the unit,
so every command answers with its lines, and the text ends each with a line feed.
-/
import Lipi.Expr.Listing
import Lipi.Script

set_option autoImplicit false

namespace Lipi

/-- A line of a listing at a depth. -/
def listingLine (depth : Nat) (text : String) : String :=
  String.ofList (List.replicate (2 * depth) ' ') ++ text

/-- An expression that need not be there. -/
def listedOrNothing : Option Expr → String
  | some e => e.listed
  | none => ""

/-- A declaration without its end. -/
def listedDeclaration (mutability : Mutability) (name : String) (value : Expr) : String :=
  mutability.keyword ++ " " ++ name ++ " = " ++ value.listed

/-- What a loop opens with, if it can stand in a header. -/
def listedOpening : Option Command → String
  | some (.declare _ mutability name value) => listedDeclaration mutability name value
  | some (.eval _ value) => value.listed
  | _ => ""

namespace LoopControl

/-- The line that opens a loop (`write_loop`). -/
def header (control : LoopControl) (initial : Option Command) : String :=
  match control.form with
  | .onCondition => "while (" ++ listedOrNothing control.condition ++ ") \x7b"
  | .counting =>
    "for (" ++ listedOpening initial ++ "; " ++ listedOrNothing control.condition ++ "; "
      ++ listedOrNothing control.increment ++ ") \x7b"

/-- The test of the limit. -/
def limitTest (guard : Guard) : String :=
  "if (++" ++ guard.name ++ " > " ++ toString guard.limit
    ++ ") throw new Error(\"Loop iteration limit exceeded: more than "
    ++ toString guard.limit ++ " iterations\");"

end LoopControl

mutual

/-- The lines of a command at a depth (`write_stmt`). -/
def Command.listing (depth : Nat) : Command → List String
  | .declare _ mutability name value =>
    [listingLine depth (listedDeclaration mutability name value ++ ";")]
  | .assign _ name value => [listingLine depth (name ++ " = " ++ value.listed ++ ";")]
  | .capture _ arguments =>
    [listingLine depth
      ("__capture(() => [" ++ ", ".intercalate (arguments.map Expr.listed) ++ "]);")]
  | .choice _ chain => chain.listing depth "if"
  | .loop control initial body =>
    listingLine depth ("let " ++ control.guard.name ++ " = 0;")
      :: listingLine depth (control.header initial)
      :: listingLine (depth + 1) (LoopControl.limitTest control.guard)
      :: (Command.listingAll (depth + 1) body ++ [listingLine depth "\x7d"])
  | .breakLoop => [listingLine depth "break;"]
  | .continueLoop => [listingLine depth "continue;"]
  | .eval _ value => [listingLine depth (value.listed ++ ";")]
termination_by structural c => c

/-- The lines of a chain at a depth, given what introduces its next test. -/
def CommandChain.listing (depth : Nat) : CommandChain → (word : String) → List String
  | .test condition body rest, word =>
    listingLine depth (word ++ " (" ++ condition.listed ++ ") \x7b")
      :: (Command.listingAll (depth + 1) body ++ rest.listing depth "\x7d else if")
  | .otherwise body, _ =>
    listingLine depth "\x7d else \x7b"
      :: (Command.listingAll (depth + 1) body ++ [listingLine depth "\x7d"])
  | .done, _ => [listingLine depth "\x7d"]
termination_by structural c => c

/-- The lines of a row of commands at a depth (`write_block`). -/
def Command.listingAll (depth : Nat) : List Command → List String
  | [] => []
  | c :: rest => c.listing depth ++ Command.listingAll depth rest
termination_by structural cs => cs

end

/-- The lines of a script. -/
def Script.listingLines (s : Script) : List String := Command.listingAll 0 s.body

/-- A script as it is shown. -/
def Script.listing (s : Script) : String :=
  String.join (s.listingLines.map (· ++ "\n"))

end Lipi
