/-
From source text to script, and on to a log.

Compiling reads the tokens, the program and the script, and stops at the first
stage that fails. It keeps a journal of how far it came, guards included, so the
journal of a failure is a beginning of that of a success. Whoever runs a source
text gets a log in any case: a source that does not compile is answered with one
line that says why.
-/
import Lipi.Program.Parser
import Lipi.Sandbox.Execution
import Lipi.Script.Lowering
import Lipi.Token.Scanner

set_option autoImplicit false

namespace Lipi

/-- Why a source text does not compile (`CompileError`). -/
inductive CompileError where
  | ofLex (e : LexError)
  | ofSyntax (e : SyntaxError)
deriving DecidableEq, Repr

namespace CompileError

/-- The class of an error. -/
def tag : CompileError → String
  | ofLex e => e.tag
  | ofSyntax e => e.tag

/-- An error as one line (`diagnostics`). -/
def diagnostics : CompileError → String
  | ofLex e => "Tokenization Error: " ++ e.message ++ " (" ++ e.context ++ ")"
  | ofSyntax e => "Parse Error: " ++ e.message ++ " (" ++ e.context ++ ")"

end CompileError

/-- What compiling a source text has come to, and how. -/
structure Compilation where
  outcome : Except CompileError Script
  journal : Journal

namespace Compilation

/-- The entries for a number of guards. -/
def guardEntries (made : Nat) : List Journal.Entry :=
  (List.range made).map fun n => .guarded (.numbered n)

/-- Compiles a source text. -/
def ofSource (source : String) : Compilation :=
  match tokenize source with
  | .error e => ⟨.error (.ofLex e), #[]⟩
  | .ok tokens =>
    let scanned : Journal := #[.tokenized source.length tokens.length]
    match Program.parse tokens with
    | .error e => ⟨.error (.ofSyntax e), scanned⟩
    | .ok program =>
      let parsed := scanned.push (.parsed program.body.length)
      match program.lower with
      | (.error e, made) => ⟨.error (.ofSyntax e), parsed ++ guardEntries made⟩
      | (.ok script, made) =>
        ⟨.ok script, (parsed ++ guardEntries made).push (.lowered script.guardNames.length)⟩

end Compilation

/-- The script of a source text (`compile`). -/
def compile (source : String) : Except CompileError Script :=
  (Compilation.ofSource source).outcome

/-- What running a source text leaves to be seen. -/
structure Report where
  log : String
  journal : Journal

/-- Compiles a source text and runs its script by itself. -/
def Report.ofSource (source : String) : Report :=
  let compilation := Compilation.ofSource source
  match compilation.outcome with
  | .error e => ⟨e.diagnostics, compilation.journal.push (.refused e.tag)⟩
  | .ok script =>
    let s := script.run
    ⟨s.log.text, compilation.journal ++ s.journal⟩

/-- The log of a source text (`run`). -/
def runSource (source : String) : String := (Report.ofSource source).log

end Lipi
