/-
The command line.

What `CommandLine.Answer` leaves open is settled here: how arguments are made options of, how
the entries of a journal are written and how an error is reported. There is no terminal for a
playground. Nothing that is proved of an answer depends on any of this.
-/
import Lipi.CommandLine.Options

set_option autoImplicit false

namespace Lipi.CommandLine

/-! ## Answers without options -/

/-- The name of the program and its version. -/
def versionText : String := "vishwaguru 0.1.0\n"

/-- How the program is used. -/
def usageText : String :=
  "Usage: vishwaguru [OPTIONS] [FILE]\n\n" ++
  "Arguments:\n" ++
  "  [FILE]  Script to run. Reads stdin when omitted\n\n" ++
  "Options:\n" ++
  "      --emit          Print the translated listing instead of running the script\n" ++
  "      --tui           Open the terminal playground\n" ++
  "      --sample <N>    Use the N-th built-in sample as the source (see --list-samples)\n" ++
  "      --list-samples  List the built-in samples and exit\n" ++
  "  -v, --verbose...    Log pipeline stages to stderr. Repeat for more detail\n" ++
  "  -h, --help          Print help\n" ++
  "  -V, --version       Print version\n"

/-- The answer to a command line that asks for something else, or wrongly. -/
def stopped : Stop → Response
  | .help => ⟨usageText, "", 0⟩
  | .version => ⟨versionText, "", 0⟩
  | .misuse m =>
    ⟨"", "error: " ++ m.text ++ "\n\nFor more information, try '--help'.\n", 2⟩

/-! ## What is written to the error text -/

/-- The line of an entry of the journal. -/
def entryLine (e : Journal.Entry) : String :=
  "[" ++ String.ofList (Text.padRight 5 e.level.name.toList) ++ " " ++ e.channel.name ++ "] "
    ++ e.text ++ "\n"

/-- The entries of a journal up to a level, the warnings if there is none. -/
def entriesText (level? : Option Journal.Level) (journal : Journal) : String :=
  let level := level?.getD .warning
  String.join ((journal.toList.filter (·.level.depth ≤ level.depth)).map entryLine)

/-- An error and its causes. -/
def errorText : List String → String
  | [] => "Error: \n"
  | [reason] => "Error: " ++ reason ++ "\n"
  | reason :: causes =>
    "Error: " ++ reason ++ "\n\nCaused by:\n"
      ++ String.join (causes.map fun cause => "    " ++ cause ++ "\n")

/-! ## The program -/

/-- What this program is built on. -/
def platform : Platform where
  parse arguments := (Options.parse arguments).mapError stopped
  play _ := ⟨"", errorText ["The playground needs a terminal"], 1⟩
  logged := entriesText
  reported := errorText

/-- Answers a command line. -/
def respond {m : Type → Type} [Monad m] (read : Origin → m (Except ReadFailure String))
    (arguments : List String) : m Response :=
  platform.respond read arguments

end Lipi.CommandLine
