/-
What a command line is answered with.

A command line is answered with two texts and an exit status. What it takes from
the world is a single text, from a file or from the standard input, and `respond`
asks for it through whatever can read one; the rest is a function. A source that
compiles is run, or listed, and that is a success whatever the script does; one that
does not compile is answered with its diagnostics and a failure.

Four things are left to the libraries that a program like this is built on
(`Platform`): making options of the arguments, opening a playground on a terminal,
writing down what the journal holds, and reporting an error that ends the program.
Nothing is known of them here.
-/
import Lipi.Playground
import Lipi.Text.Padding

set_option autoImplicit false

namespace Lipi.CommandLine

/-- What a command line asks for (`Cli`). -/
structure Options where
  file : Option String
  emit : Bool
  playground : Bool
  sample : Option Nat
  listSamples : Bool
  verbosity : Nat
deriving DecidableEq, Repr

/-- What a command line is answered with. -/
structure Response where
  output : String
  errors : String
  status : Nat
deriving DecidableEq, Repr

/-- What the program is built on. -/
structure Platform where
  /-- The options that arguments stand for, or the answer that ends the program before it has
  begun. -/
  parse : List String → Except Response Options
  /-- What using a playground on the terminal comes to (`run_playground`). -/
  play : Playground → Response
  /-- What is written of a journal by a logger that is set to a level, or to none. -/
  logged : Option Journal.Level → Journal → String
  /-- How an error that ends the program is written, given what was being done and then why that
  failed. -/
  reported : List String → String

/-- Where a source text is to be read. -/
inductive Origin where
  | file (path : String)
  | standardInput
deriving DecidableEq, Repr

/-- Why a text could not be read. -/
inductive ReadFailure where
  | noSuchFile
  | permissionDenied
  | notDirectory
  | isDirectory
  | nameTooLong
  | notText
  | other (reason : String)
deriving DecidableEq, Repr

/-- Why a text could not be read, in words. -/
def ReadFailure.text : ReadFailure → String
  | noSuchFile => "No such file or directory (os error 2)"
  | permissionDenied => "Permission denied (os error 13)"
  | notDirectory => "Not a directory (os error 20)"
  | isDirectory => "Is a directory (os error 21)"
  | nameTooLong => "File name too long (os error 36)"
  | notText => "stream did not contain valid UTF-8"
  | other reason => reason

/-- Bytes as a text, if they are one (`read_to_string`). -/
def decodeText (bytes : ByteArray) : Except ReadFailure String :=
  match String.fromUTF8? bytes with
  | some text => .ok text
  | none => .error .notText

/-- The name of an origin. -/
def Origin.name : Origin → String
  | file path => path
  | standardInput => "stdin"

/-! ## The gallery -/

/-- The line of the gallery for a sample and its number. -/
def galleryLine (number : Nat) (s : Sample) : String :=
  String.ofList (Text.padLeft 2 (toString number).toList) ++ ". "
    ++ String.ofList (Text.padRight 22 s.title.toList) ++ " " ++ s.description ++ "\n"

/-- The gallery of samples (`main`). -/
def galleryText : String := String.join (Sample.all.mapIdx fun i s => galleryLine (i + 1) s)

/-- A log as it is put out: nothing if it is the empty text. -/
def outputOfLog (text : String) : String := if text = "" then "" else text ++ "\n"

/-- The level that the logger is set to, if it is (`init_logging`). -/
def Options.level? (o : Options) : Option Journal.Level :=
  match o.verbosity with
  | 0 => none
  | 1 => some .debug
  | _ => some .trace

namespace Platform

/-! ## Failures -/

/-- The answer to a command line that could not be carried out. -/
def failure (platform : Platform) (causes : List String) : Response :=
  ⟨"", platform.reported causes, 1⟩

/-- The answer when a text could not be read. -/
def unreadable (platform : Platform) (origin : Origin) (f : ReadFailure) : Response :=
  platform.failure ["Reading " ++ origin.name, f.text]

/-- The answer when no sample has the number that was asked for (`sample_index`). -/
def noSample (platform : Platform) (number : Nat) : Response :=
  platform.failure
    ["No sample " ++ toString number ++ "; choose 1 to " ++ toString Sample.all.length]

/-! ## Running and listing -/

/-- Answers with the log of a source text, or with its listing. -/
def answer (platform : Platform) (o : Options) (source : String) : Response :=
  let compilation := Compilation.ofSource source
  match compilation.outcome with
  | .error e => ⟨e.diagnostics ++ "\n", platform.logged o.level? compilation.journal, 1⟩
  | .ok script =>
    if o.emit then ⟨script.listing, platform.logged o.level? compilation.journal, 0⟩
    else
      let s := script.run
      ⟨outputOfLog s.log.text, platform.logged o.level? (compilation.journal ++ s.journal), 0⟩

section Reading

variable {m : Type → Type} [Monad m] (platform : Platform)
  (read : Origin → m (Except ReadFailure String))

/-- Reads a text and answers with it, unless it cannot be read (`read_file`). -/
def withText (origin : Origin) (answer : String → Response) : m Response := do
  match ← read origin with
  | .error f => return platform.unreadable origin f
  | .ok source => return answer source

/-- Opens the playground with a text, or with a sample, the first if none is chosen. -/
def openPlayground (o : Options) : m Response :=
  match o.file, o.sample with
  | some path, _ =>
    platform.withText read (.file path) fun source => platform.play (.ofSource path source)
  | none, some n =>
    match Sample.numbered? n with
    | some _ => return platform.play (.ofSample (n - 1))
    | none => return platform.noSample n
  | none, none => return platform.play (.ofSample 0)

/-- Carries out a command line whose options are known (`main`). -/
def carryOut (o : Options) : m Response :=
  if o.listSamples then return ⟨galleryText, "", 0⟩
  else if o.playground then platform.openPlayground read o
  else
    match o.file, o.sample with
    | some path, _ => platform.withText read (.file path) (platform.answer o)
    | none, some n =>
      match Sample.numbered? n with
      | some sample => return platform.answer o sample.source
      | none => return platform.noSample n
    | none, none => platform.withText read .standardInput (platform.answer o)

/-- Answers a command line. -/
def respond (arguments : List String) : m Response :=
  match platform.parse arguments with
  | .error response => return response
  | .ok o => platform.carryOut read o

end Reading

end Platform

end Lipi.CommandLine
