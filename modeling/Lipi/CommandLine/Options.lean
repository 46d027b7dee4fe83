/-
Making options of arguments.

Arguments are taken from the left and the first that is wrong ends the reading, as
does the first that asks for help or the version; only whether a file and a sample
exclude each other is looked at when all is read. An argument of two hyphens makes
every later one a file, and a single hyphen is a file too. Letters after one hyphen
are options of their own. A value may follow its option or be joined to it by an
equals sign; in the first case it must not look like an option.
-/
import Lipi.CommandLine.Answer

set_option autoImplicit false

namespace Lipi.CommandLine

/-- Why a command line is not to be carried out. -/
inductive Misuse where
  | unknown (argument : String)
  /-- An option that must not be repeated was. -/
  | repeated (option : String)
  /-- A value is joined to an option that takes none. -/
  | unwantedValue (option : String)
  | missingValue (option : String)
  | badNumber (text : String)
  | emptyFile
  /-- A second file. -/
  | tooMany (argument : String)
  /-- Both a file and a sample. -/
  | fileAndSample
deriving DecidableEq, Repr

/-- What ends the reading of a command line before its end. -/
inductive Stop where
  | help
  | version
  | misuse (m : Misuse)
deriving DecidableEq, Repr

/-- Why a command line is not carried out, in words. -/
def Misuse.text : Misuse → String
  | unknown argument => "unexpected argument '" ++ argument ++ "'"
  | repeated option => "the argument '" ++ option ++ "' cannot be used multiple times"
  | unwantedValue option => "unexpected value for '" ++ option ++ "'"
  | missingValue option => "a value is required for '" ++ option ++ "'"
  | badNumber text => "invalid value '" ++ text ++ "' for '--sample'"
  | emptyFile => "a value is required for '[FILE]'"
  | tooMany argument => "unexpected argument '" ++ argument ++ "'"
  | fileAndSample => "the argument '--sample' cannot be used with '[FILE]'"

namespace Options

/-- Nothing is asked for. -/
def none : Options := ⟨.none, false, false, .none, false, 0⟩

/-! ## Values -/

/-- The least number that takes more than 64 bits. -/
def numberCeiling : Nat := 0x10000000000000000

/-- Reads a number of at most 64 bits, perhaps with a plus sign. -/
def number? (text : List Char) : Option Nat :=
  let digits := match text with
    | '+' :: rest => rest
    | rest => rest
  if digits.isEmpty || !digits.all Char.isDigit then .none
  else
    let n := digits.foldl (fun n c => n * 10 + (c.toNat - '0'.toNat)) 0
    if n < numberCeiling then some n else .none

/-- Takes the value of the option that chooses a sample. -/
def withSample (o : Options) (text : String) : Except Stop Options :=
  match number? text.toList, o.sample with
  | .none, _ => .error (.misuse (.badNumber text))
  | some _, some _ => .error (.misuse (.repeated "--sample"))
  | some n, .none => .ok { o with sample := some n }

/-- Takes a file. -/
def withFile (o : Options) (path : String) : Except Stop Options :=
  match o.file with
  | some _ => .error (.misuse (.tooMany path))
  | .none => if path = "" then .error (.misuse .emptyFile) else .ok { o with file := some path }

/-! ## Options -/

/-- Takes an option that is either given or not. -/
def withFlag (o : Options) (name : String) : Except Stop Options :=
  if name = "--emit" then
    if o.emit then .error (.misuse (.repeated name)) else .ok { o with emit := true }
  else if name = "--tui" then
    if o.playground then .error (.misuse (.repeated name)) else .ok { o with playground := true }
  else if name = "--list-samples" then
    if o.listSamples then .error (.misuse (.repeated name)) else .ok { o with listSamples := true }
  else if name = "--verbose" then .ok { o with verbosity := o.verbosity + 1 }
  else if name = "--help" then .error .help
  else if name = "--version" then .error .version
  else .error (.misuse (.unknown name))

/-- The options that take no value. -/
def flags : List String :=
  ["--emit", "--tui", "--list-samples", "--verbose", "--help", "--version"]

/-- Takes an option with a value joined to it. -/
def withJoined (o : Options) (name value : String) : Except Stop Options :=
  if name = "--sample" then o.withSample value
  else if flags.contains name then .error (.misuse (.unwantedValue name))
  else .error (.misuse (.unknown name))

/-- Takes the letters after a single hyphen. -/
def withLetters (o : Options) : List Char → Except Stop Options
  | [] => .ok o
  | 'v' :: rest => withLetters { o with verbosity := o.verbosity + 1 } rest
  | 'h' :: _ => .error .help
  | 'V' :: _ => .error .version
  | c :: _ => .error (.misuse (.unknown (String.ofList ['-', c])))

/-! ## Command lines -/

/-- What an argument looks like. -/
inductive Shape where
  /-- Two hyphens and nothing else. -/
  | separator
  | long (name : String)
  | joined (name value : String)
  | letters (cs : List Char)
  | plain
deriving DecidableEq, Repr

/-- What an argument looks like. -/
def shape (argument : String) : Shape :=
  match argument.toList with
  | ['-', '-'] => .separator
  | '-' :: '-' :: rest =>
    let name := String.ofList ('-' :: '-' :: rest.takeWhile (· != '='))
    match rest.dropWhile (· != '=') with
    | [] => .long name
    | _ :: value => .joined name (String.ofList value)
  | '-' :: c :: rest => .letters (c :: rest)
  | _ => .plain

/-- Takes the files after two hyphens. -/
def withFiles (o : Options) : List String → Except Stop Options
  | [] => .ok o
  | path :: rest =>
    match o.withFile path with
    | .error stop => .error stop
    | .ok o => o.withFiles rest

/-- Takes arguments from the left. -/
def withArguments (o : Options) : List String → Except Stop Options
  | [] => .ok o
  | argument :: rest =>
    match shape argument with
    | .separator => o.withFiles rest
    | .plain =>
      match o.withFile argument with
      | .error stop => .error stop
      | .ok o => o.withArguments rest
    | .letters cs =>
      match o.withLetters cs with
      | .error stop => .error stop
      | .ok o => o.withArguments rest
    | .joined name value =>
      match o.withJoined name value with
      | .error stop => .error stop
      | .ok o => o.withArguments rest
    | .long name =>
      if name = "--sample" then
        match rest with
        | value :: rest =>
          if shape value = .plain then
            match o.withSample value with
            | .error stop => .error stop
            | .ok o => o.withArguments rest
          else .error (.misuse (.missingValue name))
        | [] => .error (.misuse (.missingValue name))
      else
        match o.withFlag name with
        | .error stop => .error stop
        | .ok o => o.withArguments rest

/-- Reads a command line. -/
def parse (arguments : List String) : Except Stop Options :=
  match none.withArguments arguments with
  | .error stop => .error stop
  | .ok o =>
    if o.file.isSome && o.sample.isSome then .error (.misuse .fileAndSample) else .ok o

end Options

end Lipi.CommandLine
