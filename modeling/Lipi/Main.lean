/-
The program.

This is the only file that touches the world: it reads a file or the standard
input when it is asked to, writes the two texts of an answer and ends with its
status. What to read, write and answer is decided in `CommandLine`.
-/
import Lipi.CommandLine

set_option autoImplicit false

namespace Lipi.CommandLine

/-- Whether an error code, of either sign, is that of a name that is too long. -/
def isLongName (code : UInt32) : Bool := code == 36 || 0 - code == 36

/-- Reads what a command line asks for. -/
def readOrigin (origin : Origin) : IO (Except ReadFailure String) := do
  try
    let bytes ← match origin with
      | .file path => IO.FS.readBinFile path
      | .standardInput => do (← IO.getStdin).readBinToEnd
    return decodeText bytes
  catch
    | .noFileOrDirectory _ _ _ => return .error .noSuchFile
    | .permissionDenied _ _ _ => return .error .permissionDenied
    | .inappropriateType _ 21 _ => return .error .isDirectory
    | .inappropriateType _ _ _ => return .error .notDirectory
    | .invalidArgument filename code details =>
      if isLongName code then return .error .nameTooLong
      else return .error (.other (toString (IO.Error.invalidArgument filename code details)))
    | e => return .error (.other (toString e))

end Lipi.CommandLine

/-- Answers the command line. -/
def main (arguments : List String) : IO UInt32 := do
  let response ← Lipi.CommandLine.respond Lipi.CommandLine.readOrigin arguments
  (← IO.getStdout).putStr response.output
  (← IO.getStderr).putStr response.errors
  return UInt32.ofNat response.status
