/-
Why a text cannot be split into tokens.

Six things can go wrong while scanning, and each is a constructor that carries
what its message has to quote. The wording, the longer context and the tag that
names the class of the error are functions of the cause; the location is where
the offending text starts, not where the scanner gave up.
-/
import Lipi.Location

set_option autoImplicit false

namespace Lipi

namespace LexError

/-- What went wrong (`LexErrorKind`). The texts are what had been read of a number by
then. -/
inductive Cause where
  | openComment
  | openText (quote : Char)
  | secondPoint (read : String)
  | barePoint (read : String)
  | outOfRange (read : String)
  | unknownCharacter (c : Char)
deriving DecidableEq, Repr

/-- The class of an error. -/
def Cause.tag : Cause → String
  | openComment => "UNTERMINATED_COMMENT"
  | openText _ => "UNTERMINATED_STRING"
  | secondPoint _ => "INVALID_NUMBER_FORMAT"
  | barePoint _ => "INVALID_DECIMAL_FORMAT"
  | outOfRange _ => "INVALID_NUMBER_FORMAT"
  | unknownCharacter _ => "UNKNOWN_CHARACTER"

/-- What went wrong, in words. -/
def Cause.text : Cause → String
  | openComment => "Unterminated multi-line comment"
  | openText _ => "Unterminated string literal"
  | secondPoint _ => "Number contains multiple decimal points"
  | barePoint _ => "Decimal point must be followed by digits"
  | outOfRange _ => "Number literal is out of range"
  | unknownCharacter _ => "Encountered unknown character"

/-- The circumstances, with the offending text quoted. -/
def Cause.context : Cause → String
  | openComment => "Comment started with '/*' but never closed with '*/'"
  | openText quote => "String started with " ++ String.singleton quote ++ " but never closed"
  | secondPoint read =>
    "Invalid number '" ++ read ++ ".' - multiple decimal points not allowed"
  | barePoint read => "Number '" ++ read ++ ".' is incomplete"
  | outOfRange read => "Invalid number '" ++ read ++ "'"
  | unknownCharacter c =>
    "Character '" ++ String.singleton c ++ "' (code " ++ toString c.toNat ++ ") is not recognized"

end LexError

/-- A cause and its place (`LexError`). -/
structure LexError where
  cause : LexError.Cause
  location : Location
deriving DecidableEq, Repr

namespace LexError

/-- The class of an error. -/
def tag (e : LexError) : String := e.cause.tag

/-- The message, with line and column. -/
def message (e : LexError) : String :=
  e.cause.text ++ " at line " ++ toString e.location.line ++ ", column "
    ++ toString e.location.column

/-- The circumstances. -/
def context (e : LexError) : String := e.cause.context

end LexError

end Lipi
