/-
What can be wrong with the structure of a program.

Everything between the tokens and a script that can be refused is refused with
one of these causes. A cause carries exactly what its message has to quote: the
token that was found, the name that was declared, how many semicolons there were.
The class of the error, its message and its context are functions of the cause,
each with one line per cause, so that no place that raises an error writes text
of its own. The location goes beside the cause.
-/
import Lipi.Expr.Piece

set_option autoImplicit false

namespace Lipi

/-! ## Limits -/

/-- How many blocks may be open at once, and how many groups, unary operators and
assignments within one expression (`MAX_NESTING_DEPTH`). -/
def nestingLimit : Nat := 64

/-- How high an expression tree may be (`MAX_EXPRESSION_DEPTH`). -/
def heightLimit : Nat := 512

namespace SyntaxError

/-! ## Causes -/

/-- What a demand for a particular token was made for; it decides the context. -/
inductive Purpose where
  | programStart
  | programMain
  | declaration (name : String)
  | plain
deriving DecidableEq, Repr

/-- The two constructs that must give a value after `=`. -/
inductive Construct where
  | declaration
  | assignment
deriving DecidableEq, Repr

/-- What went wrong (`ParseErrorKind`). -/
inductive Cause where
  /-- A particular token was demanded and another, or none, was found. -/
  | expected (kind : Token.Kind) (purpose : Purpose) (found : Option Token.Kind)
  /-- A name was demanded and something else, or nothing, was found. -/
  | expectedName (found : Option Token.Kind)
  /-- The last token, if there is one, is not the closing word. -/
  | missingFinish (last : Option Token.Kind)
  /-- A word of the skeleton stands inside the program. -/
  | repeatedSkeleton (k : Keyword)
  /-- A branch without a test before it. -/
  | strayBranch (k : Keyword)
  /-- Nothing after `=`. -/
  | missingValue (construct : Construct) (name : String)
  | unclosedPrint
  | emptyPrint
  /-- The parentheses after a loop's keyword do not balance. -/
  | unclosedLoopHeader
  /-- The parentheses after a branch's keyword do not balance. -/
  | unclosedTest (k : Keyword)
  /-- Nothing between the parentheses of a test. -/
  | emptyTest (k : Keyword)
  /-- A counting loop's header does not have two semicolons. -/
  | headerSemicolons (found : Nat)
  | blocksTooDeep
  /-- A block that opened at a place and is not closed. -/
  | unclosedBlock (opened : Location)
  /-- A loop's control word outside every loop. -/
  | outsideLoop (k : Keyword)
  /-- A counting loop declares something that is no name. -/
  | initialName
  /-- A counting loop declares a name without a value. -/
  | initialValue (name : String)
  /-- Operator characters that form no sign. -/
  | unknownSigns (run : String)
  /-- An operand was demanded at the end of the expression. -/
  | missingOperand
  /-- An operand was demanded and something else was found. -/
  | noOperand (found : Piece.Kind)
  /-- A piece after a complete expression. -/
  | leftover (found : Piece.Kind)
  | unclosedGroup
  /-- A step before something that is no name. -/
  | stepsNoName (s : Sign)
  /-- A step after something that is no name. -/
  | noNameSteps (s : Sign)
  /-- Too many groups, unary operators and assignments are open. -/
  | nestedTooDeep
  /-- The expression tree is too high. -/
  | treeTooHigh
deriving DecidableEq, Repr

namespace Cause

/-- The class of an error. -/
def tag : Cause → String
  | expected _ _ none => "UNEXPECTED_END_OF_INPUT"
  | expected _ _ (some _) => "UNEXPECTED_TOKEN"
  | expectedName _ => "MISSING_IDENTIFIER"
  | missingFinish _ => "MISSING_END_KEYWORD"
  | repeatedSkeleton _ => "MULTIPLE_DECLARATIONS"
  | strayBranch _ => "WRONG_SYNTAX"
  | missingValue _ _ => "MISSING_VALUE"
  | unclosedPrint => "MISSING_RIGHT_PAREN"
  | emptyPrint => "EMPTY_PRINT"
  | unclosedLoopHeader => "ConditionError"
  | unclosedTest _ => "ConditionError"
  | emptyTest _ => "ConditionError"
  | headerSemicolons _ => "SyntaxError"
  | blocksTooDeep => "WRONG_SYNTAX"
  | unclosedBlock _ => "MISSING_CLOSING_BRACE"
  | outsideLoop _ => "WRONG_SYNTAX"
  | initialName => "MISSING_IDENTIFIER"
  | initialValue _ => "MISSING_VALUE"
  | unknownSigns _ => "INVALID_EXPRESSION"
  | missingOperand => "INVALID_EXPRESSION"
  | noOperand _ => "INVALID_EXPRESSION"
  | leftover _ => "INVALID_EXPRESSION"
  | unclosedGroup => "INVALID_EXPRESSION"
  | stepsNoName _ => "INVALID_EXPRESSION"
  | noNameSteps _ => "INVALID_EXPRESSION"
  | nestedTooDeep => "INVALID_EXPRESSION"
  | treeTooHigh => "INVALID_EXPRESSION"

/-- A construct in words. -/
def constructName : Construct → String
  | .declaration => "declaration"
  | .assignment => "assignment"

/-- What went wrong, in words. -/
def message : Cause → String
  | expected kind _ none => "Expected " ++ kind.described ++ " but reached end of input"
  | expected kind _ (some found) =>
    "Expected " ++ kind.described ++ ", found " ++ found.described
  | expectedName none => "Expected an identifier"
  | expectedName (some found) => "Expected an identifier, found " ++ found.described
  | missingFinish _ => "Program must end with 'bihari_sramik' keyword"
  | repeatedSkeleton k => "Multiple declarations of '" ++ k.word ++ "' are not allowed"
  | strayBranch k => "Invalid syntax for '" ++ k.word ++ "'"
  | missingValue construct name =>
    "Expected value after '=' in " ++ constructName construct ++ " of '" ++ name ++ "'"
  | unclosedPrint => "Unmatched '(' in 'prakashit_kar' arguments"
  | emptyPrint => "Print statement cannot be empty"
  | unclosedLoopHeader => "Expression is not valid"
  | unclosedTest k => "Invalid '" ++ k.word ++ "' condition expression"
  | emptyTest _ => "Condition cannot be empty"
  | headerSemicolons _ => "Invalid 'prati_ghatak' loop syntax"
  | blocksTooDeep => "Blocks are nested too deeply"
  | unclosedBlock _ => "Expected '\x7d' at end of block"
  | outsideLoop k => "Invalid syntax for '" ++ k.word ++ "'"
  | initialName => "Expected an identifier in 'prati_ghatak' initializer"
  | initialValue name => "Expected value after '=' in declaration of '" ++ name ++ "'"
  | unknownSigns run => "Unknown operator sequence '" ++ run ++ "'"
  | missingOperand => "Unexpected end of expression"
  | noOperand found => "Unexpected " ++ found.described ++ " in expression"
  | leftover found => "Unexpected " ++ found.described ++ " in expression"
  | unclosedGroup => "Expected ')' to close the group"
  | stepsNoName s => "Invalid operand for prefix '" ++ s.spelling ++ "'"
  | noNameSteps s => "Invalid operand for postfix '" ++ s.spelling ++ "'"
  | nestedTooDeep => "Expression is nested too deeply"
  | treeTooHigh => "Expression is nested too deeply"

/-- The context of a demand that was not met. -/
def demandContext (kind : Token.Kind) (found : Option Token.Kind) : Purpose → String
  | .programStart => "Program must start with 'arambha' keyword"
  | .programMain => "Program must have 'systummm' keyword after 'arambha'"
  | .declaration name =>
    "Variable declaration '" ++ name ++ "' requires '=' assignment operator"
  | .plain =>
    match found with
    | none => "Parser was expecting " ++ kind.described
    | some found =>
      "Expected " ++ kind.described ++ " but found '" ++ found.lexeme ++ "' instead"

/-- What might help. -/
def context : Cause → String
  | expected kind purpose found => demandContext kind found purpose
  | expectedName _ => "Identifier expected for variable declaration"
  | missingFinish none => "Every program must be properly terminated with 'bihari_sramik'"
  | missingFinish (some last) =>
    "Program ends with " ++ last.described ++ " instead of 'bihari_sramik'"
  | repeatedSkeleton _ => "Only one declaration of each type is allowed in a program"
  | strayBranch _ => "Cannot use 'anyatha_yadi' or 'anyatha' without a 'yadi' block"
  | missingValue construct _ =>
    "Variable " ++ constructName construct ++ " requires a value after the assignment operator"
  | unclosedPrint => "Ensure all opening parentheses are properly closed"
  | emptyPrint => "Provide at least one expression inside 'prakashit_kar(...)'"
  | unclosedLoopHeader => "Ensure all opening parentheses and expressions are properly written"
  | unclosedTest _ => "Unmatched parentheses or malformed condition"
  | emptyTest k => "Provide at least one expression inside '" ++ k.word ++ "(...)'"
  | headerSemicolons found =>
    "Expected two semicolons separating init, condition, and increment, found " ++ toString found
  | blocksTooDeep =>
    "At most " ++ toString nestingLimit
      ++ " blocks may be open at once; move inner code into a separate loop or branch"
  | unclosedBlock opened =>
    "Check that the '\x7b' opened at line " ++ toString opened.line ++ ", column "
      ++ toString opened.column ++ " has a matching '\x7d'"
  | outsideLoop k => "'" ++ k.word ++ "' can only be used inside a loop body"
  | initialName => "Identifier expected for variable declaration"
  | initialValue _ =>
    "The 'prati_ghatak' initializer must be written as 'ghoshit_kar name = value'"
  | unknownSigns _ => "Operators written next to each other must form a valid operator"
  | missingOperand => "An operand is missing at the end of the expression"
  | noOperand _ => "Expected a value, a variable name or '('"
  | leftover _ =>
    "The expression continues past a complete value; check for a missing operator"
  | unclosedGroup => "Malformed expression"
  | stepsNoName _ => "Malformed expression"
  | noNameSteps _ => "Malformed expression"
  | nestedTooDeep =>
    "Groups and unary operators may be nested at most " ++ toString nestingLimit
      ++ " levels deep"
  | treeTooHigh =>
    "Expression trees may be at most " ++ toString heightLimit
      ++ " levels deep; split it over several statements"

end Cause

end SyntaxError

/-- A cause and its place (`ParseError`). -/
structure SyntaxError where
  cause : SyntaxError.Cause
  location : Location
deriving DecidableEq, Repr

namespace SyntaxError

/-- The class of an error. -/
def tag (e : SyntaxError) : String := e.cause.tag

/-- What went wrong, in words. -/
def message (e : SyntaxError) : String := e.cause.message

/-- What might help. -/
def context (e : SyntaxError) : String := e.cause.context

end SyntaxError

end Lipi
