/-
Pieces: what an expression is read from.

A slice of tokens becomes a row of pieces. Literals turn into their values, and
the three literal words among the operators with them; every run of other
operators is glued together and cut into signs, each at the place where the run
starts; the rest goes over one by one. A token that no expression can hold
becomes a stray piece, which keeps only its text, for the message that will
refuse it.
-/
import Lipi.Expr.Sign

set_option autoImplicit false

namespace Lipi

/-- What a piece is (`Piece`). -/
inductive Piece.Kind where
  | value (v : Value)
  | name (name : String)
  | sign (s : Sign)
  | openParen
  | closeParen
  | comma
  | stray (text : String)
deriving DecidableEq, Repr, Inhabited

/-- A piece and its place (`Lexeme`). -/
structure Piece where
  kind : Piece.Kind
  location : Location
deriving DecidableEq, Repr, Inhabited

namespace Piece

/-- A piece as a message names it (`describe`). -/
def Kind.described : Kind → String
  | value (.number x) => "number '" ++ Decimal.positionalText x ++ "'"
  | value (.text s) => "string " ++ Text.quoted s
  | value (.bool true) => "literal 'satya'"
  | value (.bool false) => "literal 'asatya'"
  | value .null => "literal 'chintan'"
  | name n => "identifier '" ++ n ++ "'"
  | sign s => "operator '" ++ s.spelling ++ "'"
  | openParen => "'('"
  | closeParen => "')'"
  | comma => "','"
  | stray text => "'" ++ text ++ "'"

/-- How an operator joins a run; the literal words do not join (`operator_spelling`). -/
def runSpelling? : Operator → Option String
  | .wordAnd => some "&&"
  | .wordOr => some "||"
  | .wordNot => some "!"
  | .wordTrue => none
  | .wordFalse => none
  | .wordNull => none
  | o => some o.spelling

/-- The spelling with which a token joins a run, if it does. -/
def joins? : Token.Kind → Option String
  | .operator o => runSpelling? o
  | _ => none

/-- The piece that a token outside a run becomes (`fuse`). -/
def ofKind : Token.Kind → Kind
  | .integer n => .value (.number (Decimal.toFloat false ⟨n, 0⟩))
  | .decimal x => .value (.number x)
  | .text s => .value (.text s)
  | .identifier name => .name name
  | .operator .wordTrue => .value (.bool true)
  | .operator .wordFalse => .value (.bool false)
  -- Null is the only operator left once the others have joined runs.
  | .operator _ => .value .null
  | .symbol .openParen => .openParen
  | .symbol .closeParen => .closeParen
  | .symbol .comma => .comma
  | .symbol s => .stray (Token.Kind.symbol s).lexeme
  | .keyword k => .stray (Token.Kind.keyword k).lexeme

end Piece

end Lipi
