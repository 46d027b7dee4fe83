/-
Tokens: the words of the language.

A source text is a row of tokens with layout between them. Thirteen keywords are
reserved; three of them form the skeleton that frames every program. Operators
are spelled with signs or with words, and the three literal words for truth and
null are operators as well, because they too end where a longer word would
begin. `Token.lexeme` writes a token the way a source could, `Token.described` the
way a message names it.
-/
import Lipi.Decimal.Layout
import Lipi.Location
import Lipi.Text.Quoted

set_option autoImplicit false

namespace Lipi

/-! ## Keywords -/

/-- The reserved words (`Keyword`). -/
inductive Keyword where
  | start
  | main
  | finish
  | letDecl
  | constDecl
  | ifTest
  | elseIfTest
  | otherwise
  | forLoop
  | whileLoop
  | breakLoop
  | continueLoop
  | print
deriving DecidableEq, Repr, Inhabited

namespace Keyword

/-- Every keyword, the skeleton first. -/
def all : List Keyword :=
  [start, main, finish, letDecl, constDecl, ifTest, elseIfTest, otherwise, forLoop, whileLoop,
   breakLoop, continueLoop, print]

/-- How a keyword is spelled (`lexeme`). -/
def word : Keyword → String
  | start => "arambha"
  | main => "systummm"
  | finish => "bihari_sramik"
  | letDecl => "ghoshit_kar"
  | constDecl => "nishchit_kar"
  | ifTest => "yadi"
  | elseIfTest => "anyatha_yadi"
  | otherwise => "anyatha"
  | forLoop => "prati_ghatak"
  | whileLoop => "yatha"
  | breakLoop => "viram"
  | continueLoop => "agla_ghaatak"
  | print => "prakashit_kar"

/-- The keyword with a given spelling (`from_word`). -/
def ofWord? (w : String) : Option Keyword :=
  all.find? fun k => k.word == w

/-- The words that frame a program and stand nowhere else (`is_skeleton`). -/
def isSkeleton : Keyword → Bool
  | start | main | finish => true
  | _ => false

theorem mem_all (k : Keyword) : k ∈ all := by
  cases k <;> decide

theorem ofWord?_word (k : Keyword) : ofWord? k.word = some k := by
  cases k <;> decide

end Keyword

/-! ## Operators -/

/-- The operators, in signs and in words (`Operator`). -/
inductive Operator where
  | eqEq
  | notEq
  | le
  | ge
  | andAnd
  | wordAnd
  | wordOr
  | wordNot
  | wordTrue
  | wordFalse
  | wordNull
  | orOr
  | assign
  | lt
  | gt
  | plus
  | minus
  | star
  | slash
  | percent
  | bang
deriving DecidableEq, Repr, Inhabited

namespace Operator

/-- How an operator is spelled. `lexeme` finds it in `OPERATORS` and keeps a question mark
for one that is not listed; all are (`mem_lexicon`). -/
def spelling : Operator → String
  | eqEq => "=="
  | notEq => "!="
  | le => "<="
  | ge => ">="
  | andAnd => "&&"
  | wordAnd => "ca"
  | wordOr => "va"
  | wordNot => "na"
  | wordTrue => "satya"
  | wordFalse => "asatya"
  | wordNull => "chintan"
  | orOr => "||"
  | assign => "="
  | lt => "<"
  | gt => ">"
  | plus => "+"
  | minus => "-"
  | star => "*"
  | slash => "/"
  | percent => "%"
  | bang => "!"

/-- The operators spelled with letters (`is_word`). They end only where a word ends. -/
def isWord : Operator → Bool
  | wordAnd | wordOr | wordNot | wordTrue | wordFalse | wordNull => true
  | _ => false

/-- Every operator, in the order in which they are tried: the first that stands at a
place is the one that is read there (`OPERATORS`). -/
def lexicon : List Operator :=
  [eqEq, notEq, le, ge, andAnd, wordAnd, wordOr, wordNot, wordTrue, wordFalse, wordNull, orOr,
   assign, lt, gt, plus, minus, star, slash, percent, bang]

theorem mem_lexicon (o : Operator) : o ∈ lexicon := by
  cases o <;> decide

end Operator

/-! ## Symbols -/

/-- Grouping and punctuation (`Symbol`). -/
inductive Symbol where
  | openParen
  | closeParen
  | openBrace
  | closeBrace
  | comma
  | semicolon
deriving DecidableEq, Repr, Inhabited

namespace Symbol

/-- Every symbol. -/
def all : List Symbol := [openParen, closeParen, openBrace, closeBrace, comma, semicolon]

/-- The character of a symbol (`as_char`). -/
def char : Symbol → Char
  | openParen => '('
  | closeParen => ')'
  | openBrace => '\x7b'
  | closeBrace => '\x7d'
  | comma => ','
  | semicolon => ';'

/-- The symbol with a given character (`from_char`). -/
def ofChar? (c : Char) : Option Symbol :=
  all.find? fun s => s.char == c

theorem ofChar?_char (s : Symbol) : ofChar? s.char = some s := by
  cases s <;> decide

end Symbol

/-! ## Tokens -/

namespace Token

/-- What a token is, with the value of a literal (`TokenKind`). -/
inductive Kind where
  | keyword (k : Keyword)
  | identifier (name : String)
  | integer (n : Nat)
  | decimal (x : Float)
  | text (s : String)
  | operator (o : Operator)
  | symbol (s : Symbol)
deriving DecidableEq, Repr, Inhabited

/-- A kind as a source could spell it, a text in double quotes (`lexeme`). -/
def Kind.lexeme : Kind → String
  | keyword k => k.word
  | identifier name => name
  | integer n => toString n
  | decimal x => Decimal.positionalText x
  | text s => Text.quoted s
  | operator o => o.spelling
  | symbol s => String.singleton s.char

/-- A kind as a message names it. -/
def Kind.described (k : Kind) : String :=
  match k with
  | keyword _ => "keyword '" ++ k.lexeme ++ "'"
  | identifier _ => "identifier '" ++ k.lexeme ++ "'"
  | integer _ => "number " ++ k.lexeme
  | decimal _ => "float " ++ k.lexeme
  | text _ => "string " ++ k.lexeme
  | operator _ => "operator '" ++ k.lexeme ++ "'"
  | symbol _ => "symbol '" ++ k.lexeme ++ "'"

end Token

/-- A token and the place where it starts (`Token`). -/
structure Token where
  kind : Token.Kind
  location : Location
deriving DecidableEq, Repr, Inhabited

namespace Token

/-- A token as a source could spell it. -/
def lexeme (t : Token) : String := t.kind.lexeme

/-- A token as a message names it. -/
def described (t : Token) : String := t.kind.described

/-- Whether a token is a given keyword (`is_keyword`). -/
def isKeyword (t : Token) (k : Keyword) : Bool := t.kind == .keyword k

/-- Whether a token is a given operator (`is_operator`). -/
def isOperator (t : Token) (o : Operator) : Bool := t.kind == .operator o

/-- Whether a token is a given symbol (`is_symbol`). -/
def isSymbol (t : Token) (s : Symbol) : Bool := t.kind == .symbol s

/-- Whether a token is a keyword at all (`is_any_keyword`). -/
def isAnyKeyword (t : Token) : Bool :=
  match t.kind with
  | .keyword _ => true
  | _ => false

/-- The name that a token is, if it is one (`identifier`). -/
def name? (t : Token) : Option String :=
  match t.kind with
  | .identifier name => some name
  | _ => none

end Token

end Lipi
