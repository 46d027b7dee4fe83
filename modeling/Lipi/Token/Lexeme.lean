/-
The lexeme at the front of a text.

Once layout is out of the way, the first character decides what is read: a quote
opens a text, a digit (or a point before a digit) a number; then the operators
are tried in the order of the lexicon, then the symbols, and a letter or an
underscore begins a word, which is a keyword if it is spelled like one. Nothing
here knows where the text stands in the source. A lexeme says how many
characters it covers, at least one; a failure says how far from the front the
offending place lies and how far the scanner had read.
-/
import Lipi.Decimal.Numeral
import Lipi.Token
import Lipi.Token.Error

set_option autoImplicit false

namespace Lipi

/-- A token's kind and the number of characters it covers. -/
structure Lexeme where
  kind : Token.Kind
  length : Nat
  length_pos : 0 < length

namespace Lexeme

/-- A failure to read a lexeme: the cause, the distance of the place it is
reported at, and the distance that had been read. -/
structure Failure where
  cause : LexError.Cause
  place : Nat
  reach : Nat
deriving DecidableEq, Repr

/-- The characters that continue a word (`is_identifier_char`). -/
def isWordChar (c : Char) : Bool := c.isAlphanum || c == '_'

theorem isWordChar_of_isAlpha {c : Char} (h : c.isAlpha = true ∨ c = '_') :
    isWordChar c = true := by
  rcases h with h | rfl
  · rw [isWordChar, Char.isAlphanum, h]
    rfl
  · rfl

theorem isWordChar_of_isDigit {c : Char} (h : c.isDigit = true) : isWordChar c = true := by
  rw [isWordChar, Char.isAlphanum, h, Bool.or_true, Bool.true_or]

/-! ## Texts -/

/-- What a character stands for after a backslash. -/
def unescaped : Char → Char
  | 'n' => '\n'
  | 't' => '\t'
  | 'r' => '\r'
  | c => c

/-- Reads a text up to its closing quote (`string_literal`). The characters read so far
are handed on in reverse, with the number of source characters they took. -/
def textBody? (quote : Char) : List Char → List Char → Nat → Option (List Char × Nat)
  | [], _, _ => none
  | '\\' :: c :: rest, read, length => textBody? quote rest (unescaped c :: read) (length + 2)
  | c :: rest, read, length =>
    if c = quote then some (read.reverse, length + 1)
    else textBody? quote rest (c :: read) (length + 1)

/-- Reads a quoted text whose opening quote has been seen (`string_literal`). -/
def ofQuoted (quote : Char) (rest : List Char) : Except Failure Lexeme :=
  match textBody? quote rest [] 0 with
  | some (text, n) => .ok ⟨.text (String.ofList text), n + 1, Nat.succ_pos n⟩
  | none => .error ⟨.openText quote, 0, rest.length + 1⟩

/-! ## Numbers -/

/-- The greatest whole number that can be written without a point. -/
def integerLimit : Nat := 0x7FFFFFFFFFFFFFFF

/-- Whether a text goes on with a digit. -/
def startsWithDigit : List Char → Bool
  | c :: _ => c.isDigit
  | [] => false

/-- Reads a number: digits, and at most one point, which a digit must follow
(`number_literal`). -/
def ofNumber (text : List Char) : Except Failure Lexeme :=
  let whole := text.takeWhile Char.isDigit
  let read := whole.length
  match text.drop read with
  | '.' :: rest =>
    let fraction := rest.takeWhile Char.isDigit
    let length := read + 1 + fraction.length
    if fraction = [] then
      .error ⟨.barePoint (String.ofList whole), read, read⟩
    else if (rest.drop fraction.length).head? = some '.' then
      .error ⟨.secondPoint (String.ofList (whole ++ '.' :: fraction)), 0, length⟩
    else
      .ok ⟨.decimal (Numeral.toFloat ⟨false, whole, fraction, 0⟩), length,
        Nat.add_pos_left (Nat.succ_pos read) _⟩
  | _ =>
    let n := Decimal.ofDigits whole
    if h : 0 < read ∧ n ≤ integerLimit then .ok ⟨.integer n, read, h.1⟩
    else .error ⟨.outOfRange (String.ofList whole), 0, read⟩

/-! ## Operators and words -/

/-- Whether an operator stands at the front of a text (`match_operator`). One spelled
with letters does so only where its word ends. -/
def operatorStands (text : List Char) (o : Operator) : Bool :=
  let spelling := o.spelling.toList
  spelling.isPrefixOf text
    && !(o.isWord && (text.drop spelling.length).head?.any isWordChar)

/-- The operator that is read at the front of a text (`match_operator`). -/
def operator? (text : List Char) : Option Operator :=
  Operator.lexicon.find? (operatorStands text)

/-- What a word is (`identifier_or_keyword`). -/
def wordKind (word : String) : Token.Kind :=
  match Keyword.ofWord? word with
  | some k => .keyword k
  | none => .identifier word

theorem spelling_length_pos (o : Operator) : 0 < o.spelling.toList.length := by
  cases o <;> decide

/-! ## All together -/

/-- Reads the lexeme at the front of a text (`next_token`). Only the empty text has none
(`front_eq_none_iff`), and the scanner looks for the end before it asks: the error that is
kept for that case is never met, and has no counterpart here. -/
def front : List Char → Option (Except Failure Lexeme)
  | [] => none
  | c :: rest => some <|
    if c = '"' ∨ c = '\'' then ofQuoted c rest
    else if c.isDigit ∨ (c = '.' ∧ startsWithDigit rest) then ofNumber (c :: rest)
    else
      match operator? (c :: rest) with
      | some o => .ok ⟨.operator o, o.spelling.toList.length, spelling_length_pos o⟩
      | none =>
        match Symbol.ofChar? c with
        | some s => .ok ⟨.symbol s, 1, Nat.one_pos⟩
        | none =>
          if c.isAlpha ∨ c = '_' then
            let tail := rest.takeWhile isWordChar
            .ok ⟨wordKind (String.ofList (c :: tail)), tail.length + 1, Nat.succ_pos _⟩
          else .error ⟨.unknownCharacter c, 0, 0⟩

end Lexeme

end Lipi
