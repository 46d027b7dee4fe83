/-
Numerals: decimal numbers as people type them.

A numeral is an optional sign, digits with at most one point among them (before,
inside or after, but at least one digit), and optionally `e` or `E` with a power
of ten that may have a sign of its own. `Numeral.read?` takes a whole text apart
by that grammar and refuses everything else; the value is then the nearest double
of the decimal it spells. A power of ten that has passed what any double can hold
by far is not read on: its remaining digits are skipped.

The doubles that are no decimals have words of their own, which may be written in
letters of either case (`Numeral.readDouble?`).
-/
import Lipi.Decimal
import Lipi.Decimal.Digits

set_option autoImplicit false

namespace Lipi

/-- The parts of a numeral: digits before and after the point, and the power of
ten. -/
structure Numeral where
  negative : Bool
  whole : List Char
  fraction : List Char
  power : Int
deriving DecidableEq, Repr

namespace Numeral

/-- The decimal a numeral spells, without its sign. -/
def decimal (n : Numeral) : Decimal :=
  ⟨Decimal.ofDigits (n.whole ++ n.fraction), n.power - n.fraction.length⟩

/-- The double nearest to a numeral. -/
def toFloat (n : Numeral) : Float :=
  n.decimal.toFloat n.negative

/-- Takes an optional sign off the front of a text. -/
def readSign : List Char → Bool × List Char
  | '-' :: rest => (true, rest)
  | '+' :: rest => (false, rest)
  | rest => (false, rest)

/-- A power of ten that is as high as this takes no more digits. -/
def powerLimit : Nat := 65536

/-- The power of ten that digits spell, as far as it is read. -/
def powerOfDigits (digits : List Char) : Nat :=
  digits.foldl (fun n c => if n < powerLimit then n * 10 + Decimal.digitValue c else n) 0

/-- Reads what must be a power of ten up to the end of the text: an optional sign
and at least one digit. -/
def readPower? (text : List Char) : Option Int :=
  let (negative, ds) := readSign text
  if ds ≠ [] ∧ ds.all Char.isDigit then
    some (if negative then -(powerOfDigits ds : Int) else powerOfDigits ds)
  else none

/-- Reads what may follow the digits: nothing, or a power of ten. -/
def readEnd? : List Char → Option Int
  | [] => some 0
  | c :: rest => if c = 'e' ∨ c = 'E' then readPower? rest else none

/-- Reads a whole text as a numeral. -/
def read? (text : List Char) : Option Numeral :=
  let (negative, body) := readSign text
  let whole := body.takeWhile Char.isDigit
  let (fraction, rest) :=
    match body.dropWhile Char.isDigit with
    | '.' :: after => (after.takeWhile Char.isDigit, after.dropWhile Char.isDigit)
    | after => ([], after)
  if whole = [] ∧ fraction = [] then none
  else (readEnd? rest).map fun power => ⟨negative, whole, fraction, power⟩

/-! ## Doubles -/

/-- Reads a whole text as a double: a numeral, or behind an optional sign a word for
infinity or for the number that is no number. -/
def readDouble? (text : List Char) : Option Float :=
  let (negative, body) := readSign text
  let word := body.map Char.toLower
  if word = "inf".toList ∨ word = "infinity".toList then
    some (Binary64.ofMagnitude negative Binary64.infinity)
  else if word = "nan".toList then some Binary64.nan
  else (read? text).map toFloat

end Numeral

end Lipi
