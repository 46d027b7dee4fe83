/-
The number a value stands for.

Truth values count as one and zero, null as zero, and a text as the number it
spells: with the blanks at its ends taken off, nothing at all is zero, three
spellings of infinity are accepted, `0x` opens a hexadecimal number below `2 ^ 64`,
and anything else must be read as a double from end to end. Reading a double takes
words that are no numbers here, so such a text is first looked through for
characters that no decimal number has. A text that spells no number stands for the
number that is no number; that is an answer, not a failure.
-/
import Lipi.Decimal.Numeral
import Lipi.Text.Blank
import Lipi.Value

set_option autoImplicit false

namespace Lipi.Value

/-- The value of a hexadecimal digit of either case. -/
def hexDigit? (c : Char) : Option Nat :=
  if c.isDigit then some (c.toNat - '0'.toNat)
  else if 'a' ≤ c ∧ c ≤ 'f' then some (c.toNat - 'a'.toNat + 10)
  else if 'A' ≤ c ∧ c ≤ 'F' then some (c.toNat - 'A'.toNat + 10)
  else none

/-- The number that a row of hexadecimal digits spells. -/
def ofHexDigits? (ds : List Char) : Option Nat :=
  ds.foldl (fun sum c => do return (← sum) * 16 + (← hexDigit? c)) (some 0)

/-- Reads a text as a number of at most 64 bits: an optional plus sign and at least
one hexadecimal digit (`from_str_radix`). -/
def readHex? (text : List Char) : Option Nat :=
  let digits := match text with
    | '+' :: rest => rest
    | rest => rest
  if digits = [] then none else (ofHexDigits? digits).filter (· < UInt64.size)

/-- What stands behind the mark of a hexadecimal number. -/
def behindMark? : List Char → Option (List Char)
  | '0' :: 'x' :: rest => some rest
  | '0' :: 'X' :: rest => some rest
  | _ => none

/-- The number that stands behind a mark. -/
def numberOfHex (text : List Char) : Float :=
  match readHex? text with
  | some n => Decimal.toFloat false ⟨n, 0⟩
  | none => Binary64.nan

/-- The characters of decimal numbers (`numeric_chars`). -/
def isNumericChar (c : Char) : Bool :=
  c.isDigit || c == '.' || c == 'e' || c == 'E' || c == '+' || c == '-'

/-- The number that a text spells in decimal. The words that are read as doubles as
well have other characters. -/
def numberOfDecimal (text : List Char) : Float :=
  if text.all isNumericChar then (Numeral.readDouble? text).getD Binary64.nan else Binary64.nan

/-- The number a text stands for once nothing surrounds it (`parse_numeric`). -/
def numberOfTrimmed (text : List Char) : Float :=
  if text = [] then 0
  else if text = "Infinity".toList ∨ text = "+Infinity".toList then
    Binary64.ofMagnitude false Binary64.infinity
  else if text = "-Infinity".toList then Binary64.ofMagnitude true Binary64.infinity
  else
    match behindMark? text with
    | some rest => numberOfHex rest
    | none => numberOfDecimal text

/-- The number a text stands for. -/
def numberOfText (s : String) : Float :=
  numberOfTrimmed (Text.trim s.toList)

/-- The number a value stands for (`to_number`). -/
def toNumber : Value → Float
  | number x => x
  | text s => numberOfText s
  | bool true => 1
  | bool false => 0
  | null => 0

end Lipi.Value
