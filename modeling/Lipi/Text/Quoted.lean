/-
Texts in quotes.

Messages and listings show a text between double quotes, with everything that
would break the line or hide in it written out: the quote itself, the backslash,
line feed, carriage return, tab and the null character by a letter, every other
character that cannot be shown, or that would be drawn on its neighbour, by its
code point in hexadecimal. So a quoted text is one line whatever it holds, and
the apostrophe, which needs no care between double quotes, stays as it is.
-/
import Lipi.Text.Extending
import Lipi.Text.Printable

set_option autoImplicit false

namespace Lipi.Text

/-- A code point in lower-case hexadecimal digits, without leading zeros. -/
def hexDigits (n : Nat) : List Char :=
  Nat.toDigits 16 n

/-- How one character is written between double quotes. -/
def escaped (c : Char) : List Char :=
  if c = '\x00' then ['\\', '0']
  else if c = '\t' then ['\\', 't']
  else if c = '\r' then ['\\', 'r']
  else if c = '\n' then ['\\', 'n']
  else if c = '"' then ['\\', '"']
  else if c = '\\' then ['\\', '\\']
  else if isOverlaid c || !isPrintable c then
    ['\\', 'u', '\x7b'] ++ hexDigits c.toNat ++ ['\x7d']
  else [c]

/-- A text between double quotes. -/
def quoted (text : String) : String :=
  String.ofList ('"' :: (text.toList.flatMap escaped ++ ['"']))

end Lipi.Text
