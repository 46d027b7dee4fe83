/-
Blanks: the characters that only separate.

The set is the property White_Space of the Unicode character database. It serves
twice, between the tokens of a source and around the digits of a text that is
read as a number; both places skip exactly these twenty-five characters. A zero
width space, a byte order mark and the Mongolian vowel separator are not blanks.
-/

set_option autoImplicit false

namespace Lipi.Text

/-- The blank characters, in ascending order. -/
def blanks : List Nat :=
  [0x09, 0x0A, 0x0B, 0x0C, 0x0D, 0x20, 0x85, 0xA0, 0x1680, 0x2000, 0x2001, 0x2002, 0x2003, 0x2004,
   0x2005, 0x2006, 0x2007, 0x2008, 0x2009, 0x200A, 0x2028, 0x2029, 0x202F, 0x205F, 0x3000]

/-- A character that only separates. -/
def isBlank (c : Char) : Bool :=
  blanks.contains c.toNat

/-- A text without the blanks at its two ends. -/
def trim (text : List Char) : List Char :=
  ((text.dropWhile isBlank).reverse.dropWhile isBlank).reverse

theorem blanks_length : blanks.length = 25 := rfl

/-- Every blank of the basic alphabet is a blank here. -/
theorem isBlank_of_isWhitespace (c : Char) (h : c.isWhitespace = true) : isBlank c = true := by
  simp only [Char.isWhitespace, Bool.or_eq_true, decide_eq_true_eq] at h
  rcases h with ((h | h) | h) | h <;> subst h <;> decide

end Lipi.Text
