/-
Numbers that are written read back.

A number other than zero is written as a sign and the text of its magnitude, and that text is a
numeral whose nearest double is the magnitude again (`exists_read?_magnitudeText`). With a sign
in front it is the numeral with that sign, so the number itself is read, bit by bit. No blank,
mark or word can come in between: what a number is written with begins no mark and holds no
blank. The infinite numbers are written as the words that are read as them.

Only zero loses its sign. It is written without one, and what is read is equal to it all the
same, so that every number is equal to what it is read back as (`beq_toNumber_written`).
-/
import Lipi.Proofs.Value.Numeric

set_option autoImplicit false

namespace Lipi

/-! ## Signs and blanks -/

/-- A text is read as a numeral in the same way whatever its sign. -/
theorem Numeral.read?_of_readSign {text text' body : List Char} {negative negative' : Bool}
    (h : readSign text = (negative, body)) (h' : readSign text' = (negative', body)) :
    read? text' = (read? text).map fun n => { n with negative := negative' } := by
  unfold read?
  rw [h, h']
  dsimp only
  split <;> rw [apply_ite (Option.map _), Option.map_none, Option.map_map] <;> rfl

/-- Without blanks there is nothing to take off. -/
theorem Text.trim_eq_self {text : List Char} (h : ∀ c ∈ text, isBlank c = false) :
    trim text = text := by
  have hself : ∀ l : List Char, (∀ c ∈ l, isBlank c = false) → l.dropWhile isBlank = l :=
    fun l hl => dropWhile_stretch (a := []) nofun fun c hc => hl c (List.mem_of_mem_head? hc)
  rw [trim, hself text h, hself text.reverse fun c hc => h c (List.mem_reverse.mp hc),
    List.reverse_reverse]

theorem isBlank_eq_false_of_isNumeric {c : Char} (h : isNumeric c = true) :
    Text.isBlank c = false := by
  have hblank : ∀ n ∈ Text.blanks, isNumeric (Char.ofNat n) = false := by decide
  rw [Bool.eq_false_iff]
  intro hc
  have hnot := hblank c.toNat (List.contains_iff_mem.mp hc)
  rw [Char.ofNat_toNat, h] at hnot
  cases hnot

/-! ## Numbers -/

namespace Value

/-- A sign, and the digits of a magnitude. -/
def signedText (negative : Bool) (bits : ℕ) : List Char :=
  if negative then '-' :: magnitudeText bits else magnitudeText bits

theorem isBlank_of_mem_signedText (negative : Bool) (bits : ℕ) :
    ∀ c ∈ signedText negative bits, Text.isBlank c = false := by
  have hbody := (isNumberText_magnitudeText bits).forall_isNumeric
  unfold signedText
  split
  · refine List.forall_mem_cons.mpr ⟨by decide, fun c hc => ?_⟩
    exact isBlank_eq_false_of_isNumeric (hbody c hc)
  · exact fun c hc => isBlank_eq_false_of_isNumeric (hbody c hc)

/-- A sign and the digits of a magnitude are read as the number with this sign and this
magnitude. -/
theorem numberOfTrimmed_signedText (negative : Bool) {bits : ℕ} (hpos : bits ≠ 0)
    (h : bits < Binary64.infinity) :
    numberOfTrimmed (signedText negative bits) = Binary64.ofMagnitude negative bits := by
  obtain ⟨n, hread, -, hnearest⟩ := exists_read?_magnitudeText hpos h
  have hplain : Numeral.readSign (magnitudeText bits) = (false, magnitudeText bits) := by
    obtain ⟨c, rest, hbody, hc, -⟩ := isNumberText_magnitudeText bits
    rw [hbody]
    exact Numeral.readSign_of_isDigit hc rest
  have hsigned : Numeral.readSign (signedText negative bits) = (negative, magnitudeText bits) := by
    cases negative with
    | false => exact hplain
    | true => rfl
  have hread' := Numeral.read?_of_readSign hplain hsigned
  rw [hread, Option.map_some] at hread'
  rw [numberOfTrimmed_of_read? hread', Numeral.toFloat, Decimal.toFloat]
  exact congrArg _ hnearest

theorem toNumber_infinite (negative : Bool) :
    numberOfText (if negative then "-Infinity" else "Infinity")
      = Binary64.ofMagnitude negative Binary64.infinity := by
  cases negative <;> rfl

/-- **A number is equal to what it is read back as** when it has been written. -/
theorem beq_toNumber_written {x : Float} (h : x.isNaN = false) :
    ((Value.text (Value.number x).written).toNumber == x) = true := by
  have hself := Binary64.beq_self h
  have hparts := Binary64.ofMagnitude_magnitude h
  show (numberOfText (numberText x) == x) = true
  unfold numberText
  rw [h, if_neg Bool.false_ne_true]
  split
  · next hinf =>
    -- The words for the infinite numbers are read as these.
    rw [Binary64.isInf_eq, decide_eq_true_eq] at hinf
    rw [hinf] at hparts
    rwa [toNumber_infinite, hparts]
  · next hfinite =>
    rw [Binary64.isInf_eq, decide_eq_true_eq] at hfinite
    have hlt := lt_of_le_of_ne (Binary64.magnitude_le_infinity h) hfinite
    split
    · next hzero =>
      -- The sign of a zero is lost, and makes no difference.
      rw [hzero] at hparts
      rw [← hparts]
      cases Binary64.isNegative x <;> decide
    · next hpos =>
      dsimp only
      have hvalue := numberOfTrimmed_signedText (Binary64.isNegative x) hpos hlt
      rw [hparts] at hvalue
      rw [numberOfText, String.toList_ofList, ← signedText,
        Text.trim_eq_self (isBlank_of_mem_signedText _ _), hvalue]
      exact hself

/-- The negative number nearest to zero is written with a power far below zero, and read back. -/
theorem beq_toNumber_written_smallest :
    (Float.ofBits 0x8000000000000001).isNaN = false
      ∧ (Value.number (Float.ofBits 0x8000000000000001)).written = "-5e-324"
      ∧ ((Value.text (Value.number (Float.ofBits 0x8000000000000001)).written).toNumber
          == Float.ofBits 0x8000000000000001) = true :=
  ⟨by decide, by decide +kernel, beq_toNumber_written (by decide)⟩

end Value

end Lipi
