/-
Decimals that are written down are numerals.

Both ways of writing a decimal are read back by the grammar for numerals, and what is read has
the value that was written (`read?_positional`, `read?_scientific`). Positional notation may
add zeros, at either end of the digits; scientific notation gives the same digits and the same
power of ten, if the power is one that is read to its end.

For the fewest digits of a finite double it always is, for their value is within the range of
doubles (`Decimal.natAbs_pointPosition_lt`). So whichever way the digits of a double are
written, the double is what they are read as (`Value.exists_read?_numberText`).
-/
import Lipi.Decimal.Numeral
import Lipi.Proofs.Decimal
import Lipi.Proofs.Decimal.Layout
import Lipi.Proofs.Text.Stretch

set_option autoImplicit false

namespace Lipi

open Decimal

/-! ## Digits -/

namespace Decimal

theorem ofDigits_eq_ofDigitChars (digits : List Char) :
    ofDigits digits = Nat.ofDigitChars 10 digits 0 := by
  rw [ofDigits_eq_foldl, Nat.ofDigitChars]
  simp only [digitValue, Nat.mul_comm]

@[simp]
theorem ofDigits_toDigits (n : ℕ) : ofDigits (Nat.toDigits 10 n) = n := by
  rw [ofDigits_eq_ofDigitChars, Nat.ofDigitChars_ten_toDigits]

theorem ofDigits_append_zeros (digits : List Char) (n : ℕ) :
    ofDigits (digits ++ List.replicate n '0') = ofDigits digits * 10 ^ n := by
  rw [ofDigits_eq_ofDigitChars, ofDigits_eq_ofDigitChars, Nat.ofDigitChars_append,
    Nat.ofDigitChars_replicate_zero, Nat.mul_comm]

theorem ofDigits_zeros_append (n : ℕ) (digits : List Char) :
    ofDigits (List.replicate n '0' ++ digits) = ofDigits digits := by
  rw [ofDigits_eq_ofDigitChars, ofDigits_eq_ofDigitChars, Nat.ofDigitChars_append,
    Nat.ofDigitChars_replicate_zero, Nat.mul_zero]

@[simp]
theorem ofDigits_digits (d : Decimal) : ofDigits d.digits = d.coefficient :=
  ofDigits_toDigits d.coefficient

end Decimal

namespace Numeral

/-- A power of ten below the limit is read to its end. -/
theorem powerOfDigits_eq {digits : List Char} (h : ofDigits digits < powerLimit) :
    powerOfDigits digits = ofDigits digits := by
  induction digits using List.reverseRecOn with
  | nil => rfl
  | append_singleton digits c ih =>
    rw [ofDigits_append] at h ⊢
    have hlt : ofDigits digits < powerLimit := by omega
    rw [powerOfDigits, List.foldl_append, ← powerOfDigits, ih hlt, List.foldl_cons, List.foldl_nil,
      if_pos hlt]

theorem readPower?_signedDigits {e : ℤ} (h : e.natAbs < powerLimit) :
    readPower? (signedDigits e) = some e := by
  have hdigits : (Nat.toDigits 10 e.natAbs).all Char.isDigit = true :=
    List.all_eq_true.mpr (isDigit_of_mem_toDigits _)
  have hpower : powerOfDigits (Nat.toDigits 10 e.natAbs) = e.natAbs := by
    rw [powerOfDigits_eq (by rwa [ofDigits_toDigits]), ofDigits_toDigits]
  unfold signedDigits
  split
  · next hneg =>
    rw [readPower?, readSign]
    dsimp only
    rw [if_pos ⟨Nat.toDigits_ne_nil, hdigits⟩, if_pos rfl, hpower]
    congr 1
    omega
  · next hpos =>
    rw [readPower?, readSign]
    dsimp only
    rw [if_pos ⟨Nat.toDigits_ne_nil, hdigits⟩, if_neg Bool.false_ne_true, hpower]
    congr 1
    omega

/-! ## Reading numerals -/

variable {text whole fraction rest : List Char} {negative : Bool}

theorem readSign_of_isDigit {c : Char} (h : c.isDigit = true) (rest : List Char) :
    readSign (c :: rest) = (false, c :: rest) := by
  have hminus : c ≠ '-' := by
    rintro rfl
    cases h
  have hplus : c ≠ '+' := by
    rintro rfl
    cases h
  unfold readSign
  split
  · next heq => exact absurd (List.cons.inj heq).1 hminus
  · next heq => exact absurd (List.cons.inj heq).1 hplus
  · rfl

theorem readSign_append (hwhole : ∀ c ∈ whole, c.isDigit = true) (hne : whole ≠ [])
    (rest : List Char) : readSign (whole ++ rest) = (false, whole ++ rest) := by
  cases whole with
  | nil => exact absurd rfl hne
  | cons c whole => exact readSign_of_isDigit (hwhole c List.mem_cons_self) _

/-- Nothing begins with a digit. -/
def EndsDigits (rest : List Char) : Prop := ∀ c, rest.head? = some c → c.isDigit = false

/-- Digits behind a sign, and behind them what is taken apart at a point. -/
theorem read?_of_parts {tail : List Char}
    (hparts : (match tail with
      | '.' :: after => (after.takeWhile Char.isDigit, after.dropWhile Char.isDigit)
      | after => ([], after)) = (fraction, rest))
    (hsign : readSign text = (negative, whole ++ tail)) (hwhole : ∀ c ∈ whole, c.isDigit = true)
    (htail : EndsDigits tail) :
    read? text = if whole = [] ∧ fraction = [] then none
      else (readEnd? rest).map fun power => ⟨negative, whole, fraction, power⟩ := by
  unfold read?
  rw [hsign]
  dsimp only
  rw [takeWhile_stretch hwhole htail, dropWhile_stretch hwhole htail]
  exact congrArg (fun parts : List Char × List Char =>
    if whole = [] ∧ parts.1 = [] then none
    else (readEnd? parts.2).map fun power => (⟨negative, whole, parts.1, power⟩ : Numeral)) hparts

/-- Digits without a point. -/
theorem read?_digits (hsign : readSign text = (negative, whole ++ rest))
    (hwhole : ∀ c ∈ whole, c.isDigit = true) (hrest : EndsDigits rest)
    (hpoint : rest.head? ≠ some '.') :
    read? text = if whole = [] then none
      else (readEnd? rest).map fun power => ⟨negative, whole, [], power⟩ := by
  refine (read?_of_parts ?_ hsign hwhole hrest).trans (if_congr (and_iff_left rfl) rfl rfl)
  split
  · exact absurd rfl hpoint
  · rfl

/-- Digits on the two sides of a point. -/
theorem read?_point (hsign : readSign text = (negative, whole ++ '.' :: (fraction ++ rest)))
    (hwhole : ∀ c ∈ whole, c.isDigit = true) (hfraction : ∀ c ∈ fraction, c.isDigit = true)
    (hrest : EndsDigits rest) :
    read? text = if whole = [] ∧ fraction = [] then none
      else (readEnd? rest).map fun power => ⟨negative, whole, fraction, power⟩ := by
  have hpoint : EndsDigits ('.' :: (fraction ++ rest)) := by
    rintro _ ⟨⟩
    rfl
  refine read?_of_parts ?_ hsign hwhole hpoint
  exact Prod.ext (takeWhile_stretch hfraction hrest) (dropWhile_stretch hfraction hrest)

theorem endsDigits_nil : EndsDigits [] := nofun

/-! ## Decimals -/

/-- A decimal in positional notation is read with its value. -/
theorem read?_positional (d : Decimal) :
    ∃ n, read? d.positional = some n ∧ n.negative = false ∧ n.decimal.toRat = d.toRat := by
  have hdigits := isDigit_of_mem_digits (d := d)
  unfold positional
  dsimp only
  split
  · next hexponent =>
    -- Zeros at the end stand for the power of ten.
    have hall := List.forall_mem_append.mpr ⟨hdigits, isDigit_of_mem_zeros d.exponent.toNat⟩
    have hne := List.append_ne_nil_of_left_ne_nil d.digits_ne_nil
      (List.replicate d.exponent.toNat '0')
    have hread := read?_digits (readSign_append hall hne []) hall endsDigits_nil nofun
    rw [List.append_nil, if_neg hne] at hread
    refine ⟨_, hread, rfl, ?_⟩
    have hpow : (10 : ℚ) ^ d.exponent.toNat = 10 ^ d.exponent := by
      rw [← zpow_natCast, Int.toNat_of_nonneg hexponent]
    rw [decimal, toRat, toRat]
    dsimp only
    rw [List.append_nil, ofDigits_append_zeros, ofDigits_digits, ← hpow]
    push_cast
    rw [List.length_nil, Nat.cast_zero, sub_zero, zpow_zero, mul_one]
  · next hexponent =>
    split
    · next hpoint =>
      -- The point cuts the digits in two, and no digit is added.
      have htake : ∀ c ∈ d.digits.take d.pointPosition.toNat, c.isDigit = true :=
        fun c hc => hdigits c (List.mem_of_mem_take hc)
      have hdrop : ∀ c ∈ d.digits.drop d.pointPosition.toNat, c.isDigit = true :=
        fun c hc => hdigits c (List.mem_of_mem_drop hc)
      have hlength := List.length_pos_iff.mpr d.digits_ne_nil
      have hne : d.digits.take d.pointPosition.toNat ≠ [] := by
        rw [← List.length_pos_iff, List.length_take]
        omega
      have hread := read?_point (readSign_append htake hne _) htake hdrop endsDigits_nil
      rw [List.append_nil, if_neg fun h => hne h.1] at hread
      refine ⟨_, hread, rfl, ?_⟩
      rw [decimal]
      dsimp only
      rw [List.take_append_drop, ofDigits_digits, List.length_drop]
      congr 2
      have hposition : d.pointPosition = d.digits.length + d.exponent := rfl
      omega
    · next hpoint =>
      -- Zeros in front of the digits stand for themselves.
      have hzero : ∀ c ∈ ['0'], c.isDigit = true := List.forall_mem_singleton.mpr rfl
      have hne : ['0'] ≠ [] := List.cons_ne_nil _ _
      have hread := read?_point (readSign_append hzero hne _) hzero
        (List.forall_mem_append.mpr ⟨isDigit_of_mem_zeros (-d.pointPosition).toNat, hdigits⟩)
        endsDigits_nil
      rw [List.append_nil, if_neg fun h => hne h.1] at hread
      refine ⟨_, hread, rfl, ?_⟩
      rw [decimal]
      dsimp only
      rw [List.singleton_append, ← List.cons_append, ← List.replicate_succ, ofDigits_zeros_append,
        ofDigits_digits, List.length_append, List.length_replicate]
      congr 2
      have hposition : d.pointPosition = d.digits.length + d.exponent := rfl
      omega

/-- A decimal in scientific notation is read as it is. -/
theorem read?_scientific {d : Decimal} (h : (d.pointPosition - 1).natAbs < powerLimit) :
    ∃ n, read? d.scientific = some n ∧ n.negative = false ∧ n.decimal = d := by
  have hdigits := isDigit_of_mem_digits (d := d)
  have hspelled := ofDigits_digits d
  have hposition : d.pointPosition = d.digits.length + d.exponent := rfl
  have hpower : readEnd? ('e' :: signedDigits (d.pointPosition - 1)) = some (d.pointPosition - 1) :=
    readPower?_signedDigits h
  have hends : EndsDigits ('e' :: signedDigits (d.pointPosition - 1)) := by
    rintro _ ⟨⟩
    rfl
  unfold scientific
  dsimp only
  cases hcases : d.digits with
  | nil => exact absurd hcases d.digits_ne_nil
  | cons c cs =>
    rw [hcases] at hdigits hspelled hposition
    cases cs with
    | nil =>
      have hne : [c] ≠ [] := List.cons_ne_nil _ _
      have hread := read?_digits (readSign_append hdigits hne _) hdigits hends
        (fun h => absurd (Option.some.inj h) (by decide))
      rw [if_neg hne, hpower] at hread
      refine ⟨_, hread, rfl, ?_⟩
      rw [decimal]
      dsimp only
      have hexponent : d.pointPosition - 1 - ([] : List Char).length = d.exponent := by
        rw [hposition, List.length_singleton, List.length_nil]
        push_cast
        ring
      rw [List.append_nil, hspelled, hexponent]
    | cons c' cs =>
      have hfirst : ∀ x ∈ [c], x.isDigit = true :=
        List.forall_mem_singleton.mpr (hdigits c List.mem_cons_self)
      have hne : [c] ≠ [] := List.cons_ne_nil _ _
      have hread := read?_point (readSign_append hfirst hne _) hfirst
        (fun x hx => hdigits x (List.mem_cons_of_mem _ hx)) hends
      rw [if_neg fun h => hne h.1, hpower] at hread
      refine ⟨_, hread, rfl, ?_⟩
      rw [decimal]
      dsimp only
      have hexponent : d.pointPosition - 1 - (c' :: cs).length = d.exponent := by
        rw [hposition, List.length_cons]
        push_cast
        ring
      rw [List.singleton_append, hspelled, hexponent]

end Numeral

/-! ## Doubles -/

namespace Decimal

variable {d : Decimal}

theorem pow_pointPosition_le (h : d.coefficient ≠ 0) : 10 ^ (d.pointPosition - 1) ≤ d.toRat := by
  have hlength := List.length_pos_iff.mpr d.digits_ne_nil
  have hle : 10 ^ (d.digits.length - 1) ≤ d.coefficient := by
    rcases Nat.eq_zero_or_pos (d.digits.length - 1) with hone | hmore
    · rw [hone]
      exact Nat.one_le_iff_ne_zero.mpr h
    · have hiff := Nat.length_toDigits_le_iff (b := 10) (n := d.coefficient) (by decide) hmore
      refine Nat.not_lt.mp fun hlt => ?_
      have : d.digits.length ≤ d.digits.length - 1 := hiff.mpr hlt
      omega
  have hcast : (10 : ℚ) ^ ((d.digits.length - 1 : ℕ) : ℤ) ≤ d.coefficient := by exact_mod_cast hle
  have hposition : d.pointPosition - 1 = ((d.digits.length - 1 : ℕ) : ℤ) + d.exponent := by
    unfold pointPosition
    omega
  rw [hposition, zpow_add₀ (by norm_num), toRat]
  exact mul_le_mul_of_nonneg_right hcast (by positivity)

theorem toRat_lt_pow_pointPosition : d.toRat < 10 ^ d.pointPosition := by
  have hlength := List.length_pos_iff.mpr d.digits_ne_nil
  have hlt : d.coefficient < 10 ^ d.digits.length :=
    (Nat.length_toDigits_le_iff (by decide) hlength).mp (Nat.le_refl _)
  have hcast : (d.coefficient : ℚ) < 10 ^ (d.digits.length : ℤ) := by exact_mod_cast hlt
  rw [pointPosition, zpow_add₀ (by norm_num), toRat]
  exact mul_lt_mul_of_pos_right hcast (by positivity)

/-- A decimal that is nearest to a finite double other than zero has no great power. -/
theorem natAbs_pointPosition_lt (hzero : d.nearest ≠ 0) (hinfinity : d.nearest ≠ Binary64.infinity) :
    (d.pointPosition - 1).natAbs < Numeral.powerLimit := by
  -- A value out of range would be nearest to zero or to infinity.
  rw [nearest_eq] at hzero hinfinity
  have hlow : 2 ^ (-1075 : ℤ) ≤ d.toRat := by
    rw [← toRat_value]
    exact not_lt.mp (mt Binary64.nearest_of_tiny hzero)
  have hhigh : d.toRat < 2 ^ 1024 := by
    rw [← toRat_value]
    exact not_le.mp (mt Binary64.nearest_of_huge hinfinity)
  have hne : d.coefficient ≠ 0 := by
    intro h
    rw [toRat, h, Nat.cast_zero, zero_mul] at hlow
    exact absurd hlow (not_le.mpr (by positivity))
  have habove : d.pointPosition - 1 < hugePower := by
    refine (zpow_lt_zpow_iff_right₀ (a := (10 : ℚ)) (by norm_num)).mp ?_
    exact (pow_pointPosition_le hne).trans_lt (hhigh.trans_le two_pow_le_pow_hugePower)
  have hbelow : tinyPower < d.pointPosition := by
    refine (zpow_lt_zpow_iff_right₀ (a := (10 : ℚ)) (by norm_num)).mp ?_
    exact pow_tinyPower_lt_two_pow.trans_le (hlow.trans toRat_lt_pow_pointPosition.le)
  unfold hugePower at habove
  unfold tinyPower at hbelow
  unfold Numeral.powerLimit
  omega

end Decimal

namespace Value

/-- The text of a finite double's magnitude is read as that double. -/
theorem exists_read?_magnitudeText {bits : ℕ} (hpos : bits ≠ 0) (h : bits < Binary64.infinity) :
    ∃ n, Numeral.read? (magnitudeText bits) = some n ∧ n.negative = false
      ∧ n.decimal.nearest = bits := by
  have hnearest := nearest_shortest h
  unfold magnitudeText
  dsimp only
  split
  · obtain ⟨n, hread, hsign, hvalue⟩ := Numeral.read?_positional (shortest bits)
    exact ⟨n, hread, hsign, (nearest_congr hvalue).trans hnearest⟩
  · have hpower := natAbs_pointPosition_lt (d := shortest bits) (by rwa [hnearest])
      (by rw [hnearest]; exact h.ne)
    obtain ⟨n, hread, hsign, hvalue⟩ := Numeral.read?_scientific hpower
    exact ⟨n, hread, hsign, by rw [hvalue, hnearest]⟩

/-- How a finite number that is not negative is written. -/
theorem numberText_ofMagnitude {bits : ℕ} (h : bits < Binary64.infinity) :
    numberText (Binary64.ofMagnitude false bits)
      = if bits = 0 then "0" else String.ofList (magnitudeText bits) := by
  unfold numberText
  rw [Binary64.isNaN_ofMagnitude false h.le, Binary64.isInf_ofMagnitude false h.le,
    Binary64.magnitude_ofMagnitude false h.le, Binary64.isNegative_ofMagnitude false h.le,
    decide_eq_false h.ne]
  rfl

theorem isNumberText_numberText {bits : ℕ} (h : bits < Binary64.infinity) :
    IsNumberText (numberText (Binary64.ofMagnitude false bits)).toList := by
  rw [numberText_ofMagnitude h]
  split
  · exact ⟨'0', [], rfl, by decide, nofun⟩
  · rw [String.toList_ofList]
    exact isNumberText_magnitudeText bits

/-- **A finite number that is not negative is written as a numeral that is read as it.** -/
theorem exists_read?_numberText {bits : ℕ} (h : bits < Binary64.infinity) :
    ∃ n, Numeral.read? (numberText (Binary64.ofMagnitude false bits)).toList = some n
      ∧ n.negative = false ∧ n.decimal.nearest = bits := by
  rw [numberText_ofMagnitude h]
  split
  · next hzero =>
    rw [hzero]
    exact ⟨⟨false, ['0'], [], 0⟩, by decide, rfl, by decide⟩
  · next hpos =>
    rw [String.toList_ofList]
    exact exists_read?_magnitudeText hpos h

/-- The infinite number is written as a word. -/
theorem numberText_infinity :
    numberText (Binary64.ofMagnitude false Binary64.infinity) = "Infinity" := by
  have h := Nat.le_refl Binary64.infinity
  unfold numberText
  rw [Binary64.isNaN_ofMagnitude false h, Binary64.isInf_ofMagnitude false h,
    Binary64.isNegative_ofMagnitude false h, decide_eq_true rfl]
  rfl

/-- Finite numbers that are not negative are written differently. -/
theorem bits_eq_of_numberText_eq {a b : ℕ} (ha : a < Binary64.infinity) (hb : b < Binary64.infinity)
    (h : numberText (Binary64.ofMagnitude false a) = numberText (Binary64.ofMagnitude false b)) :
    a = b := by
  obtain ⟨m, hm, -, hma⟩ := exists_read?_numberText ha
  obtain ⟨n, hn, -, hnb⟩ := exists_read?_numberText hb
  rw [h, hn] at hm
  cases hm
  exact hma.symm.trans hnb

end Value

end Lipi
