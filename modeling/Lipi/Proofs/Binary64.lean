/-
Doubles and quotients.

The computation of the nearest double works on pairs of natural numbers; what it comes to
depends on the quotient alone (`nearest_congr`). The power of two below a quotient is its
logarithm (`Ratio.log2_eq`), and rounding is what it should be, to the nearest whole number
and from half-way to the even one (`Ratio.isRounded_round`), of which there is only one.

Every finite double is nearest to its own value (`nearest_value`). Quotients from `2 ^ 1024`
on are nearest to infinity, and those below half the smallest double to zero. The numbers
that Lean calls floats have these patterns: the magnitude says whether a number is infinite or
no number at all (`isInf_eq`, `isNaN_eq`), a pattern that is put in comes out again
(`magnitude_ofMagnitude`), and what comes out makes up the number (`ofMagnitude_magnitude`).
-/
import Lipi.Binary64
import Mathlib

set_option autoImplicit false

namespace Lipi

namespace Ratio

/-! ## Quotients -/

/-- The quotient itself. -/
def toRat (r : Ratio) : ℚ := r.num / r.den

theorem den_cast_pos (r : Ratio) : (0 : ℚ) < r.den := Nat.cast_pos.mpr r.den_pos

theorem toRat_nonneg (r : Ratio) : 0 ≤ r.toRat := by
  unfold toRat
  positivity

theorem toRat_eq_zero_iff (r : Ratio) : r.toRat = 0 ↔ r.num = 0 := by
  unfold toRat
  rw [div_eq_zero_iff, Nat.cast_eq_zero, Nat.cast_eq_zero]
  exact or_iff_left r.den_pos.ne'

theorem den_le_num_iff (r : Ratio) : r.den ≤ r.num ↔ 1 ≤ r.toRat := by
  rw [toRat, one_le_div r.den_cast_pos, Nat.cast_le]

/-- Only one of the two parts of a power is not one. -/
theorem pow_toNat_div_pow_toNat {b : ℚ} (hb : b ≠ 0) (e : ℤ) :
    b ^ e.toNat / b ^ (-e).toNat = b ^ e := by
  rw [← zpow_natCast, ← zpow_natCast, ← zpow_sub₀ hb]
  congr 1
  omega

theorem toRat_scaled (n b : ℕ) (e : ℤ) (hb : 0 < b) : (scaled n b e hb).toRat = n * (b : ℚ) ^ e := by
  have hb' : (b : ℚ) ≠ 0 := Nat.cast_ne_zero.mpr hb.ne'
  rw [toRat, scaled, ← pow_toNat_div_pow_toNat hb' e, ← mul_div_assoc]
  push_cast [Nat.pow_eq]
  rfl

theorem toRat_shift (r : Ratio) (e : ℤ) : (r.shift e).toRat = r.toRat * 2 ^ e := by
  rw [toRat, shift, ← pow_toNat_div_pow_toNat two_ne_zero e, toRat]
  push_cast [Nat.pow_eq]
  rw [mul_div_mul_comm]

/-! ## Rounding -/

/-- A whole number nearest to a quotient, which is even if another one is as near. -/
structure IsRounded (q : ℚ) (n : ℕ) : Prop where
  below : q - 1 / 2 ≤ n
  above : n ≤ q + 1 / 2
  even : n = q - 1 / 2 ∨ n = q + 1 / 2 → n % 2 = 0

theorem IsRounded.eq {q : ℚ} {m n : ℕ} (hm : IsRounded q m) (hn : IsRounded q n) : m = n := by
  -- Of two different ones the greater is the next, and the quotient is half-way between.
  have hunique : ∀ {m n : ℕ}, IsRounded q m → IsRounded q n → ¬ m < n := by
    intro m n hm hn hlt
    have hnext : n = m + 1 := by
      have : (n : ℚ) ≤ m + 1 := by linarith [hm.below, hn.above]
      have : n ≤ m + 1 := by exact_mod_cast this
      omega
    subst hnext
    have habove := hn.above
    push_cast at habove
    have hhalf : q = m + 1 / 2 := by linarith [hm.below]
    have hevenm := hm.even (.inl (by linarith))
    have hevenn := hn.even (.inr (by push_cast; linarith))
    omega
  exact Nat.le_antisymm (Nat.not_lt.mp (hunique hn hm)) (Nat.not_lt.mp (hunique hm hn))

/-- **Rounding finds the nearest whole number.** -/
theorem isRounded_round (r : Ratio) : IsRounded r.toRat r.round := by
  have hden := r.den_cast_pos
  -- What is left over, as a part of one.
  obtain ⟨rest, hrest⟩ : ∃ rest : ℚ, rest = (r.num % r.den : ℕ) / (r.den : ℚ) := ⟨_, rfl⟩
  have hsplit : r.toRat = (r.num / r.den : ℕ) + rest := by
    have hdivision : ((r.den * (r.num / r.den) + r.num % r.den : ℕ) : ℚ) = (r.num : ℕ) := by
      rw [Nat.div_add_mod]
    push_cast at hdivision
    rw [hrest, toRat, ← hdivision, add_div, mul_div_cancel_left₀ _ hden.ne']
  have hnonneg : 0 ≤ rest := by
    rw [hrest]
    positivity
  have hlt : rest < 1 := by
    rw [hrest, div_lt_one hden]
    exact_mod_cast Nat.mod_lt _ r.den_pos
  have hbelow : rest < 1 / 2 ↔ 2 * (r.num % r.den) < r.den := by
    rw [hrest, div_lt_iff₀ hden, ← Nat.cast_lt (α := ℚ)]
    push_cast
    constructor <;> intro h <;> linarith
  have hhalf : rest = 1 / 2 ↔ 2 * (r.num % r.den) = r.den := by
    rw [hrest, div_eq_iff hden.ne', ← Nat.cast_inj (R := ℚ)]
    push_cast
    constructor <;> intro h <;> linarith
  have hnext : ((r.num / r.den + 1 : ℕ) : ℚ) = (r.num / r.den : ℕ) + 1 := Nat.cast_succ _
  rw [hsplit]
  unfold round
  dsimp only
  split
  · next h =>
    -- Less than half is left over, and no tie is possible.
    rw [← hbelow] at h
    exact ⟨by linarith, by linarith, fun heven => by rcases heven with h | h <;> linarith⟩
  · split
    · next h =>
      -- Of the two neighbours the even one is taken.
      rw [← hhalf] at h
      rcases Nat.mod_two_eq_zero_or_one (r.num / r.den) with hmod | hmod
      · rw [hmod, Nat.add_zero]
        exact ⟨by linarith, by linarith, fun _ => hmod⟩
      · rw [hmod]
        exact ⟨by linarith, by linarith, fun _ => by omega⟩
    · next hnot hne =>
      rw [← hbelow, not_lt] at hnot
      have hgt : 1 / 2 < rest := lt_of_le_of_ne hnot fun he => hne (hhalf.mp he.symm)
      exact ⟨by linarith, by linarith, fun heven => by rcases heven with h | h <;> linarith⟩

theorem round_congr {r s : Ratio} (h : r.toRat = s.toRat) : r.round = s.round :=
  r.isRounded_round.eq (h ▸ s.isRounded_round)

theorem round_eq_of_toRat_eq {r : Ratio} {n : ℕ} (h : r.toRat = n) : r.round = n :=
  r.isRounded_round.eq ⟨by rw [h]; linarith, by rw [h]; linarith, fun hn => by
    rw [h] at hn
    rcases hn with hn | hn <;> linarith⟩

theorem round_eq_zero_of_lt {r : Ratio} (h : r.toRat < 1 / 2) : r.round = 0 :=
  r.isRounded_round.eq ⟨by push_cast; linarith, by push_cast; linarith [r.toRat_nonneg], fun _ => rfl⟩

theorem le_round_of_le {r : Ratio} {n : ℕ} (h : (n : ℚ) ≤ r.toRat) : n ≤ r.round := by
  have hbelow := r.isRounded_round.below
  have : (n : ℚ) < r.round + 1 := by linarith
  have : n < r.round + 1 := by exact_mod_cast this
  omega

/-! ## The power of two below -/

/-- **The power of two that is found is the greatest below.** -/
theorem log2_eq {r : Ratio} (h : r.num ≠ 0) : r.log2 = Int.log 2 r.toRat := by
  have hpos : 0 < r.toRat := lt_of_le_of_ne r.toRat_nonneg fun he => h (r.toRat_eq_zero_iff.mp he.symm)
  obtain ⟨guess, hguess⟩ : ∃ guess : ℤ, guess = (r.num.log2 : ℤ) - (r.den.log2 : ℤ) := ⟨_, rfl⟩
  -- Both numbers are known up to a factor of two, so the guess is at most one too high.
  have hnumlow : (2 : ℚ) ^ (r.num.log2 : ℤ) ≤ r.num := by
    exact_mod_cast Nat.log2_self_le h
  have hnumhigh : (r.num : ℚ) < 2 ^ ((r.num.log2 : ℤ) + 1) := by
    exact_mod_cast Nat.lt_log2_self
  have hdenlow : (2 : ℚ) ^ (r.den.log2 : ℤ) ≤ r.den := by
    exact_mod_cast Nat.log2_self_le r.den_pos.ne'
  have hdenhigh : (r.den : ℚ) < 2 ^ ((r.den.log2 : ℤ) + 1) := by
    exact_mod_cast Nat.lt_log2_self
  have hlow : (2 : ℚ) ^ (guess - 1) ≤ r.toRat := by
    rw [toRat, le_div_iff₀ r.den_cast_pos]
    calc (2 : ℚ) ^ (guess - 1) * r.den ≤ 2 ^ (guess - 1) * 2 ^ ((r.den.log2 : ℤ) + 1) := by gcongr
      _ = 2 ^ (r.num.log2 : ℤ) := by
        rw [← zpow_add₀ two_ne_zero, hguess]
        congr 1
        omega
      _ ≤ r.num := hnumlow
  have hhigh : r.toRat < 2 ^ (guess + 1) := by
    rw [toRat, div_lt_iff₀ r.den_cast_pos]
    calc (r.num : ℚ) < 2 ^ ((r.num.log2 : ℤ) + 1) := hnumhigh
      _ = 2 ^ (guess + 1) * 2 ^ (r.den.log2 : ℤ) := by
        rw [← zpow_add₀ two_ne_zero, hguess]
        congr 1
        omega
      _ ≤ 2 ^ (guess + 1) * r.den := by gcongr
  have hlowered : (r.shift (-guess)).den ≤ (r.shift (-guess)).num ↔ (2 : ℚ) ^ guess ≤ r.toRat := by
    rw [den_le_num_iff, toRat_shift, zpow_neg, ← div_eq_mul_inv, one_le_div (by positivity)]
  have hlog : ∀ e : ℤ, (2 : ℚ) ^ e ≤ r.toRat → r.toRat < 2 ^ (e + 1) → e = Int.log 2 r.toRat := by
    intro e hle hlt
    have hle' := (Int.zpow_le_iff_le_log (b := 2) (by decide) hpos).mp (by exact_mod_cast hle)
    have hlt' := (Int.lt_zpow_iff_log_lt (b := 2) (by decide) hpos).mp (by exact_mod_cast hlt)
    omega
  unfold log2
  dsimp only
  rw [← hguess]
  split
  · next hle => exact hlog guess (hlowered.mp hle) hhigh
  · next hnot =>
    rw [hlowered, not_le] at hnot
    exact hlog (guess - 1) hlow (by rwa [sub_add_cancel])

end Ratio

namespace Binary64

open Ratio

/-! ## The nearest double -/

/-- **The nearest double depends on the quotient alone.** -/
theorem nearest_congr {r s : Ratio} (h : r.toRat = s.toRat) : nearest r = nearest s := by
  have hzero : r.num = 0 ↔ s.num = 0 := by
    rw [← r.toRat_eq_zero_iff, h, s.toRat_eq_zero_iff]
  unfold nearest
  by_cases hr : r.num = 0
  · rw [if_pos hr, if_pos (hzero.mp hr)]
  · have hs : s.num ≠ 0 := mt hzero.mpr hr
    have hlog : r.log2 = s.log2 := by rw [log2_eq hr, log2_eq hs, h]
    have hround : ∀ e, (r.shift e).round = (s.shift e).round := fun e =>
      round_congr (by rw [toRat_shift, toRat_shift, h])
    rw [if_neg hr, if_neg hs, hlog]
    dsimp only
    rw [hround]

theorem nearest_le_infinity (r : Ratio) : nearest r ≤ infinity := by
  unfold nearest
  split
  · exact Nat.zero_le _
  · exact Nat.min_le_right _ _

theorem nearest_of_toRat_eq_zero {r : Ratio} (h : r.toRat = 0) : nearest r = 0 :=
  if_pos (r.toRat_eq_zero_iff.mp h)

variable {r : Ratio}

/-- The nearest double, once it is known where its lowest bit stands. -/
theorem nearest_eq {e : ℤ} (hr : 0 < r.toRat)
    (he : max (Int.log 2 r.toRat - 52) lowestExponent = e) :
    nearest r = min ((e - lowestExponent).toNat * hiddenBit + (r.shift (-e)).round) infinity := by
  have hnum : r.num ≠ 0 := fun h => hr.ne' (r.toRat_eq_zero_iff.mpr h)
  subst he
  rw [← log2_eq hnum]
  exact if_neg hnum

/-- What is the value of a double is nearest to it. A mantissa has its highest bit, unless
the lowest is where it cannot be lower. -/
theorem nearest_of_mantissa {m k : ℕ} (hr : r.toRat = m * 2 ^ (lowestExponent + k))
    (hpos : 0 < m) (hlt : m < 2 ^ 53) (hnormal : 2 ^ 52 ≤ m ∨ k = 0) :
    nearest r = min (k * hiddenBit + m) infinity := by
  have hmpos : (0 : ℚ) < m := Nat.cast_pos.mpr hpos
  have hrpos : 0 < r.toRat := by
    rw [hr]
    positivity
  have hhigh : Int.log 2 r.toRat < 53 + (lowestExponent + k) := by
    refine (Int.lt_zpow_iff_log_lt (by decide) hrpos).mp ?_
    have hcast : (m : ℚ) < 2 ^ (53 : ℤ) := by exact_mod_cast hlt
    rw [hr, Nat.cast_ofNat, zpow_add₀ (two_ne_zero (α := ℚ)) 53]
    exact mul_lt_mul_of_pos_right hcast (by positivity)
  -- A mantissa with its highest bit fixes the logarithm; without it the lowest exponent is used.
  have hexponent : max (Int.log 2 r.toRat - 52) lowestExponent = lowestExponent + k := by
    rcases hnormal with hle | rfl
    · have hlow : 52 + (lowestExponent + k) ≤ Int.log 2 r.toRat := by
        refine (Int.zpow_le_iff_le_log (by decide) hrpos).mp ?_
        have hcast : (2 : ℚ) ^ (52 : ℤ) ≤ m := by exact_mod_cast hle
        rw [hr, Nat.cast_ofNat, zpow_add₀ (two_ne_zero (α := ℚ)) 52]
        exact mul_le_mul_of_nonneg_right hcast (by positivity)
      omega
    · rw [Nat.cast_zero, add_zero] at hhigh ⊢
      omega
  have hround : (r.shift (-(lowestExponent + k))).round = m := by
    refine round_eq_of_toRat_eq ?_
    rw [toRat_shift, hr, mul_assoc, ← zpow_add₀ two_ne_zero, add_neg_cancel, zpow_zero, mul_one]
  rw [nearest_eq hrpos hexponent, hround, add_sub_cancel_left, Int.toNat_natCast]

theorem toRat_value (bits : ℕ) :
    (value bits).toRat = (decode bits).1 * 2 ^ (decode bits).2 := by
  rw [value, toRat_scaled]
  rfl

/-- **Every finite double is nearest to its own value.** -/
theorem nearest_value {bits : ℕ} (h : bits < infinity) : nearest (value bits) = bits := by
  have hvalue := toRat_value bits
  have hbit : hiddenBit = 2 ^ 52 := rfl
  have hsplit := Nat.div_add_mod bits hiddenBit
  have hfraction : bits % hiddenBit < hiddenBit := Nat.mod_lt _ (by decide)
  unfold decode at hvalue
  dsimp only at hvalue
  split at hvalue
  · next hfield =>
    -- A subnormal pattern is its own mantissa.
    rw [hfield, Nat.mul_zero, Nat.zero_add] at hsplit
    rw [hsplit] at hvalue
    by_cases hzero : bits = 0
    · rw [hzero] at hvalue ⊢
      exact nearest_of_toRat_eq_zero (by rw [hvalue, Nat.cast_zero, zero_mul])
    · rw [nearest_of_mantissa (k := 0) (by rw [hvalue, Nat.cast_zero, add_zero])
        (Nat.pos_of_ne_zero hzero) (by omega) (.inr rfl), Nat.zero_mul, Nat.zero_add]
      exact Nat.min_eq_left h.le
  · next hfield =>
    rw [nearest_of_mantissa hvalue (by omega) (by omega) (.inl (by omega))]
    -- The hidden bit of the mantissa makes up for the one taken off the field.
    have hbits : (bits / hiddenBit - 1) * hiddenBit + (hiddenBit + bits % hiddenBit) = bits := by
      rw [← Nat.add_assoc, ← Nat.succ_mul, Nat.succ_eq_add_one,
        Nat.sub_add_cancel (Nat.pos_of_ne_zero hfield), Nat.mul_comm, hsplit]
    rw [hbits]
    exact Nat.min_eq_left h.le

/-- A quotient that no double reaches is nearest to infinity. -/
theorem nearest_of_huge (h : 2 ^ 1024 ≤ r.toRat) : nearest r = infinity := by
  have hpos : 0 < r.toRat := lt_of_lt_of_le (by positivity) h
  have hlog : 1024 ≤ Int.log 2 r.toRat :=
    (Int.zpow_le_iff_le_log (by decide) hpos).mp (by exact_mod_cast h)
  have hexponent : max (Int.log 2 r.toRat - 52) lowestExponent = Int.log 2 r.toRat - 52 :=
    max_eq_left (by unfold lowestExponent; omega)
  -- With the highest bit in the mantissa, the field alone reaches infinity.
  have hround : hiddenBit ≤ (r.shift (-(Int.log 2 r.toRat - 52))).round := by
    refine le_round_of_le ?_
    have hle := Int.zpow_log_le_self (b := 2) (by decide) hpos
    rw [toRat_shift]
    calc ((hiddenBit : ℕ) : ℚ) = 2 ^ (52 : ℤ) := by norm_num [hiddenBit]
      _ = 2 ^ Int.log 2 r.toRat * 2 ^ (-(Int.log 2 r.toRat - 52)) := by
        rw [← zpow_add₀ two_ne_zero]
        congr 1
        omega
      _ ≤ r.toRat * 2 ^ (-(Int.log 2 r.toRat - 52)) := by
        push_cast at hle
        gcongr
  have hfield : 2046 * hiddenBit ≤ (Int.log 2 r.toRat - 52 - lowestExponent).toNat * hiddenBit :=
    Nat.mul_le_mul_right _ (by unfold lowestExponent; omega)
  rw [nearest_eq hpos hexponent]
  exact Nat.min_eq_right (by unfold infinity; omega)

/-- A quotient below half the smallest double is nearest to zero. -/
theorem nearest_of_tiny (h : r.toRat < 2 ^ (-1075 : ℤ)) : nearest r = 0 := by
  rcases r.toRat_nonneg.eq_or_lt with hzero | hpos
  · exact nearest_of_toRat_eq_zero hzero.symm
  · have hlog : Int.log 2 r.toRat < -1075 :=
      (Int.lt_zpow_iff_log_lt (by decide) hpos).mp (by exact_mod_cast h)
    have hexponent : max (Int.log 2 r.toRat - 52) lowestExponent = lowestExponent :=
      max_eq_right (by unfold lowestExponent; omega)
    have hround : (r.shift (-lowestExponent)).round = 0 := by
      refine round_eq_zero_of_lt ?_
      rw [toRat_shift]
      calc r.toRat * 2 ^ (-lowestExponent) < 2 ^ (-1075 : ℤ) * 2 ^ (-lowestExponent) := by gcongr
        _ = 1 / 2 := by
          rw [← zpow_add₀ two_ne_zero]
          norm_num [lowestExponent]
    rw [nearest_eq hpos hexponent, hround, sub_self]
    rfl

/-! ## Numbers and their patterns -/

open Float.Model UnpackedFloat

theorem unpackExponent_eq_iff (b : BitVec 64) :
    @unpackExponent .binary64 b = -1#11 ↔ b.toNat / 2 ^ 52 % 2 ^ 11 = 2047 := by
  rw [← BitVec.toNat_inj]
  simp [unpackExponent, BitVec.extractLsb, BitVec.extractLsb'_toNat, Nat.shiftRight_eq_div_pow,
    Format.binary64]

theorem unpackMantissa_eq_iff (b : BitVec 64) :
    @unpackMantissa .binary64 b = 0#52 ↔ b.toNat % 2 ^ 52 = 0 := by
  rw [← BitVec.toNat_inj]
  simp [unpackMantissa, BitVec.extractLsb, BitVec.extractLsb'_toNat, Format.binary64]

/-- A number is none beyond infinity, infinite at it, and finite below. -/
theorem unpack_cases (x : Float) :
    (infinity < magnitude x ∧ x.toModel.unpack = .notANumber)
      ∨ (magnitude x = infinity ∧ ∃ s, x.toModel.unpack = .infinity s)
      ∨ (magnitude x < infinity ∧ x.toModel.unpack.isNaN = false
        ∧ x.toModel.unpack.isInf = false) := by
  have hexponent := unpackExponent_eq_iff x.toBits.toBitVec
  have hmantissa := unpackMantissa_eq_iff x.toBits.toBitVec
  have hmagnitude : magnitude x = x.toBits.toBitVec.toNat % signBit := rfl
  have hunpack : x.toModel.unpack = UnpackedFloat.unpack .binary64 x.toBits.toBitVec := rfl
  -- From here on it is about the pattern alone, whose fields are quotients and remainders.
  generalize x.toBits.toBitVec = b at hexponent hmantissa hmagnitude hunpack
  have hlt := b.isLt
  rw [hmagnitude, hunpack]
  simp only [infinity, signBit, hiddenBit]
  unfold UnpackedFloat.unpack
  dsimp only
  by_cases he : b.toNat / 2 ^ 52 % 2 ^ 11 = 2047
  · rw [if_pos (hexponent.mpr he)]
    by_cases hm : b.toNat % 2 ^ 52 = 0
    · rw [if_pos (hmantissa.mpr hm)]
      exact .inr (.inl ⟨by omega, _, rfl⟩)
    · rw [if_neg (mt hmantissa.mp hm)]
      exact .inl ⟨by omega, rfl⟩
  · rw [if_neg (mt hexponent.mp he)]
    refine .inr (.inr ⟨by omega, ?_⟩)
    split
    · split <;> exact ⟨rfl, rfl⟩
    · exact ⟨rfl, rfl⟩

theorem isNaN_eq (x : Float) : x.isNaN = decide (infinity < magnitude x) := by
  show x.toModel.unpack.isNaN = _
  rcases unpack_cases x with ⟨h, hunpack⟩ | ⟨h, s, hunpack⟩ | ⟨h, hnan, -⟩
  · rw [hunpack, decide_eq_true h]
    rfl
  · rw [hunpack, decide_eq_false (Nat.not_lt.mpr h.le)]
    rfl
  · rw [hnan, decide_eq_false (Nat.not_lt.mpr h.le)]

theorem isInf_eq (x : Float) : x.isInf = decide (magnitude x = infinity) := by
  show x.toModel.unpack.isInf = _
  rcases unpack_cases x with ⟨h, hunpack⟩ | ⟨h, s, hunpack⟩ | ⟨h, -, hinf⟩
  · rw [hunpack, decide_eq_false h.ne']
    rfl
  · rw [hunpack, decide_eq_true h]
    rfl
  · rw [hinf, decide_eq_false h.ne]

/-- The pattern of a number comes out as it was put in. -/
theorem toBits_ofBits {b : UInt64} (h : b.toNat % signBit ≤ infinity) :
    (Float.ofBits b).toBits = b := by
  have hvalid : Format.binary64.Valid b.toBitVec := by
    refine ⟨fun he hm => absurd h (Nat.not_le.mpr ?_)⟩
    replace he := (unpackExponent_eq_iff _).mp he
    replace hm := mt (unpackMantissa_eq_iff _).mpr hm
    show infinity < b.toBitVec.toNat % signBit
    simp only [infinity, signBit, hiddenBit]
    omega
  have hpack := pack_unpack_of_valid hvalid
  show UInt64.ofBitVec (UnpackedFloat.pack .binary64 (UnpackedFloat.unpack .binary64 b.toBitVec)) = b
  rw [hpack]

theorem toBits_ofMagnitude (negative : Bool) {bits : ℕ} (h : bits ≤ infinity) :
    (ofMagnitude negative bits).toBits.toNat = if negative then bits + signBit else bits := by
  have hbits : bits < signBit := Nat.lt_of_le_of_lt h (by decide)
  have hsign : signBit + signBit = 2 ^ 64 := rfl
  obtain ⟨whole, hwhole⟩ : ∃ whole, whole = if negative then bits + signBit else bits := ⟨_, rfl⟩
  have hlt : whole < 2 ^ 64 := by
    rw [hwhole]
    split <;> omega
  have hmod : whole % signBit = bits := by
    rw [hwhole]
    split
    · rw [Nat.add_mod_right, Nat.mod_eq_of_lt hbits]
    · exact Nat.mod_eq_of_lt hbits
  have htoNat : (UInt64.ofNat whole).toNat = whole := UInt64.toNat_ofNat_of_lt' hlt
  rw [ofMagnitude, ← hwhole, toBits_ofBits (by rw [htoNat, hmod]; exact h), htoNat]

theorem magnitude_ofMagnitude (negative : Bool) {bits : ℕ} (h : bits ≤ infinity) :
    magnitude (ofMagnitude negative bits) = bits := by
  have hbits : bits < signBit := Nat.lt_of_le_of_lt h (by decide)
  rw [magnitude, toBits_ofMagnitude negative h]
  split
  · rw [Nat.add_mod_right, Nat.mod_eq_of_lt hbits]
  · exact Nat.mod_eq_of_lt hbits

theorem isNegative_ofMagnitude (negative : Bool) {bits : ℕ} (h : bits ≤ infinity) :
    isNegative (ofMagnitude negative bits) = negative := by
  have hbits : bits < signBit := Nat.lt_of_le_of_lt h (by decide)
  rw [isNegative, toBits_ofMagnitude negative h]
  cases negative with
  | false => exact decide_eq_false (Nat.not_le.mpr hbits)
  | true => exact decide_eq_true (Nat.le_add_left _ _)

theorem isNaN_ofMagnitude (negative : Bool) {bits : ℕ} (h : bits ≤ infinity) :
    (ofMagnitude negative bits).isNaN = false := by
  rw [isNaN_eq, magnitude_ofMagnitude negative h]
  exact decide_eq_false (Nat.not_lt.mpr h)

theorem isInf_ofMagnitude (negative : Bool) {bits : ℕ} (h : bits ≤ infinity) :
    (ofMagnitude negative bits).isInf = decide (bits = infinity) := by
  rw [isInf_eq, magnitude_ofMagnitude negative h]

/-! ## Numbers put together -/

theorem toBits_injective {x y : Float} (h : x.toBits = y.toBits) : x = y := by
  obtain ⟨⟨b, hb⟩⟩ := x
  obtain ⟨⟨c, hc⟩⟩ := y
  obtain rfl : b = c := h
  rfl

theorem magnitude_le_infinity {x : Float} (h : x.isNaN = false) : magnitude x ≤ infinity := by
  rw [isNaN_eq] at h
  exact Nat.not_lt.mp (of_decide_eq_false h)

/-- A number is put together from its sign and its magnitude. -/
theorem ofMagnitude_magnitude {x : Float} (h : x.isNaN = false) :
    ofMagnitude (isNegative x) (magnitude x) = x := by
  refine toBits_injective (UInt64.toNat_inj.mp ?_)
  have hlt : x.toBits.toNat < 2 ^ 64 := x.toBits.toNat_lt
  have hsign : signBit + signBit = 2 ^ 64 := rfl
  rw [toBits_ofMagnitude _ (magnitude_le_infinity h), magnitude, isNegative]
  by_cases hle : signBit ≤ x.toBits.toNat
  · rw [decide_eq_true hle, if_pos rfl, Nat.mod_eq_sub_mod hle, Nat.mod_eq_of_lt (by omega),
      Nat.sub_add_cancel hle]
  · rw [decide_eq_false hle, if_neg Bool.false_ne_true, Nat.mod_eq_of_lt (Nat.not_le.mp hle)]

/-- A number that is one is equal to itself. -/
theorem beq_self {x : Float} (h : x.isNaN = false) : (x == x) = true := by
  have hbeq : (x == x) = (x.toModel.unpack.compare x.toModel.unpack == some .eq) := rfl
  have hnan : x.toModel.unpack.isNaN = false := h
  rw [hbeq]
  generalize x.toModel.unpack = u at hnan
  cases u with
  | notANumber => cases hnan
  | infinity s => cases s <;> rfl
  | zero s => rfl
  | finite s m e hm => cases s <;> simp [UnpackedFloat.compare]

end Binary64

end Lipi
