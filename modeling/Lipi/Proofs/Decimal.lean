/-
Decimals and the doubles nearest to them.

Two bounds settle the decimals that are far too great or too small for a double. They are
never in the way of rounding (`Decimal.nearest_eq`), and so the nearest double depends on the
value of a decimal and not on how it is written (`Decimal.nearest_congr`).

The fewest digits that are found for a double therefore read back (`Decimal.nearest_shortest`):
the search takes no others, the expansion it would end with has the value of the double
exactly, and dropping zeros at the end does not change the value.
-/
import Lipi.Decimal.Shortest
import Lipi.Proofs.Binary64

set_option autoImplicit false

namespace Lipi.Decimal

/-! ## Values -/

/-- The value as a quotient. -/
def toRat (d : Decimal) : ℚ := d.coefficient * 10 ^ d.exponent

theorem toRat_value (d : Decimal) : d.value.toRat = d.toRat := by
  rw [value, Ratio.toRat_scaled]
  rfl

/-- Three tenths of the bits, as digits. -/
theorem pow_ten_le_pow_two (bits : ℕ) : 10 ^ (bits * 3 / 10) ≤ 2 ^ bits := by
  -- To the tenth power there is nothing to divide, and `10 ^ 3` is below `2 ^ 10`.
  refine (Nat.pow_le_pow_iff_left (n := 10) (by decide)).mp ?_
  calc (10 ^ (bits * 3 / 10)) ^ 10 = 10 ^ (bits * 3 / 10 * 10) := (pow_mul _ _ _).symm
    _ ≤ 10 ^ (3 * bits) := Nat.pow_le_pow_right (by decide) (by omega)
    _ = (10 ^ 3) ^ bits := pow_mul _ _ _
    _ ≤ (2 ^ 10) ^ bits := Nat.pow_le_pow_left (by decide) bits
    _ = (2 ^ bits) ^ 10 := by rw [← pow_mul, ← pow_mul, Nat.mul_comm]

/-- Thirty-one hundredths of the bits and one more, as digits. -/
theorem pow_two_le_pow_ten (bits : ℕ) : 2 ^ bits ≤ 10 ^ (bits * 31 / 100 + 1) := by
  refine (Nat.pow_le_pow_iff_left (n := 100) (by decide)).mp ?_
  calc (2 ^ bits) ^ 100 = (2 ^ 100) ^ bits := by rw [← pow_mul, ← pow_mul, Nat.mul_comm]
    _ ≤ (10 ^ 31) ^ bits := Nat.pow_le_pow_left (by decide) bits
    _ = 10 ^ (31 * bits) := (pow_mul _ _ _).symm
    _ ≤ 10 ^ ((bits * 31 / 100 + 1) * 100) := Nat.pow_le_pow_right (by decide) (by omega)
    _ = (10 ^ (bits * 31 / 100 + 1)) ^ 100 := pow_mul _ _ _

theorem pow_lowerPower_le {d : Decimal} (h : d.coefficient ≠ 0) : 10 ^ d.lowerPower ≤ d.toRat := by
  have hle : 10 ^ (d.coefficient.log2 * 3 / 10) ≤ d.coefficient :=
    (pow_ten_le_pow_two _).trans (Nat.log2_self_le h)
  have hcast : (10 : ℚ) ^ (d.coefficient.log2 * 3 / 10) ≤ d.coefficient := by exact_mod_cast hle
  rw [lowerPower, add_comm, zpow_add₀ (by norm_num), zpow_natCast, toRat]
  exact mul_le_mul_of_nonneg_right hcast (by positivity)

theorem toRat_lt_pow_upperPower (d : Decimal) : d.toRat < 10 ^ d.upperPower := by
  have hlt : d.coefficient < 10 ^ ((d.coefficient.log2 + 1) * 31 / 100 + 1) :=
    Nat.lt_log2_self.trans_le (pow_two_le_pow_ten _)
  have hcast : (d.coefficient : ℚ) < 10 ^ ((d.coefficient.log2 + 1) * 31 / 100 + 1) := by
    exact_mod_cast hlt
  rw [upperPower, add_comm, zpow_add₀ (by norm_num), zpow_natCast, toRat]
  exact mul_lt_mul_of_pos_right hcast (by positivity)

theorem two_pow_le_pow_hugePower : (2 : ℚ) ^ 1024 ≤ 10 ^ hugePower := by
  -- The eighth part of the power is small enough to be computed.
  have hstep : (2 : ℚ) ^ 128 ≤ 4 * 10 ^ 38 := by norm_num
  calc (2 : ℚ) ^ 1024 = (2 ^ 128) ^ 8 := by rw [← pow_mul]
    _ ≤ (4 * 10 ^ 38) ^ 8 := by gcongr
    _ = 4 ^ 8 * 10 ^ 304 := by rw [mul_pow, ← pow_mul]
    _ ≤ 10 ^ 5 * 10 ^ 304 := by gcongr; norm_num
    _ = 10 ^ hugePower := by
      rw [← pow_add, ← zpow_natCast]
      rfl

theorem pow_tinyPower_lt_two_pow : (10 : ℚ) ^ tinyPower < 2 ^ (-1075 : ℤ) := by
  have hbound : (2 : ℚ) ^ 1075 < 10 ^ 330 := by
    calc (2 : ℚ) ^ 1075 = 2 ^ 1024 * 2 ^ 51 := by rw [← pow_add]
      _ ≤ 10 ^ hugePower * 2 ^ 51 := by gcongr; exact two_pow_le_pow_hugePower
      _ < 10 ^ hugePower * 10 ^ 21 := by gcongr; norm_num
      _ = 10 ^ 330 := by
        rw [← zpow_natCast, ← zpow_natCast, ← zpow_add₀ (by norm_num)]
        rfl
  have hinv := inv_strictAnti₀ (by positivity) hbound
  rw [← zpow_natCast, ← zpow_natCast, ← zpow_neg, ← zpow_neg] at hinv
  exact hinv

/-- **The bounds decide nothing that rounding would decide differently.** -/
theorem nearest_eq (d : Decimal) : d.nearest = Binary64.nearest d.value := by
  unfold nearest
  split
  · next hzero =>
    refine (Binary64.nearest_of_toRat_eq_zero ?_).symm
    rw [toRat_value, toRat, hzero, Nat.cast_zero, zero_mul]
  · next hne =>
    split
    · next hhuge =>
      refine (Binary64.nearest_of_huge ?_).symm
      rw [toRat_value]
      calc (2 : ℚ) ^ 1024 ≤ 10 ^ hugePower := two_pow_le_pow_hugePower
        _ ≤ 10 ^ d.lowerPower := zpow_le_zpow_right₀ (by norm_num) hhuge
        _ ≤ d.toRat := pow_lowerPower_le hne
    · split
      · next htiny =>
        refine (Binary64.nearest_of_tiny ?_).symm
        rw [toRat_value]
        calc d.toRat < 10 ^ d.upperPower := d.toRat_lt_pow_upperPower
          _ ≤ 10 ^ tinyPower := zpow_le_zpow_right₀ (by norm_num) htiny
          _ < 2 ^ (-1075 : ℤ) := pow_tinyPower_lt_two_pow
      · rfl

/-- The nearest double depends on the value alone. -/
theorem nearest_congr {c d : Decimal} (h : c.toRat = d.toRat) : c.nearest = d.nearest := by
  rw [nearest_eq, nearest_eq]
  exact Binary64.nearest_congr (by rw [toRat_value, toRat_value, h])

theorem nearest_le_infinity (d : Decimal) : d.nearest ≤ Binary64.infinity := by
  rw [nearest_eq]
  exact Binary64.nearest_le_infinity _

/-! ## The fewest digits -/

theorem toRat_trimmed (coefficient : ℕ) (exponent : ℤ) :
    (trimmed coefficient exponent).toRat = (⟨coefficient, exponent⟩ : Decimal).toRat := by
  fun_induction trimmed coefficient exponent with
  | case1 coefficient exponent hzero ih =>
    have hten : coefficient = coefficient / 10 * 10 := by omega
    rw [ih, toRat, toRat]
    dsimp only
    rw [zpow_add_one₀ (by norm_num), mul_comm ((10 : ℚ) ^ exponent), ← mul_assoc]
    congr 1
    exact_mod_cast hten.symm
  | case2 => rfl

theorem toRat_exact (bits : ℕ) : (exact bits).toRat = (Binary64.value bits).toRat := by
  rw [Binary64.toRat_value, exact]
  generalize Binary64.decode bits = decoded
  obtain ⟨m, e⟩ := decoded
  -- One of the two powers is one, so a half is five times a tenth.
  dsimp only [toRat]
  rcases le_total 0 e with he | he
  · have hneg : (-e).toNat = 0 := by omega
    have hpow : (2 : ℚ) ^ e.toNat = 2 ^ e := by rw [← zpow_natCast, Int.toNat_of_nonneg he]
    rw [min_eq_right he, hneg, zpow_zero, mul_one, ← hpow]
    push_cast [Nat.pow_eq]
    rw [mul_one]
  · have hpos : e.toNat = 0 := by omega
    have hneg : e = -((-e).toNat : ℤ) := by omega
    rw [min_eq_left he, hpos]
    generalize (-e).toNat = n at hneg
    subst hneg
    push_cast [Nat.pow_eq]
    rw [mul_one, zpow_neg, zpow_neg, zpow_natCast, zpow_natCast, mul_assoc]
    congr 1
    rw [← div_eq_mul_inv, div_eq_iff (by positivity), inv_mul_eq_div, eq_div_iff (by positivity),
      ← mul_pow]
    norm_num

theorem nearest_exact {bits : ℕ} (h : bits < Binary64.infinity) : (exact bits).nearest = bits := by
  have hvalue : (exact bits).value.toRat = (Binary64.value bits).toRat := by
    rw [toRat_value, toRat_exact]
  rw [nearest_eq, Binary64.nearest_congr hvalue, Binary64.nearest_value h]

theorem nearest_of_readingBack {bits : ℕ} {unit : ℤ} {d : Decimal}
    (h : readingBack bits unit = some d) : d.nearest = bits := by
  unfold readingBack at h
  dsimp only at h
  split at h
  · next hnear =>
    cases h
    exact hnear
  · split at h
    · next hfar =>
      cases h
      exact hfar
    · cases h

theorem nearest_of_search {bits tries : ℕ} {unit : ℤ} {d : Decimal}
    (h : search bits unit tries = some d) : d.nearest = bits := by
  induction tries generalizing unit with
  | zero => cases h
  | succ tries ih =>
    rw [search] at h
    split at h
    · next found hfound =>
      cases h
      exact nearest_of_readingBack hfound
    · exact ih h

/-- **The fewest digits of a finite double read back.** -/
theorem nearest_shortest {bits : ℕ} (h : bits < Binary64.infinity) :
    (shortest bits).nearest = bits := by
  unfold shortest
  split
  · next hzero =>
    rw [hzero]
    rfl
  · dsimp only
    -- The zeros at the end that are dropped stand in the power of ten.
    rw [nearest_congr (toRat_trimmed _ _)]
    cases hfound : search bits (log10 (Binary64.value bits)) 17 with
    | none => exact nearest_exact h
    | some found => exact nearest_of_search hfound

end Lipi.Decimal
