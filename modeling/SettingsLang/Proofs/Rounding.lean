import Mathlib.Algebra.Order.Field.Power
import Mathlib.Data.Int.Log
import Mathlib.Data.Rat.Floor
import Mathlib.Tactic.FieldSimp
import Mathlib.Tactic.Linarith
import Mathlib.Tactic.NormNum
import Mathlib.Tactic.Positivity
import Mathlib.Tactic.Qify
import Mathlib.Tactic.Ring
import SettingsLang.Decimal.Binary64

/-!
A quotient is rounded to the nearest integer in units of a power of two. The value of the quotient
decides: its logarithm is the place of the leading bit, and an integer that is nearest to the value
is what rounding gives.
-/

namespace SettingsLang

-- `^` is the one of the definitions
attribute [local instance (high)] instPowNat

/-- One of the two natural powers is one. -/
theorem zpow_mul_pow_toNat {base : ℚ} (h : base ≠ 0) (q : ℤ) :
    base ^ q * base ^ (-q).toNat = base ^ q.toNat := by
  obtain ⟨n, rfl | rfl⟩ := q.eq_nat_or_neg
  · simp
  · simp [h]

/-- The logarithm of a value is told by the powers around it. -/
theorem log_eq {base : Nat} (hbase : 1 < base) {value : ℚ} {place : ℤ}
    (hlow : (base : ℚ) ^ place ≤ value) (hhigh : value < (base : ℚ) ^ (place + 1)) :
    Int.log base value = place := by
  have hpos : 0 < value :=
    lt_of_lt_of_le (zpow_pos (by exact_mod_cast Nat.zero_lt_of_lt hbase) place) hlow
  have hle := (Int.zpow_le_iff_le_log hbase hpos).mp hlow
  have hlt := (Int.lt_zpow_iff_log_lt hbase hpos).mp hhigh
  omega

namespace Binary64

/-! The nearest integer. -/

/-- An integer is the nearest one to a value, or the even one of two that are. -/
structure Nearest (value : ℚ) (k : Nat) : Prop where
  low : k - 1 / 2 ≤ value
  high : value ≤ k + 1 / 2
  tie : k % 2 = 0 ∨ (k - 1 / 2 < value ∧ value < k + 1 / 2)

theorem Nearest.scaled {num den k : Nat} (hden : 0 < den) (h : Nearest (num / den) k) :
    2 * (k * den) ≤ 2 * num + den ∧ 2 * num ≤ 2 * (k * den) + den ∧
      (k % 2 = 0 ∨ (2 * (k * den) < 2 * num + den ∧ 2 * num < 2 * (k * den) + den)) := by
  have hpos : (0 : ℚ) < den := by exact_mod_cast hden
  obtain ⟨hlow, hhigh, htie⟩ := h
  rw [le_div_iff₀ hpos] at hlow
  rw [div_le_iff₀ hpos] at hhigh
  rw [lt_div_iff₀ hpos, div_lt_iff₀ hpos] at htie
  refine ⟨?_, ?_, htie.imp_right fun ⟨hleft, hright⟩ => ⟨?_, ?_⟩⟩
  · qify
    linarith
  · qify
    linarith
  · qify
    linarith
  · qify
    linarith

theorem roundHalfEven_eq {num den k : Nat} (hden : 0 < den) (h : Nearest (num / den) k) :
    roundHalfEven num den = k := by
  obtain ⟨hlow, hhigh, htie⟩ := h.scaled hden
  have hsplit : num / den * den + num % den = num := by
    rw [Nat.mul_comm]
    exact Nat.div_add_mod num den
  have hrest : num % den < den := Nat.mod_lt num hden
  have hnear : k = num / den ∨ k = num / den + 1 := by
    by_contra hfar
    rcases Nat.lt_or_ge k (num / den) with hbelow | habove
    · have hmul := Nat.mul_le_mul_right den (Nat.succ_le_of_lt hbelow)
      rw [Nat.succ_mul] at hmul
      omega
    · have hmul := Nat.mul_le_mul_right den (show num / den + 2 ≤ k by omega)
      rw [Nat.add_mul] at hmul
      omega
  -- the rest against half of the divisor is then linear arithmetic over the products
  simp only [roundHalfEven]
  rcases hnear with rfl | rfl
  · split_ifs <;> omega
  · rw [Nat.add_mul, Nat.one_mul] at hlow hhigh htie
    split_ifs <;> omega

/-! The leading bit. -/

section Quotient

variable {num den : Nat}

theorem shifted_le_iff (num : Nat) (hden : 0 < den) (q : ℤ) :
    (if 0 ≤ q then den <<< q.toNat ≤ num else den ≤ num <<< (-q).toNat) ↔
      (2 : ℚ) ^ q ≤ num / den := by
  have hpos : (0 : ℚ) < den := by exact_mod_cast hden
  have hpower : (0 : ℚ) < 2 ^ (-q).toNat := by positivity
  rw [le_div_iff₀ hpos, ← mul_le_mul_iff_of_pos_right hpower, mul_right_comm,
    zpow_mul_pow_toNat (by norm_num), Nat.shiftLeft_eq, Nat.shiftLeft_eq]
  split
  · next hq =>
      have hnone : (-q).toNat = 0 := by omega
      rw [hnone, pow_zero, mul_one, mul_comm]
      exact_mod_cast Iff.rfl
  · next hq =>
      have hnone : q.toNat = 0 := by omega
      rw [hnone, pow_zero, one_mul]
      exact_mod_cast Iff.rfl

theorem log2_bounds {n : Nat} (h : 0 < n) :
    (2 : ℚ) ^ (n.log2 : ℤ) ≤ n ∧ (n : ℚ) < 2 ^ ((n.log2 : ℤ) + 1) := by
  constructor
  · exact_mod_cast Nat.log2_self_le (Nat.ne_of_gt h)
  · exact_mod_cast Nat.lt_log2_self (n := n)

/-- The leading bits of the two numbers leave two places for the one of the quotient. -/
theorem quotient_bounds (hnum : 0 < num) (hden : 0 < den) :
    (2 : ℚ) ^ ((num.log2 : ℤ) - den.log2 - 1) ≤ num / den ∧
      (num : ℚ) / den < 2 ^ ((num.log2 : ℤ) - den.log2 + 1) := by
  have hpos : (0 : ℚ) < den := by exact_mod_cast hden
  obtain ⟨hnumLow, hnumHigh⟩ := log2_bounds hnum
  obtain ⟨hdenLow, hdenHigh⟩ := log2_bounds hden
  rw [le_div_iff₀ hpos, div_lt_iff₀ hpos]
  constructor
  · calc (2 : ℚ) ^ ((num.log2 : ℤ) - den.log2 - 1) * den
        ≤ 2 ^ ((num.log2 : ℤ) - den.log2 - 1) * 2 ^ ((den.log2 : ℤ) + 1) :=
          mul_le_mul_of_nonneg_left hdenHigh.le (by positivity)
      _ = 2 ^ (num.log2 : ℤ) := by
          rw [← zpow_add₀ (by norm_num)]
          congr 1
          ring
      _ ≤ num := hnumLow
  · calc (num : ℚ) < 2 ^ ((num.log2 : ℤ) + 1) := hnumHigh
      _ = 2 ^ ((num.log2 : ℤ) - den.log2 + 1) * 2 ^ (den.log2 : ℤ) := by
          rw [← zpow_add₀ (by norm_num)]
          congr 1
          ring
      _ ≤ 2 ^ ((num.log2 : ℤ) - den.log2 + 1) * den :=
          mul_le_mul_of_nonneg_left hdenLow (by positivity)

theorem leadingBit_eq_log (hnum : 0 < num) (hden : 0 < den) :
    leadingBit num den = Int.log 2 ((num : ℚ) / den) := by
  obtain ⟨habove, hbelow⟩ := quotient_bounds hnum hden
  have hreached := shifted_le_iff num hden ((num.log2 : ℤ) - den.log2)
  symm
  simp only [leadingBit]
  by_cases hwhole : (2 : ℚ) ^ ((num.log2 : ℤ) - den.log2) ≤ num / den
  · rw [if_pos (hreached.mpr hwhole)]
    exact log_eq Nat.one_lt_two hwhole hbelow
  · rw [if_neg (mt hreached.mp hwhole)]
    apply log_eq Nat.one_lt_two habove
    rw [sub_add_cancel]
    exact lt_of_not_ge hwhole

/-- The quotient is rounded in units of a power of two. -/
theorem roundHalfEven_shifted (hden : 0 < den) {q : ℤ} {k : Nat}
    (h : Nearest (num / den / 2 ^ q) k) :
    (if 0 ≤ q then roundHalfEven num (den <<< q.toNat)
      else roundHalfEven (num <<< (-q).toNat) den) = k := by
  have hscaled : (num : ℚ) * 2 ^ (-q).toNat / (den * 2 ^ q.toNat) = num / den / 2 ^ q := by
    rw [← zpow_mul_pow_toNat two_ne_zero q]
    field_simp
  rw [← hscaled] at h
  split
  · next hq =>
      have hnone : (-q).toNat = 0 := by omega
      rw [hnone, pow_zero, mul_one] at h
      rw [Nat.shiftLeft_eq]
      apply roundHalfEven_eq (by positivity)
      exact_mod_cast h
  · next hq =>
      have hnone : q.toNat = 0 := by omega
      rw [hnone, pow_zero, mul_one] at h
      rw [Nat.shiftLeft_eq]
      apply roundHalfEven_eq hden
      exact_mod_cast h

end Quotient

end Binary64

end SettingsLang
