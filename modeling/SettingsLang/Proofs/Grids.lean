import SettingsLang.Proofs.Interval

/-!
The shortest decimal of a number rounds to this number. A grid that is finer than the interval
around a number is wide has a decimal in it, and then one next to the number is in it. The grid of
seventeen digits is finer than the interval around every number.
-/

namespace SettingsLang.Binary64

-- `^` is the one of the definitions
attribute [local instance (high)] instPowNat

namespace Neighbourhood

variable (n : Neighbourhood) (exponent : ℤ)

/-- The decimal of a grid that is next to the number and not above it. -/
def below : Nat :=
  n.value * 10 ^ (-exponent).toNat / (n.denominator * 10 ^ exponent.toNat)

/-- Decimals of a grid and fractions of the interval are compared as integers. -/
theorem scaled_eq (point : Nat) :
    (point * 10 ^ exponent * n.denominator : ℚ) * 10 ^ (-exponent).toNat =
      (point * (n.denominator * 10 ^ exponent.toNat) : Nat) := by
  push_cast
  rw [← zpow_mul_pow_toNat (by norm_num) exponent]
  ring

/-- The number lies between its two neighbours on a grid. -/
theorem value_between (hdenominator : 0 < n.denominator) :
    (n.below exponent * 10 ^ exponent * n.denominator : ℚ) ≤ n.value ∧
      (n.value : ℚ) < (n.below exponent + 1 : Nat) * 10 ^ exponent * n.denominator := by
  have hpos : (0 : ℚ) < 10 ^ (-exponent).toNat := by positivity
  have hstep : 0 < n.denominator * 10 ^ exponent.toNat := by positivity
  constructor
  · rw [← mul_le_mul_iff_of_pos_right hpos, scaled_eq]
    exact_mod_cast Nat.div_mul_le_self _ _
  · rw [← mul_lt_mul_iff_of_pos_right hpos, scaled_eq]
    exact_mod_cast Nat.lt_mul_of_div_lt (Nat.lt_succ_self _) hstep

/-- A decimal of a grid is found to be in the interval. -/
def inside (point : Nat) : Bool :=
  let scaled := point * (n.denominator * 10 ^ exponent.toNat)
  let raise := 10 ^ (-exponent).toNat
  if n.closed then n.low * raise ≤ scaled && scaled ≤ n.high * raise
  else n.low * raise < scaled && scaled < n.high * raise

theorem inside_iff (point : Nat) :
    n.inside exponent point = true ↔ n.Contains (point * 10 ^ exponent) := by
  have hpos : (0 : ℚ) < 10 ^ (-exponent).toNat := by positivity
  unfold Contains inside
  rw [← mul_le_mul_iff_of_pos_right hpos, ← mul_le_mul_iff_of_pos_right hpos (c := (n.high : ℚ)),
    ← mul_lt_mul_iff_of_pos_right hpos, ← mul_lt_mul_iff_of_pos_right hpos (c := (n.high : ℚ)),
    scaled_eq]
  split
  · rw [Bool.and_eq_true, decide_eq_true_eq, decide_eq_true_eq]
    norm_cast
  · rw [Bool.and_eq_true, decide_eq_true_eq, decide_eq_true_eq]
    norm_cast

/-- A grid has a decimal in the interval, or its two decimals next to the number are not in it. -/
theorem onGrid?_cases :
    (∃ digits, n.onGrid? exponent = some digits ∧ n.Contains (digits * 10 ^ exponent)) ∨
      (n.onGrid? exponent = none ∧ ¬ n.Contains (n.below exponent * 10 ^ exponent) ∧
        ¬ n.Contains ((n.below exponent + 1 : Nat) * 10 ^ exponent)) := by
  unfold onGrid?
  dsimp only
  split
  · next hbelow habove =>
      refine Or.inl ⟨_, rfl, (n.inside_iff exponent _).mp ?_⟩
      split
      · exact habove
      · exact hbelow
  · next hbelow habove => exact Or.inl ⟨_, rfl, (n.inside_iff exponent _).mp hbelow⟩
  · next hbelow habove => exact Or.inl ⟨_, rfl, (n.inside_iff exponent _).mp habove⟩
  · next hbelow habove =>
      right
      refine ⟨rfl, ?_, ?_⟩
      · rw [← inside_iff]
        exact Bool.eq_false_iff.mp hbelow
      · rw [← inside_iff]
        exact Bool.eq_false_iff.mp habove

variable {n exponent}

theorem contains_of_lt {value : ℚ} (hlow : n.low < value * n.denominator)
    (hhigh : value * n.denominator < n.high) : n.Contains value := by
  unfold Contains
  split
  · exact ⟨hlow.le, hhigh.le⟩
  · exact ⟨hlow, hhigh⟩

/-- A grid that is finer than the interval is wide has a decimal in it. -/
theorem onGrid?_ne_none (hdenominator : 0 < n.denominator) (hlow : n.low < n.value)
    (hhigh : n.value < n.high)
    (hfine : (10 : ℚ) ^ exponent * n.denominator < n.high - n.low) :
    n.onGrid? exponent ≠ none := by
  obtain ⟨hbelow, habove⟩ := n.value_between exponent hdenominator
  have hlow : (n.low : ℚ) < n.value := by exact_mod_cast hlow
  have hhigh : (n.value : ℚ) < n.high := by exact_mod_cast hhigh
  obtain ⟨digits, hdigits, -⟩ | ⟨-, hleft, hright⟩ := n.onGrid?_cases exponent
  · simp [hdigits]
  · have hlower : (n.below exponent * 10 ^ exponent * n.denominator : ℚ) ≤ n.low := by
      by_contra hinside
      exact hleft (contains_of_lt (not_le.mp hinside) (hbelow.trans_lt hhigh))
    have hupper : (n.high : ℚ) ≤ (n.below exponent + 1 : Nat) * 10 ^ exponent * n.denominator := by
      by_contra hinside
      exact hright (contains_of_lt (hlow.trans habove) (not_le.mp hinside))
    push_cast at hupper
    linarith

/-- A search that comes to a grid with a decimal in the interval ends with such a decimal. -/
theorem firstOnGrid_contains {tries later : Nat} (hlater : later < tries)
    (h : n.onGrid? (exponent - later) ≠ none) :
    n.Contains ((n.firstOnGrid tries exponent).1 * 10 ^ (n.firstOnGrid tries exponent).2) := by
  -- a try either ends the search or is not the later grid, which is then one try nearer
  induction tries generalizing exponent later with
  | zero => omega
  | succ tries ih =>
      rw [firstOnGrid]
      obtain ⟨digits, hdigits, hcontains⟩ | ⟨hnone, -, -⟩ := n.onGrid?_cases exponent
      · rw [hdigits]
        exact hcontains
      · rw [hnone]
        cases later with
        | zero =>
            rw [Nat.cast_zero, sub_zero] at h
            exact absurd hnone h
        | succ later =>
            apply ih (Nat.lt_of_succ_lt_succ hlater)
            rw [Nat.cast_succ, add_comm, ← sub_sub] at h
            exact h

end Neighbourhood

/-- The place of the decimal point is not beyond the leading digit. -/
theorem decimalPoint_le {num den : Nat} (hnum : 0 < num) (hden : 0 < den) :
    (10 : ℚ) ^ (decimalPoint num den - 1) ≤ num / den := by
  have hpos : (0 : ℚ) < den := by exact_mod_cast hden
  rw [le_div_iff₀ hpos]
  unfold decimalPoint
  split
  · next hwhole =>
      have hquotient : num / den ≠ 0 := Nat.ne_of_gt (Nat.div_pos hwhole hden)
      have hlow := Nat.mul_le_of_le_div _ _ _ (Decimal.pow_width_le hquotient)
      have hplace : (Decimal.width (num / den) : ℤ) - 1 =
          (Decimal.width (num / den) - 1 : Nat) := by
        have hwidth := Decimal.width_pos (num / den)
        omega
      rw [hplace, zpow_natCast]
      exact_mod_cast hlow
  · next hfraction =>
      have hhigh : den ≤ num * 10 ^ Decimal.width ((den - 1) / num) := by
        have hquotient := (Nat.div_lt_iff_lt_mul hnum).mp (Decimal.lt_pow_width ((den - 1) / num))
        rw [Nat.mul_comm] at hquotient
        omega
      have hplace : 1 - (Decimal.width ((den - 1) / num) : ℤ) - 1 =
          -(Decimal.width ((den - 1) / num) : ℤ) := by
        omega
      rw [hplace, zpow_neg, zpow_natCast, inv_mul_le_iff₀ (by positivity), mul_comm]
      exact_mod_cast hhigh

theorem lowQuarters_lt {x : Binary64} (hx : 0 < x.significand) :
    x.lowQuarters < 4 * x.significand := by
  unfold lowQuarters
  split <;> omega

/-- Sixteen digits after the leading one are finer than the interval around any number. -/
theorem quarters_fine (x : Binary64) :
    4 * x.significand + 10 ^ 16 * x.lowQuarters < 10 ^ 16 * (4 * x.significand + 2) := by
  have hcount : fractionCount = 4503599627370496 := rfl
  have hsignificand := x.significand_lt
  unfold lowQuarters
  split
  · next hpower =>
      rw [significand_power hpower]
      omega
  · omega

theorem seventeenth_digit_fine (x : Binary64) {place : ℤ}
    (h : (10 : ℚ) ^ place ≤ x.neighbourhood.value / x.neighbourhood.denominator) :
    (10 : ℚ) ^ (place - 16) * x.neighbourhood.denominator <
      x.neighbourhood.high - x.neighbourhood.low := by
  have hdenominator : (0 : ℚ) < x.neighbourhood.denominator := by
    exact_mod_cast x.denominator_pos
  have hup : (0 : ℚ) < 2 ^ (x.scale - 2).toNat := by positivity
  have hfine : (4 * x.significand + 10 ^ 16 * x.lowQuarters : ℚ) <
      10 ^ 16 * (4 * x.significand + 2) := by
    exact_mod_cast x.quarters_fine
  have hscaled := mul_lt_mul_of_pos_right hfine hup
  have hplace : (10 : ℚ) ^ place = 10 ^ 16 * 10 ^ (place - 16) := by
    rw [← zpow_natCast, ← zpow_add₀ (by norm_num)]
    congr 1
    push_cast
    ring
  rw [le_div_iff₀ hdenominator, hplace, value_eq] at h
  push_cast at h
  rw [low_eq, high_eq]
  push_cast
  linarith

/-- The shortest decimal is in the interval around its number. -/
theorem shortest_contains {x : Binary64} (hx : 0 < x.significand) :
    x.neighbourhood.Contains (x.shortest.1 * 10 ^ x.shortest.2) := by
  have hup : 0 < 2 ^ (x.scale - 2).toNat := by positivity
  have hvalue : 0 < x.neighbourhood.value := by
    rw [value_eq]
    positivity
  have hlow : x.neighbourhood.low < x.neighbourhood.value :=
    Nat.mul_lt_mul_of_pos_right (lowQuarters_lt hx) hup
  have hhigh : x.neighbourhood.value < x.neighbourhood.high :=
    Nat.mul_lt_mul_of_pos_right (by omega) hup
  have hlast : 16 < 17 := by omega
  apply Neighbourhood.firstOnGrid_contains hlast
  apply Neighbourhood.onGrid?_ne_none x.denominator_pos hlow hhigh
  exact x.seventeenth_digit_fine (decimalPoint_le hvalue x.denominator_pos)

end SettingsLang.Binary64
