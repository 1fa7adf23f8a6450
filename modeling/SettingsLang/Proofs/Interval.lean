import SettingsLang.Decimal.Shortest
import SettingsLang.Proofs.Digits
import SettingsLang.Proofs.Rounding

/-!
Every value in the interval around a number rounds to this number. The interval is measured in
quarters of the number's last place: it reaches two of them up, and two of them down or only one
below a power of two. A value has the leading bit of the number unless it lies below the power of
two that the number is, where the places are half as far apart and the number is two of them.
-/

namespace SettingsLang

-- `^` is the one of the definitions
attribute [local instance (high)] instPowNat

namespace Binary64

/-- A value lies in the interval; the ends belong to it if it is closed. -/
def Neighbourhood.Contains (n : Neighbourhood) (value : ℚ) : Prop :=
  if n.closed then n.low ≤ value * n.denominator ∧ value * n.denominator ≤ n.high
  else n.low < value * n.denominator ∧ value * n.denominator < n.high

section Interval

variable (x : Binary64)

/-- A quarter of the last place of a number. -/
def quarter : ℚ :=
  2 ^ (x.scale - 2)

/-- The lower end of the interval in quarters of the last place. -/
def lowQuarters : Nat :=
  if x.fraction.val = 0 ∧ 1 < x.exponent.val then 4 * x.significand - 1 else 4 * x.significand - 2

theorem quarter_pos : 0 < x.quarter :=
  zpow_pos two_pos _

theorem low_eq : x.neighbourhood.low = x.lowQuarters * 2 ^ (x.scale - 2).toNat :=
  rfl

theorem value_eq : x.neighbourhood.value = 4 * x.significand * 2 ^ (x.scale - 2).toNat :=
  rfl

theorem high_eq : x.neighbourhood.high = (4 * x.significand + 2) * 2 ^ (x.scale - 2).toNat :=
  rfl

theorem denominator_pos : 0 < x.neighbourhood.denominator :=
  Nat.two_pow_pos _

theorem exists_quarters (value : ℚ) : ∃ quarters, value = quarters * x.quarter :=
  ⟨value / x.quarter, (div_mul_cancel₀ value x.quarter_pos.ne').symm⟩

theorem contains_quarters_iff (quarters : ℚ) :
    x.neighbourhood.Contains (quarters * x.quarter) ↔
      if x.significand % 2 = 0 then x.lowQuarters ≤ quarters ∧ quarters ≤ 4 * x.significand + 2
      else x.lowQuarters < quarters ∧ quarters < 4 * x.significand + 2 := by
  have hscaled : quarters * x.quarter * (x.neighbourhood.denominator : ℚ) =
      quarters * 2 ^ (x.scale - 2).toNat := by
    simp only [neighbourhood, quarter, Nat.cast_pow, Nat.cast_ofNat]
    rw [mul_assoc, zpow_mul_pow_toNat two_ne_zero]
  have hlow : (x.neighbourhood.low : ℚ) = x.lowQuarters * 2 ^ (x.scale - 2).toNat := by
    rw [low_eq]
    push_cast
    rfl
  have hhigh : (x.neighbourhood.high : ℚ) =
      (4 * x.significand + 2) * 2 ^ (x.scale - 2).toNat := by
    rw [high_eq]
    push_cast
    rfl
  have hpos : (0 : ℚ) < 2 ^ (x.scale - 2).toNat := by positivity
  have hclosed : x.neighbourhood.closed = true ↔ x.significand % 2 = 0 := by
    simp only [neighbourhood, beq_iff_eq]
  simp only [Neighbourhood.Contains, hclosed, hscaled, hlow, hhigh,
    mul_le_mul_iff_of_pos_right hpos, mul_lt_mul_iff_of_pos_right hpos]

variable {x}

theorem cast_fractionCount : ((fractionCount : Nat) : ℚ) = 2 ^ 52 := by
  norm_num

theorem significand_lt (x : Binary64) : x.significand < 2 * fractionCount := by
  have hfraction := x.fraction.isLt
  unfold significand
  split <;> omega

/-- Only the least numbers lack the leading bit. -/
theorem le_significand (h : -1074 < x.scale) : fractionCount ≤ x.significand := by
  unfold scale at h
  unfold significand
  split
  · next hzero =>
      rw [hzero] at h
      simp at h
  · exact Nat.le_add_right _ _

theorem le_scale (x : Binary64) : -1074 ≤ x.scale := by
  unfold scale
  omega

theorem significand_power (h : x.fraction.val = 0 ∧ 1 < x.exponent.val) :
    x.significand = fractionCount := by
  have hnormal : x.exponent ≠ 0 := by
    intro hzero
    simp [hzero] at h
  rw [significand, if_neg hnormal, h.1, Nat.add_zero]

/-- The interval reaches at most two quarters down. -/
theorem four_mul_le_lowQuarters (x : Binary64) : (4 * x.significand : ℚ) ≤ x.lowQuarters + 2 := by
  have hnat : 4 * x.significand ≤ x.lowQuarters + 2 := by
    unfold lowQuarters
    split <;> omega
  exact_mod_cast hnat

/-- Above a power of two the places are twice as far apart as below it. -/
theorem lowQuarters_power (hscale : -1074 < x.scale) (h : x.significand = fractionCount) :
    x.lowQuarters = 4 * x.significand - 1 := by
  have hexponent : 1 < x.exponent.val := by
    unfold scale at hscale
    omega
  have hfraction : x.fraction.val = 0 := by
    unfold significand at h
    split at h
    · next hzero => simp [hzero] at hexponent
    · omega
  rw [lowQuarters, if_pos ⟨hfraction, hexponent⟩]

theorem bounds_of_contains {quarters : ℚ}
    (h : x.neighbourhood.Contains (quarters * x.quarter)) :
    x.lowQuarters ≤ quarters ∧ quarters ≤ 4 * x.significand + 2 := by
  rw [contains_quarters_iff] at h
  split at h
  · exact h
  · exact ⟨h.1.le, h.2.le⟩

/-- A value in the interval is nearer to the number than to the others with its last place. -/
theorem nearest_of_contains {quarters : ℚ}
    (h : x.neighbourhood.Contains (quarters * x.quarter)) :
    Nearest (quarters / 4) x.significand := by
  have hreach := x.four_mul_le_lowQuarters
  obtain ⟨hleft, hright⟩ := bounds_of_contains h
  refine ⟨by linarith, by linarith, ?_⟩
  rw [contains_quarters_iff] at h
  split at h
  · next heven => exact Or.inl heven
  · exact Or.inr ⟨by linarith, by linarith⟩

theorem two_le_quarters (hx : 0 < x.significand) {quarters : ℚ}
    (h : x.neighbourhood.Contains (quarters * x.quarter)) : 2 ≤ quarters := by
  have hreach := x.four_mul_le_lowQuarters
  have hone : (1 : ℚ) ≤ x.significand := by exact_mod_cast hx
  obtain ⟨hleft, -⟩ := bounds_of_contains h
  linarith

theorem pos_of_contains (hx : 0 < x.significand) {value : ℚ}
    (h : x.neighbourhood.Contains value) : 0 < value := by
  obtain ⟨quarters, rfl⟩ := x.exists_quarters value
  have htwo := two_le_quarters hx h
  exact mul_pos (by linarith) x.quarter_pos

theorem quarters_lt_of_contains {quarters : ℚ}
    (h : x.neighbourhood.Contains (quarters * x.quarter)) : quarters < 2 ^ 55 := by
  have hsignificand : (x.significand + 1 : ℚ) ≤ 2 * fractionCount := by
    exact_mod_cast Nat.succ_le_of_lt x.significand_lt
  obtain ⟨-, hright⟩ := bounds_of_contains h
  rw [cast_fractionCount] at hsignificand
  linarith

/-- The values that round to some number below infinity other than zero. -/
theorem range_of_contains (hfinite : x.exponent ≠ topExponent) (hx : 0 < x.significand)
    {value : ℚ} (h : x.neighbourhood.Contains value) :
    (2 : ℚ) ^ (-1075 : ℤ) ≤ value ∧ value < 2 ^ (1024 : ℤ) := by
  have hexponent : x.exponent.val ≠ 2047 := fun heq => hfinite (Fin.ext heq)
  have hquarter := x.quarter_pos
  have hleast : (2 : ℚ) ^ (-1076 : ℤ) ≤ x.quarter := by
    apply zpow_le_zpow_right₀ one_le_two
    have hscale := x.le_scale
    omega
  have hmost : x.quarter ≤ (2 : ℚ) ^ (969 : ℤ) := by
    apply zpow_le_zpow_right₀ one_le_two
    unfold scale
    omega
  obtain ⟨quarters, rfl⟩ := x.exists_quarters value
  have htwo := two_le_quarters hx h
  have hbelow := quarters_lt_of_contains h
  constructor
  · calc (2 : ℚ) ^ (-1075 : ℤ) = 2 * 2 ^ (-1076 : ℤ) := by
          rw [← zpow_one_add₀ two_ne_zero]
          norm_num
      _ ≤ quarters * x.quarter := mul_le_mul htwo hleast (by positivity) (by linarith)
  · calc quarters * x.quarter < 2 ^ 55 * x.quarter := mul_lt_mul_of_pos_right hbelow hquarter
      _ ≤ 2 ^ 55 * 2 ^ (969 : ℤ) := mul_le_mul_of_nonneg_left hmost (by positivity)
      _ = 2 ^ (1024 : ℤ) := by
          rw [← zpow_natCast, ← zpow_add₀ two_ne_zero]
          norm_num

/-- A power of two in quarters of the last place. -/
theorem zpow_eq_quarters (x : Binary64) (place : ℤ) :
    (2 : ℚ) ^ (x.scale + place) = 2 ^ (place + 2) * x.quarter := by
  rw [quarter, ← zpow_add₀ two_ne_zero]
  congr 1
  ring

theorem log_lt_iff (x : Binary64) {quarters : ℚ} (h : 0 < quarters) (place : ℤ) :
    Int.log 2 (quarters * x.quarter) < x.scale + place ↔ quarters < 2 ^ (place + 2) := by
  rw [← Int.lt_zpow_iff_log_lt Nat.one_lt_two (mul_pos h x.quarter_pos), Nat.cast_ofNat,
    zpow_eq_quarters, mul_lt_mul_iff_of_pos_right x.quarter_pos]

/-- The last place to which a value of the interval is rounded is that of the number or, just below
a power of two, the next one. -/
theorem place_of_contains (hx : 0 < x.significand) {quarters : ℚ}
    (h : x.neighbourhood.Contains (quarters * x.quarter)) :
    max (-1074) (Int.log 2 (quarters * x.quarter) - 52) = x.scale ∨
      (max (-1074) (Int.log 2 (quarters * x.quarter) - 52) = x.scale - 1 ∧ -1074 < x.scale ∧
        quarters < 2 ^ 54) := by
  have htwo := two_le_quarters hx h
  have hlog := x.log_lt_iff (show 0 < quarters by linarith)
  have hbelow : Int.log 2 (quarters * x.quarter) < x.scale + 53 := by
    apply (hlog 53).mpr
    exact_mod_cast quarters_lt_of_contains h
  have hscale := x.le_scale
  have hlead : Int.log 2 (quarters * x.quarter) < x.scale + 52 ↔ quarters < 2 ^ 54 := by
    exact_mod_cast hlog 52
  by_cases hbit : Int.log 2 (quarters * x.quarter) < x.scale + 52
  · -- among the least numbers there is no finer place to go to
    rcases hscale.eq_or_lt with hleast | habove
    · left
      omega
    · have hnormal : (fractionCount : ℚ) ≤ x.significand := by
        exact_mod_cast le_significand habove
      have hreach := x.four_mul_le_lowQuarters
      have hnext : ¬ Int.log 2 (quarters * x.quarter) < x.scale + 51 := by
        obtain ⟨hleft, -⟩ := bounds_of_contains h
        rw [cast_fractionCount] at hnormal
        rw [hlog 51]
        norm_num
        linarith
      right
      refine ⟨?_, habove, hlead.mp hbit⟩
      omega
  · left
    omega

/-- Just below a power of two the places are half as far apart, and the number is twice as many of
them. -/
theorem nearest_below_power (hscale : -1074 < x.scale) {quarters : ℚ}
    (h : x.neighbourhood.Contains (quarters * x.quarter)) (hlead : quarters < 2 ^ 54) :
    x.significand = fractionCount ∧ Nearest (quarters / 2) (2 * fractionCount) := by
  have hnormal := le_significand hscale
  have hreach := x.four_mul_le_lowQuarters
  obtain ⟨hlow, -⟩ := bounds_of_contains h
  have hpower : x.significand = fractionCount := by
    have hcast : (x.significand : ℚ) < fractionCount + 1 := by
      rw [cast_fractionCount]
      linarith
    have hnat : x.significand < fractionCount + 1 := by exact_mod_cast hcast
    omega
  have hquarters := lowQuarters_power hscale hpower
  rw [hquarters, hpower] at hlow
  refine ⟨hpower, ?_, ?_, Or.inl (by norm_num)⟩
  · norm_num at hlow ⊢
    linarith
  · norm_num at hlead ⊢
    linarith

/-- The number's place among the magnitudes. -/
def rank (x : Binary64) : Nat :=
  x.exponent * fractionCount + x.fraction

theorem rank_eq (x : Binary64) :
    x.rank = x.significand + (x.scale + 1074).toNat * fractionCount := by
  unfold rank scale significand
  split
  · next hzero => simp [hzero]
  · next hzero =>
      have hpos : x.exponent.val ≠ 0 := fun h => hzero (Fin.ext h)
      obtain ⟨place, hplace⟩ := Nat.exists_eq_succ_of_ne_zero hpos
      have hcount : (max 1 (x.exponent : ℤ) - 1075 + 1074).toNat = place := by
        omega
      rw [hcount, hplace, Nat.succ_mul]
      omega

/-- A number below infinity is found by its place. -/
theorem ofRank_rank (h : x.exponent ≠ topExponent) : ofRank x.negative x.rank = x := by
  have hexponent : x.exponent.val < 2047 := by
    have hne : x.exponent.val ≠ 2047 := fun heq => h (Fin.ext heq)
    omega
  have hfraction := x.fraction.isLt
  have hrank : x.rank < 2047 * fractionCount := by
    have hmul := Nat.mul_le_mul_right fractionCount (Nat.succ_le_of_lt hexponent)
    rw [Nat.succ_mul] at hmul
    unfold rank
    omega
  have hdiv : x.rank / fractionCount = x.exponent := by
    rw [rank, Nat.mul_comm, Nat.mul_add_div (by norm_num), Nat.div_eq_of_lt hfraction,
      Nat.add_zero]
  have hmod : x.rank % fractionCount = x.fraction := by
    rw [rank, Nat.mul_comm, Nat.mul_add_mod, Nat.mod_eq_of_lt hfraction]
  rw [ofRank, dif_pos hrank]
  simp only [hdiv, hmod]

/-- Every value in the interval around a number is nearest to it. -/
theorem nearestRank_eq (hx : 0 < x.significand) {num den : Nat} (hden : 0 < den)
    (h : x.neighbourhood.Contains (num / den)) : nearestRank num den = x.rank := by
  have hnum : 0 < num := by
    by_contra hzero
    have hpos := pos_of_contains hx h
    simp [Nat.eq_zero_of_not_pos hzero] at hpos
  obtain ⟨quarters, hvalue⟩ := x.exists_quarters (num / den)
  rw [hvalue] at h
  have hscaled (place : ℤ) :
      (num : ℚ) / den / 2 ^ (x.scale + place) = quarters / 2 ^ (place + 2) := by
    rw [hvalue, zpow_eq_quarters, mul_div_mul_right _ _ x.quarter_pos.ne']
  simp only [nearestRank]
  rw [if_neg hnum.ne', leadingBit_eq_log hnum hden, hvalue]
  obtain hplace | ⟨hplace, hscale, hlead⟩ := place_of_contains hx h
  · have hnearest : Nearest ((num : ℚ) / den / 2 ^ x.scale) x.significand := by
      have hunit := hscaled 0
      norm_num at hunit
      rw [hunit]
      exact nearest_of_contains h
    rw [hplace, roundHalfEven_shifted hden hnearest, rank_eq]
  · -- the integer that comes out fills the finer places, and its rank is the number's
    obtain ⟨hpower, hdoubled⟩ := nearest_below_power hscale h hlead
    have hnearest : Nearest ((num : ℚ) / den / 2 ^ (x.scale - 1)) (2 * fractionCount) := by
      have hunit := hscaled (-1)
      norm_num at hunit
      rw [sub_eq_add_neg, hunit]
      exact hdoubled
    have hcount : (x.scale + 1074).toNat = (x.scale - 1 + 1074).toNat + 1 := by
      omega
    rw [hplace, roundHalfEven_shifted hden hnearest, rank_eq, hpower, hcount,
      Nat.succ_mul (x.scale - 1 + 1074).toNat]
    omega

end Interval

end Binary64

namespace Decimal

/-- The size of a decimal, without its sign. -/
def size (d : Decimal) : ℚ :=
  d.mantissa * 10 ^ d.exponent

/-- The leading digit tells the size. -/
theorem size_bounds {d : Decimal} (h : d.mantissa ≠ 0) :
    (10 : ℚ) ^ (d.exponent + width d.mantissa - 1) ≤ d.size ∧
      d.size < 10 ^ (d.exponent + width d.mantissa) := by
  have hpower : (0 : ℚ) < 10 ^ d.exponent := zpow_pos (by norm_num) _
  have hwidth := width_pos d.mantissa
  have hlow : (10 : ℚ) ^ (width d.mantissa - 1) ≤ d.mantissa := by
    exact_mod_cast pow_width_le h
  have hhigh : (d.mantissa : ℚ) < 10 ^ width d.mantissa := by
    exact_mod_cast lt_pow_width d.mantissa
  constructor
  · have hplace : d.exponent + width d.mantissa - 1 =
        ((width d.mantissa - 1 : Nat) : ℤ) + d.exponent := by
      omega
    rw [hplace, zpow_add₀ (by norm_num), zpow_natCast, size]
    exact mul_le_mul_of_nonneg_right hlow hpower.le
  · rw [add_comm, zpow_add₀ (by norm_num), zpow_natCast, size]
    exact mul_lt_mul_of_pos_right hhigh hpower

/-- All numbers lie within the powers of ten that decimals are compared with. -/
theorem two_pow_lt_ten_pow : 2 ^ 1024 < 10 ^ 310 ∧ 2 ^ 1075 < 10 ^ 330 := by
  decide +kernel

/-- A decimal that is compared with the numbers is within these powers of ten. -/
theorem place_bounds {d : Decimal} (h : d.mantissa ≠ 0) (hleast : (2 : ℚ) ^ (-1075 : ℤ) ≤ d.size)
    (hmost : d.size < 2 ^ (1024 : ℤ)) :
    -330 < d.exponent + width d.mantissa ∧ d.exponent + width d.mantissa - 1 < 310 := by
  obtain ⟨hlow, hhigh⟩ := size_bounds h
  have hten : (1 : ℚ) < 10 := by norm_num
  constructor
  · apply (zpow_lt_zpow_iff_right₀ hten).mp
    calc (10 : ℚ) ^ (-330 : ℤ) < 2 ^ (-1075 : ℤ) := by
          rw [zpow_neg, zpow_neg, inv_lt_inv₀ (by positivity) (by positivity)]
          exact_mod_cast two_pow_lt_ten_pow.2
      _ ≤ d.size := hleast
      _ < 10 ^ (d.exponent + width d.mantissa) := hhigh
  · apply (zpow_lt_zpow_iff_right₀ hten).mp
    calc (10 : ℚ) ^ (d.exponent + width d.mantissa - 1) ≤ d.size := hlow
      _ < 2 ^ (1024 : ℤ) := hmost
      _ < 10 ^ (310 : ℤ) := by exact_mod_cast two_pow_lt_ten_pow.1

/-- A decimal in the interval around a number reads as this number. -/
theorem toBinary64_eq {d : Decimal} {x : Binary64} (hfinite : x.exponent ≠ Binary64.topExponent)
    (hx : 0 < x.significand) (hsign : d.negative = x.negative)
    (h : x.neighbourhood.Contains d.size) : d.toBinary64 = x := by
  have hmantissa : d.mantissa ≠ 0 := by
    intro hzero
    have hpos := Binary64.pos_of_contains hx h
    simp [size, hzero] at hpos
  obtain ⟨hleast, hmost⟩ := Binary64.range_of_contains hfinite hx h
  obtain ⟨hlow, hhigh⟩ := place_bounds hmantissa hleast hmost
  have hsmall : ¬ d.exponent + width d.mantissa < -330 := by omega
  have hlarge : ¬ 310 < d.exponent + width d.mantissa := by omega
  have hrank : Binary64.ofRank d.negative x.rank = x := by
    rw [hsign]
    exact Binary64.ofRank_rank hfinite
  have hsplit := zpow_mul_pow_toNat (show (10 : ℚ) ≠ 0 by norm_num) d.exponent
  simp only [toBinary64]
  rw [if_neg (not_or.mpr ⟨hmantissa, hsmall⟩), if_neg hlarge]
  -- one of the two natural powers of ten is one, the other is in the quotient
  split
  · next hwhole =>
      have hnone : (-d.exponent).toNat = 0 := by omega
      rw [Binary64.nearestRank_eq hx Nat.one_pos, hrank]
      rw [hnone, pow_zero, mul_one] at hsplit
      rw [size, hsplit] at h
      rw [Nat.cast_one, div_one]
      exact_mod_cast h
  · next hwhole =>
      have hnone : d.exponent.toNat = 0 := by omega
      rw [Binary64.nearestRank_eq hx (by positivity), hrank]
      rw [hnone, pow_zero] at hsplit
      rw [size, eq_div_of_mul_eq (by positivity) hsplit, mul_one_div] at h
      exact_mod_cast h

/-- A decimal without size reads as the zero of its sign. -/
theorem toBinary64_zero {d : Decimal} {x : Binary64} (hfinite : x.exponent ≠ Binary64.topExponent)
    (hx : x.significand = 0) (hsign : d.negative = x.negative) (h : d.size = 0) :
    d.toBinary64 = x := by
  have hmantissa : d.mantissa = 0 := by
    have hpower : (10 : ℚ) ^ d.exponent ≠ 0 := by positivity
    rw [size, mul_eq_zero_iff_right hpower] at h
    exact_mod_cast h
  have hrank : x.rank = 0 := by
    unfold Binary64.significand at hx
    unfold Binary64.rank
    split at hx
    · next hzero => simp [hzero, hx]
    · omega
  simp only [toBinary64]
  rw [if_pos (Or.inl hmantissa), hsign, ← hrank]
  exact Binary64.ofRank_rank hfinite

end Decimal

end SettingsLang
