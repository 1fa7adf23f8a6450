import SettingsLang.Decimal.Digits

/-!
Numbers of the IEEE 754 format binary64, kept as the three fields of the interchange format, and
the number nearest to a given decimal. All arithmetic is exact and on natural numbers.
-/

namespace SettingsLang

-- `^` is the one of core, also where a library with others is imported
attribute [local instance (high)] instPowNat

/-- The number of fractions, `2 ^ 52`. -/
abbrev Binary64.fractionCount : Nat := 4503599627370496

/-- A binary64 number: sign, biased exponent, fraction. Two numbers are equal here exactly if
their bits are, so the zeros differ and so do the many NaNs. -/
structure Binary64 where
  negative : Bool
  exponent : Fin 2048
  fraction : Fin Binary64.fractionCount
  deriving DecidableEq, Repr

namespace Binary64

/-- The biased exponent that infinities and NaNs have. -/
def topExponent : Fin 2048 := 2047

def isNaN (x : Binary64) : Bool :=
  x.exponent == topExponent && x.fraction != 0

def isInfinite (x : Binary64) : Bool :=
  x.exponent == topExponent && x.fraction == 0

/-- A quiet NaN, with the fraction `2 ^ 51`. -/
def nan : Binary64 := ⟨false, topExponent, 2251799813685248⟩

def infinity (negative : Bool) : Binary64 := ⟨negative, topExponent, 0⟩

/-- The integer `m` of a finite number `m · 2 ^ scale`. -/
def significand (x : Binary64) : Nat :=
  if x.exponent = 0 then x.fraction else fractionCount + x.fraction

/-- The exponent `q` of a finite number `significand · 2 ^ q`. -/
def scale (x : Binary64) : Int :=
  max 1 (x.exponent : Int) - 1075

/-- The magnitudes in rising order are numbered from zero, infinity being `2047 · 2 ^ 52`. A
number beyond it stands for an overflow. -/
def ofRank (negative : Bool) (rank : Nat) : Binary64 :=
  if h : rank < 2047 * fractionCount then
    have hlt : rank < fractionCount * 2048 := Nat.lt_trans h (by decide)
    ⟨negative, ⟨rank / fractionCount, Nat.div_lt_of_lt_mul hlt⟩,
      ⟨rank % fractionCount, Nat.mod_lt rank (by decide)⟩⟩
  else infinity negative

/-- The integer nearest to `num / den`, a tie going to the even one. -/
def roundHalfEven (num den : Nat) : Nat :=
  let floor := num / den
  let twice := 2 * (num % den)
  if twice < den then floor
  else if den < twice then floor + 1
  else floor + floor % 2

/-- The exponent of the leading bit of `num / den`, for positive arguments. -/
def leadingBit (num den : Nat) : Int :=
  let guess := (num.log2 : Int) - den.log2
  let reached :=
    if 0 ≤ guess then den <<< guess.toNat ≤ num else den ≤ num <<< (-guess).toNat
  if reached then guess else guess - 1

/-- The magnitude nearest to `num / den` by its place in the order, a tie going to the even
significand. Below the normal numbers the places are `2 ^ -1074` apart; above, each doubling
takes up `2 ^ 52` of them. -/
def nearestRank (num den : Nat) : Nat :=
  if num = 0 then 0
  else
    let q := max (-1074) (leadingBit num den - 52)
    let rounded :=
      if 0 ≤ q then roundHalfEven num (den <<< q.toNat)
      else roundHalfEven (num <<< (-q).toNat) den
    rounded + (q + 1074).toNat * fractionCount

end Binary64

/-- A decimal number `± mantissa · 10 ^ exponent`. -/
structure Decimal where
  negative : Bool
  mantissa : Nat
  exponent : Int
  deriving DecidableEq, Repr

namespace Decimal

/-- The binary64 number nearest to a decimal. A decimal of at least `10 ^ 310` overflows and one
below `10 ^ -330` is less than half of the least magnitude, whatever its digits, so no power of
ten is computed that the result does not need. -/
def toBinary64 (d : Decimal) : Binary64 :=
  let magnitude := d.exponent + width d.mantissa
  if d.mantissa = 0 ∨ magnitude < -330 then .ofRank d.negative 0
  else if 310 < magnitude then .infinity d.negative
  else if 0 ≤ d.exponent then
    .ofRank d.negative (Binary64.nearestRank (d.mantissa * 10 ^ d.exponent.toNat) 1)
  else
    .ofRank d.negative (Binary64.nearestRank d.mantissa (10 ^ (-d.exponent).toNat))

end Decimal

end SettingsLang
