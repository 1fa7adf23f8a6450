import Mathlib.Data.List.Induction
import Mathlib.Data.Nat.Log
import Mathlib.Tactic.Ring
import SettingsLang.Decimal.Numeral

/-!
Numbers written in decimal digits. What is written reads back as the number, and there are as many
digits as its size asks for. A digit is no sign, so an integer reads back with its sign.
-/

namespace SettingsLang.Decimal

-- `^` is the one of the definitions
attribute [local instance (high)] instPowNat

/-- All characters are decimal digits. -/
def AllDigits (cs : List Char) : Prop :=
  ∀ c ∈ cs, isDigitOf 10 c = true

theorem digitValue?_digitChar : ∀ n < 10, digitValue? (digitChar n) = some n := by
  decide

theorem isDigitOf_digitChar : ∀ n < 10, isDigitOf 10 (digitChar n) = true := by
  decide

theorem AllDigits.append {first second : List Char} (hfirst : AllDigits first)
    (hsecond : AllDigits second) : AllDigits (first ++ second) :=
  List.forall_mem_append.mpr ⟨hfirst, hsecond⟩

theorem allDigits_zeros (count : Nat) : AllDigits (List.replicate count '0') := by
  intro c hc
  rw [List.eq_of_mem_replicate hc]
  rfl

/-! The value of digits. -/

section Value

variable (base : Nat)

theorem ofDigits_snoc (cs : List Char) (c : Char) :
    ofDigits base (cs ++ [c]) = ofDigits base cs * base + (digitValue? c).getD 0 := by
  simp [ofDigits]

theorem ofDigits_append (first second : List Char) :
    ofDigits base (first ++ second) =
      ofDigits base first * base ^ second.length + ofDigits base second := by
  induction second using List.reverseRecOn with
  | nil => simp [ofDigits]
  | append_singleton second c ih =>
      rw [← List.append_assoc, ofDigits_snoc, ofDigits_snoc, ih, List.length_append,
        List.length_singleton, Nat.pow_succ]
      ring

theorem ofDigits_zeros (count : Nat) : ofDigits base (List.replicate count '0') = 0 := by
  have hzero : digitValue? '0' = some 0 := rfl
  induction count with
  | zero => rfl
  | succ count ih => simp [List.replicate_succ', ofDigits_snoc, ih, hzero]

/-- Zeros in front count for nothing. -/
theorem ofDigits_zeros_append (count : Nat) (cs : List Char) :
    ofDigits base (List.replicate count '0' ++ cs) = ofDigits base cs := by
  rw [ofDigits_append, ofDigits_zeros, Nat.zero_mul, Nat.zero_add]

/-- Zeros at the end count for their places. -/
theorem ofDigits_append_zeros (cs : List Char) (count : Nat) :
    ofDigits base (cs ++ List.replicate count '0') = ofDigits base cs * base ^ count := by
  rw [ofDigits_append, ofDigits_zeros, List.length_replicate, Nat.add_zero]

end Value

/-! The digits of a number. -/

/-- With enough fuel the digits of a number are put before others. -/
theorem ofDigits_digitsOnto {fuel n : Nat} (h : n < 10 ^ fuel) (rest : List Char) :
    ofDigits 10 (digitsOnto fuel n rest) = n * 10 ^ rest.length + ofDigits 10 rest := by
  induction fuel generalizing n rest with
  | zero =>
      have hzero : n = 0 := by simpa using h
      simp [digitsOnto, hzero]
  | succ fuel ih =>
      rw [digitsOnto]
      split
      · next hsmall =>
          rw [← List.singleton_append, ofDigits_append]
          simp [ofDigits, digitValue?_digitChar n hsmall]
      · have hdigit : n % 10 < 10 := Nat.mod_lt n (by omega)
        have hquotient : n / 10 < 10 ^ fuel := by
          rw [Nat.pow_succ] at h
          omega
        have hsplit : n = n / 10 * 10 + n % 10 := by omega
        rw [ih hquotient, ← List.singleton_append, ofDigits_append, List.length_append,
          List.length_singleton, Nat.add_comm 1, Nat.pow_succ]
        simp only [ofDigits, List.foldl_cons, List.foldl_nil, digitValue?_digitChar _ hdigit,
          Option.getD_some]
        conv_rhs => rw [hsplit]
        ring

theorem allDigits_digitsOnto (fuel n : Nat) {rest : List Char} (h : AllDigits rest) :
    AllDigits (digitsOnto fuel n rest) := by
  induction fuel generalizing n rest with
  | zero => exact h
  | succ fuel ih =>
      rw [digitsOnto]
      split
      · next hsmall => exact List.forall_mem_cons.mpr ⟨isDigitOf_digitChar n hsmall, h⟩
      · have hdigit : n % 10 < 10 := Nat.mod_lt n (by omega)
        exact ih _ (List.forall_mem_cons.mpr ⟨isDigitOf_digitChar _ hdigit, h⟩)

theorem length_digitsOnto {fuel n : Nat} (h : n < 10 ^ fuel) (hfuel : fuel ≠ 0)
    (rest : List Char) :
    (digitsOnto fuel n rest).length = Nat.log 10 n + 1 + rest.length := by
  induction fuel generalizing n rest with
  | zero => exact absurd rfl hfuel
  | succ fuel ih =>
      rw [digitsOnto]
      split
      · next hsmall =>
          rw [Nat.log_of_lt hsmall, List.length_cons]
          omega
      · next hlarge =>
          have hquotient : n / 10 < 10 ^ fuel := by
            rw [Nat.pow_succ] at h
            omega
          have hmore : fuel ≠ 0 := by
            rintro rfl
            rw [Nat.pow_zero] at hquotient
            omega
          rw [ih hquotient hmore, Nat.log_of_one_lt_of_le (by omega) (Nat.le_of_not_lt hlarge),
            List.length_cons]
          omega

theorem lt_pow_fuel (n : Nat) : n < 10 ^ (n.log2 + 1) :=
  Nat.lt_of_lt_of_le Nat.lt_log2_self (Nat.pow_le_pow_left (by omega) _)

theorem ofDigits_digits (n : Nat) : ofDigits 10 (digits n) = n := by
  rw [digits, ofDigits_digitsOnto (lt_pow_fuel n)]
  simp [ofDigits]

theorem allDigits_digits (n : Nat) : AllDigits (digits n) :=
  allDigits_digitsOnto _ n (List.forall_mem_nil _)

theorem width_eq_log (n : Nat) : width n = Nat.log 10 n + 1 :=
  length_digitsOnto (lt_pow_fuel n) (Nat.succ_ne_zero _) []

theorem lt_pow_width (n : Nat) : n < 10 ^ width n := by
  rw [width_eq_log]
  exact Nat.lt_pow_succ_log_self (by omega) n

theorem pow_width_le {n : Nat} (h : n ≠ 0) : 10 ^ (width n - 1) ≤ n := by
  rw [width_eq_log, Nat.add_sub_cancel]
  exact Nat.pow_log_le_self 10 h

theorem width_pos (n : Nat) : 0 < width n := by
  rw [width_eq_log]
  exact Nat.succ_pos _

theorem digits_ne_nil (n : Nat) : digits n ≠ [] :=
  List.length_pos_iff.mp (width_pos n)

/-! Signs. -/

theorem ne_of_isDigitOf {c other : Char} (h : isDigitOf 10 c = true)
    (hother : isDigitOf 10 other = false) : c ≠ other := by
  rintro rfl
  rw [h] at hother
  cases hother

/-- A minus sign is read off digits, where there is one. -/
theorem signed_digits {negative : Prop} [Decidable negative] {cs : List Char}
    (h : ∀ c ∈ cs.head?, isDigitOf 10 c = true) :
    signed (if negative then '-' :: cs else cs) = (decide negative, cs) := by
  by_cases hnegative : negative
  · simp [hnegative, signed]
  · rw [if_neg hnegative, decide_eq_false hnegative]
    cases cs with
    | nil => rfl
    | cons c rest =>
        have hdigit : isDigitOf 10 c = true := h c rfl
        unfold signed
        split
        · next heq => exact absurd (List.cons.inj heq).1 (ne_of_isDigitOf hdigit rfl)
        · next heq => exact absurd (List.cons.inj heq).1 (ne_of_isDigitOf hdigit rfl)
        · rfl

theorem AllDigits.head? {cs : List Char} (h : AllDigits cs) :
    ∀ c ∈ cs.head?, isDigitOf 10 c = true :=
  fun c hc => h c (List.mem_of_mem_head? hc)

/-- An integer reads back from its text. -/
theorem integer?_integerText (n : Int) : integer? (integerText n).toList = some n := by
  have hdigits := allDigits_digits n.natAbs
  have hall : (digits n.natAbs).all (isDigitOf 10) = true := List.all_eq_true.mpr hdigits
  have hempty : (digits n.natAbs).isEmpty = false := by
    simpa using digits_ne_nil n.natAbs
  rw [integerText, String.toList_ofList, integer?, signed_digits hdigits.head?]
  simp only [hempty, hall, ofDigits_digits, Bool.not_true, Bool.or_self, Bool.false_eq_true,
    if_false, decide_eq_true_eq, Option.some.injEq]
  split <;> omega

/-- What is no digit and no sign stands in no integer. -/
theorem integer?_eq_none {cs : List Char} {c : Char} (hmem : c ∈ cs)
    (hdigit : isDigitOf 10 c = false) (hsign : c ≠ '-' ∧ c ≠ '+') : integer? cs = none := by
  have hrest : c ∈ (signed cs).2 := by
    unfold signed
    split
    · simpa [hsign.1] using hmem
    · simpa [hsign.2] using hmem
    · exact hmem
  have hall : (signed cs).2.all (isDigitOf 10) = false :=
    List.all_eq_false.mpr ⟨c, hrest, by simp [hdigit]⟩
  rw [integer?]
  simp [hall]

end SettingsLang.Decimal
