import Mathlib.Data.List.TakeWhile
import SettingsLang.Proofs.Grids
import SettingsLang.Proofs.Rendering

/-!
Numbers read back from their texts. A text of a finite number is a numeral, in any layout: a point
or an exponent cuts the digits, and the size that is written is the one of the shortest decimal. So
the numeral reads as the number, and it is not the text of an integer.
-/

namespace SettingsLang

-- `^` is the one of the definitions
attribute [local instance (high)] instPowNat

namespace Decimal

namespace Numeral

/-- How a numeral is written. -/
def source (numeral : Numeral) : List Char :=
  numeral.whole ++ numeral.fraction.elim [] ('.' :: ·) ++ numeral.exponent.elim [] ('e' :: ·)

/-- The digits of a numeral, without its exponent. -/
def mantissa (numeral : Numeral) : List Char :=
  numeral.whole ++ numeral.fraction.getD []

/-- A numeral writes a number of this size: it has digits in all parts, some of them before the
point, and is told from an integer by its point or its exponent. -/
structure Writes (numeral : Numeral) (size : ℚ) : Prop where
  whole_ne : numeral.whole ≠ []
  digits : AllDigits numeral.mantissa
  marked : numeral.fraction ≠ none ∨ numeral.exponent ≠ none
  reads : ∃ place : ℤ, numeral.exponent.elim (some 0) integer? = some place ∧
    ofDigits 10 numeral.mantissa * (10 : ℚ) ^ (place - (numeral.fraction.getD []).length) = size

/-- Digits with a point among them. -/
theorem writes_plain {whole fraction : List Char} (hne : whole ≠ [])
    (h : AllDigits (whole ++ fraction)) : Writes ⟨whole, some fraction, none⟩
      (ofDigits 10 (whole ++ fraction) * 10 ^ (-(fraction.length : ℤ))) where
  whole_ne := hne
  digits := h
  marked := Or.inl (Option.some_ne_none _)
  reads := ⟨0, rfl, by rw [zero_sub]; rfl⟩

/-- A numeral is cut where its point and its exponent mark are. -/
theorem cut_source {numeral : Numeral} (h : AllDigits numeral.mantissa) :
    cut numeral.source = numeral := by
  obtain ⟨whole, fraction, exponent⟩ := numeral
  obtain ⟨hwhole, hfraction⟩ := List.forall_mem_append.mp h
  have hpoint : ∀ c ∈ (fraction.elim [] ('.' :: ·)).head?, (c != '.') = false := by
    cases fraction <;> simp
  have hmark : ∀ c ∈ (exponent.elim [] ('e' :: ·)).head?, (!(c == 'e' || c == 'E')) = false := by
    cases exponent <;> simp
  have hdigit : ∀ c, isDigitOf 10 c = true →
      (c != '.') = true ∧ (!(c == 'e' || c == 'E')) = true := by
    intro c hc
    have hdot : c ≠ '.' := ne_of_isDigitOf hc rfl
    have hlower : c ≠ 'e' := ne_of_isDigitOf hc rfl
    have hupper : c ≠ 'E' := ne_of_isDigitOf hc rfl
    simp [hdot, hlower, hupper]
  have hbefore : ∀ c ∈ whole ++ fraction.elim [] ('.' :: ·),
      (!(c == 'e' || c == 'E')) = true := by
    intro c hc
    rcases List.mem_append.mp hc with hmem | hmem
    · exact (hdigit c (hwhole c hmem)).2
    · cases fraction with
      | none => cases hmem
      | some ds =>
          rcases List.mem_cons.mp hmem with rfl | hrest
          · rfl
          · exact (hdigit c (hfraction c hrest)).2
  obtain ⟨hmantissa, hexponent⟩ := takeWhile_of_stop hbefore hmark
  obtain ⟨hfront, hback⟩ := takeWhile_of_stop (fun c hc => (hdigit c (hwhole c hc)).1) hpoint
  simp only [cut, source, hmantissa, hexponent, hfront, hback]
  cases fraction <;> cases exponent <;> rfl

variable {numeral : Numeral} {size : ℚ}

theorem Writes.head?_source (h : numeral.Writes size) :
    ∀ c ∈ numeral.source.head?, isDigitOf 10 c = true := by
  obtain ⟨c, rest, hwhole⟩ := List.exists_cons_of_ne_nil h.whole_ne
  have hdigit : isDigitOf 10 c = true := h.digits c (by simp [mantissa, hwhole])
  simpa [source, hwhole] using hdigit

/-- A numeral with a sign reads as a decimal of this sign and size. -/
theorem Writes.read? (h : numeral.Writes size) (negative : Prop) [Decidable negative] :
    ∃ d : Decimal, Decimal.read? (if negative then '-' :: numeral.source else numeral.source) =
      some d ∧ d.negative = decide negative ∧ d.size = size := by
  obtain ⟨place, hplace, hsize⟩ := h.reads
  refine ⟨ofParts (decide negative) numeral.whole (numeral.fraction.getD []) place, ?_, rfl, hsize⟩
  have hempty : (numeral.whole ++ numeral.fraction.getD []).isEmpty = false := by
    simp [h.whole_ne]
  have hall : (numeral.whole ++ numeral.fraction.getD []).all (isDigitOf 10) = true :=
    List.all_eq_true.mpr h.digits
  rw [Decimal.read?, signed_digits h.head?_source]
  simp only [cut_source h.digits, hempty, hall, Bool.not_true, Bool.or_self, Bool.false_eq_true,
    if_false, Option.bind_eq_bind]
  cases hexponent : numeral.exponent with
  | none =>
      rw [hexponent] at hplace
      obtain rfl : 0 = place := Option.some.inj hplace
      rfl
  | some ds =>
      rw [hexponent, Option.elim_some] at hplace
      simp only [hplace, Option.bind_some]

theorem Writes.integer?_eq_none (h : numeral.Writes size) (negative : Prop) [Decidable negative] :
    integer? (if negative then '-' :: numeral.source else numeral.source) = none := by
  have hmark : ∃ c ∈ numeral.source, isDigitOf 10 c = false ∧ c ≠ '-' ∧ c ≠ '+' := by
    rcases h.marked with hfraction | hexponent
    · obtain ⟨ds, hds⟩ := Option.ne_none_iff_exists'.mp hfraction
      exact ⟨'.', by simp [source, hds], rfl, by decide⟩
    · obtain ⟨ds, hds⟩ := Option.ne_none_iff_exists'.mp hexponent
      exact ⟨'e', by simp [source, hds], rfl, by decide⟩
  obtain ⟨c, hc, hdigit, hsign⟩ := hmark
  have hmem : c ∈ if negative then '-' :: numeral.source else numeral.source := by
    split
    · exact List.mem_cons_of_mem _ hc
    · exact hc
  exact Decimal.integer?_eq_none hmem hdigit hsign

end Numeral

end Decimal

namespace Binary64

open Decimal (AllDigits ofDigits)

variable {ds : List Char}

/-- Digits written positionally keep their size. -/
theorem positional_writes (hds : AllDigits ds) (hne : ds ≠ []) (point : ℤ) :
    ∃ numeral : Decimal.Numeral, numeral.source = positional ds point ∧
      numeral.Writes (ofDigits 10 ds * 10 ^ (point - ds.length)) := by
  unfold positional
  split
  · next hsmall =>
      let fraction := List.replicate (-point).toNat '0' ++ ds
      have hall : AllDigits (['0'] ++ fraction) :=
        (Decimal.allDigits_zeros 1).append ((Decimal.allDigits_zeros _).append hds)
      have hvalue : ofDigits 10 (['0'] ++ fraction) = ofDigits 10 ds := by
        rw [← List.append_assoc, List.singleton_append, ← List.replicate_succ,
          Decimal.ofDigits_zeros_append]
      have hplace : point - ds.length = -(fraction.length : ℤ) := by
        rw [List.length_append, List.length_replicate]
        omega
      rw [hplace, ← hvalue]
      exact ⟨_, by simp [Decimal.Numeral.source, fraction],
        Decimal.Numeral.writes_plain (List.cons_ne_nil _ _) hall⟩
  · next hpoint =>
      split
      · next hlarge =>
          let whole := ds ++ List.replicate (point.toNat - ds.length) '0'
          have hall : AllDigits (whole ++ ['0']) :=
            (hds.append (Decimal.allDigits_zeros _)).append (Decimal.allDigits_zeros 1)
          have hvalue : ofDigits 10 (whole ++ ['0']) =
              ofDigits 10 ds * 10 ^ (point.toNat - ds.length + 1) := by
            rw [List.append_assoc, ← List.replicate_succ', Decimal.ofDigits_append_zeros]
          have hsize : (ofDigits 10 ds : ℚ) * 10 ^ (point - ds.length) =
              ofDigits 10 (whole ++ ['0']) * 10 ^ (-(['0'].length : ℤ)) := by
            rw [hvalue, List.length_singleton]
            push_cast
            rw [mul_assoc, ← zpow_natCast, ← zpow_add₀ (by norm_num)]
            congr 2
            omega
          rw [hsize]
          exact ⟨_, by simp [Decimal.Numeral.source, whole],
            Decimal.Numeral.writes_plain (by simp [whole, hne]) hall⟩
      · next hinside =>
          have hsome : ds.take point.toNat ≠ [] := by
            simp only [ne_eq, List.take_eq_nil_iff, hne, or_false]
            omega
          have hsplit : ds.take point.toNat ++ ds.drop point.toNat = ds :=
            List.take_append_drop _ ds
          have hplace : point - ds.length = -((ds.drop point.toNat).length : ℤ) := by
            rw [List.length_drop]
            omega
          have hall : AllDigits (ds.take point.toNat ++ ds.drop point.toNat) := by
            rw [hsplit]
            exact hds
          have hwrites := Decimal.Numeral.writes_plain hsome hall
          rw [hsplit, ← hplace] at hwrites
          exact ⟨_, by simp [Decimal.Numeral.source], hwrites⟩

/-- Digits written with an exponent keep their size. -/
theorem scientific_writes (hds : AllDigits ds) (hne : ds ≠ []) (point : ℤ) :
    ∃ numeral : Decimal.Numeral, numeral.source = scientific ds point ∧
      numeral.Writes (ofDigits 10 ds * 10 ^ (point - ds.length)) := by
  have hreads := Decimal.integer?_integerText (point - 1)
  match ds, hne with
  | [d], _ =>
      refine ⟨⟨[d], none, some (Decimal.integerText (point - 1)).toList⟩, rfl,
        ⟨List.cons_ne_nil _ _, hds, Or.inr (by simp), point - 1, hreads, ?_⟩⟩
      simp [Decimal.Numeral.mantissa]
  | d :: e :: rest, _ =>
      refine ⟨⟨[d], some (e :: rest), some (Decimal.integerText (point - 1)).toList⟩,
        by simp [Decimal.Numeral.source, scientific],
        ⟨List.cons_ne_nil _ _, hds, Or.inl (by simp), point - 1, hreads, ?_⟩⟩
      simp only [Decimal.Numeral.mantissa, Option.getD_some, List.singleton_append,
        List.length_cons]
      congr 2
      omega

theorem withoutTrailingZeros_append (ds : List Char) :
    ∃ count, ds = withoutTrailingZeros ds ++ List.replicate count '0' := by
  refine ⟨(ds.reverse.takeWhile (· == '0')).length, ?_⟩
  have hzeros : ds.reverse.takeWhile (· == '0') =
      List.replicate (ds.reverse.takeWhile (· == '0')).length '0' := by
    apply List.eq_replicate_of_mem
    intro c hc
    simpa using List.mem_takeWhile_imp hc
  have hsplit : ds.reverse =
      ds.reverse.takeWhile (· == '0') ++ ds.reverse.dropWhile (· == '0') :=
    List.takeWhile_append_dropWhile.symm
  rw [hzeros] at hsplit
  rw [withoutTrailingZeros, ← List.reverse_replicate, ← List.reverse_append, ← hsplit,
    List.reverse_reverse]

/-- The zeros at the end of the digits of a number are left out without loss. -/
theorem withoutTrailingZeros_digits {number : Nat} (h : number ≠ 0) (exponent : ℤ) :
    AllDigits (withoutTrailingZeros (Decimal.digits number)) ∧
      withoutTrailingZeros (Decimal.digits number) ≠ [] ∧
      (ofDigits 10 (withoutTrailingZeros (Decimal.digits number)) : ℚ) *
          10 ^ (exponent + (Decimal.digits number).length -
            (withoutTrailingZeros (Decimal.digits number)).length) =
        number * 10 ^ exponent := by
  obtain ⟨count, hcount⟩ := withoutTrailingZeros_append (Decimal.digits number)
  have hdigits := Decimal.allDigits_digits number
  have hlength := congrArg List.length hcount
  have hvalue := congrArg (ofDigits 10) hcount
  rw [List.length_append, List.length_replicate] at hlength
  rw [Decimal.ofDigits_digits, Decimal.ofDigits_append_zeros] at hvalue
  rw [hcount] at hdigits
  refine ⟨(List.forall_mem_append.mp hdigits).1, ?_, ?_⟩
  · intro hnone
    rw [hnone] at hvalue
    exact h (hvalue.trans (Nat.zero_mul _))
  · have hplace : exponent + (Decimal.digits number).length -
        (withoutTrailingZeros (Decimal.digits number)).length = (count : ℤ) + exponent := by
      omega
    rw [hplace, zpow_add₀ (by norm_num), zpow_natCast, ← mul_assoc]
    congr 1
    exact_mod_cast hvalue.symm

variable {x : Binary64}

theorem isNaN_eq_false (h : x.exponent ≠ topExponent) : x.isNaN = false := by
  simp [isNaN, h]

/-- A number below infinity is written as a numeral whose size is in the interval around it or,
where it has no such interval, zero. -/
theorem magnitudeText_writes (layout : Layout) (hfinite : x.exponent ≠ topExponent) :
    ∃ (numeral : Decimal.Numeral) (size : ℚ), numeral.source = magnitudeText layout x ∧
      numeral.Writes size ∧
      if x.significand = 0 then size = 0 else x.neighbourhood.Contains size := by
  have hinfinite : x.isInfinite = false := by
    simp [isInfinite, hfinite]
  simp only [magnitudeText, isNaN_eq_false hfinite, hinfinite, Bool.false_eq_true, if_false]
  split
  · next hzero =>
      have hvalue : ofDigits 10 (['0'] ++ ['0']) = 0 := Decimal.ofDigits_zeros 10 2
      have hall : AllDigits (['0'] ++ ['0']) := Decimal.allDigits_zeros 2
      have hwrites := Decimal.Numeral.writes_plain (List.cons_ne_nil '0' []) hall
      rw [hvalue, Nat.cast_zero, zero_mul] at hwrites
      exact ⟨_, 0, rfl, hwrites, rfl⟩
  · next hx =>
      have hcontains := shortest_contains (Nat.pos_of_ne_zero hx)
      have hnumber : x.shortest.1 ≠ 0 := by
        intro hzero
        have hpos := pos_of_contains (Nat.pos_of_ne_zero hx) hcontains
        simp [hzero] at hpos
      obtain ⟨hdigits, hne, hsize⟩ := withoutTrailingZeros_digits hnumber x.shortest.2
      split
      · obtain ⟨numeral, hsource, hwrites⟩ := positional_writes hdigits hne
          (x.shortest.2 + (Decimal.digits x.shortest.1).length)
        rw [hsize] at hwrites
        exact ⟨numeral, _, hsource, hwrites, hcontains⟩
      · obtain ⟨numeral, hsource, hwrites⟩ := scientific_writes hdigits hne
          (x.shortest.2 + (Decimal.digits x.shortest.1).length)
        rw [hsize] at hwrites
        exact ⟨numeral, _, hsource, hwrites, hcontains⟩

theorem textIn_toList (layout : Layout) (hfinite : x.exponent ≠ topExponent) :
    (x.textIn layout).toList =
      if x.negative = true then '-' :: magnitudeText layout x else magnitudeText layout x := by
  simp [textIn, isNaN_eq_false hfinite]

/-- A text that is a numeral is read as one. -/
theorem ofText?_of_read? {text : String} {d : Decimal} (h : Decimal.read? text.toList = some d) :
    ofText? text = some d.toBinary64 := by
  have hother (word : String) (hword : Decimal.read? word.toList = none) :
      (text == word) = false := by
    rw [beq_eq_false_iff_ne]
    rintro rfl
    simp [hword] at h
  rw [ofText?, hother "inf" rfl, hother "-inf" rfl, hother "NaN" rfl, h]
  rfl

section Finite

variable (layout : Layout) (hfinite : x.exponent ≠ topExponent)

include hfinite

/-- A number below infinity reads back from its text in any layout. -/
theorem ofText?_textIn : ofText? (x.textIn layout) = some x := by
  obtain ⟨numeral, size, hsource, hwrites, hsize⟩ := magnitudeText_writes layout hfinite
  obtain ⟨d, hread, hsign, rfl⟩ := hwrites.read? (x.negative = true)
  rw [hsource, ← textIn_toList layout hfinite] at hread
  rw [Bool.decide_eq_true] at hsign
  rw [ofText?_of_read? hread]
  -- zero is read by its sign alone, any other number by its interval
  split at hsize
  · next hx => rw [Decimal.toBinary64_zero hfinite hx hsign hsize]
  · next hx => rw [Decimal.toBinary64_eq hfinite (Nat.pos_of_ne_zero hx) hsign hsize]

/-- A number below infinity is not written as an integer. -/
theorem integer?_textIn : Decimal.integer? (x.textIn layout).toList = none := by
  obtain ⟨numeral, size, hsource, hwrites, -⟩ := magnitudeText_writes layout hfinite
  rw [textIn_toList layout hfinite, ← hsource]
  exact hwrites.integer?_eq_none _

end Finite

end Binary64

end SettingsLang
