import SettingsLang.Proofs.Numerals
import SettingsLang.Scalar

/-!
Scalars other than text are written without loss. Their texts are words, integers and numerals, so
a reader tries these in turn, and what it reads first is what was written. Two scalars with one text
are then the same one, of the same kind; the bits of a float are told, also the sign of a zero.
-/

namespace SettingsLang.Scalar

/-- A boolean, an integer or a float that is no NaN. The NaNs share a text, and a text may look
like any other scalar. -/
def IsLiteral : Scalar → Prop
  | .boolean _ | .integer _ => True
  | .float value => value.isNaN = false
  | .text _ => False

instance : (scalar : Scalar) → Decidable scalar.IsLiteral
  | .boolean _ | .integer _ => .isTrue trivial
  | .float value => inferInstanceAs (Decidable (value.isNaN = false))
  | .text _ => .isFalse id

/-- The scalar other than text that a text writes. -/
def ofText? (text : String) : Option Scalar :=
  if text = "true" then some (.boolean true)
  else if text = "false" then some (.boolean false)
  else match Decimal.integer? text.toList with
    | some value => some (.integer value)
    | none => (Binary64.ofText? text).map .float

theorem ofText?_integer {text : String} {value : Int}
    (h : Decimal.integer? text.toList = some value) : ofText? text = some (.integer value) := by
  have hword (word : String) (hnone : Decimal.integer? word.toList = none) : text ≠ word := by
    rintro rfl
    simp [hnone] at h
  rw [ofText?, if_neg (hword "true" rfl), if_neg (hword "false" rfl), h]

theorem ofText?_float {text : String} {value : Binary64}
    (hinteger : Decimal.integer? text.toList = none) (h : Binary64.ofText? text = some value) :
    ofText? text = some (.float value) := by
  have hword (word : String) (hnone : Binary64.ofText? word = none) : text ≠ word := by
    rintro rfl
    simp [hnone] at h
  rw [ofText?, if_neg (hword "true" rfl), if_neg (hword "false" rfl), hinteger, h]
  rfl

/-- Only the two infinities are without a numeral. -/
theorem finite_or_infinity {value : Binary64} (h : value.isNaN = false) :
    value.exponent ≠ Binary64.topExponent ∨ value = Binary64.infinity value.negative := by
  obtain ⟨negative, exponent, fraction⟩ := value
  by_cases htop : exponent = Binary64.topExponent
  · have hfraction : fraction = 0 := by
      simpa [Binary64.isNaN, htop] using h
    right
    rw [htop, hfraction]
    rfl
  · exact Or.inl htop

/-- A literal reads back from its text. -/
theorem ofText?_render {scalar : Scalar} (h : scalar.IsLiteral) :
    ofText? scalar.render = some scalar := by
  cases scalar with
  | boolean value => cases value <;> rfl
  | integer value => exact ofText?_integer (Decimal.integer?_integerText value)
  | float value =>
      rcases finite_or_infinity h with hfinite | hinfinite
      · exact ofText?_float (Binary64.integer?_textIn _ hfinite)
          (Binary64.ofText?_textIn _ hfinite)
      · rw [hinfinite]
        cases value.negative <;> rfl
  | text value => exact h.elim

/-- Booleans, integers and floats other than NaNs have the same text only if they are the same: of
one kind, and with the same truth value, the same integer or the same bits. No float has the text
of an integer, be it a whole number or not. -/
theorem literals_written_without_loss {first second : Scalar} (hfirst : first.IsLiteral)
    (hsecond : second.IsLiteral) : first.render = second.render ↔ first = second := by
  constructor
  · intro h
    have hread := ofText?_render hfirst
    rw [h, ofText?_render hsecond] at hread
    exact (Option.some.inj hread).symm
  · rintro rfl
    rfl

/-- Three as a float is not written as the integer, and the two zeros are written apart. -/
theorem three_and_zeros_written_apart :
    let whole : Scalar := .float ⟨false, 1024, 2251799813685248⟩
    let zero (negative : Bool) : Scalar := .float ⟨negative, 0, 0⟩
    whole.IsLiteral ∧ whole.render = "3.0" ∧ whole.render ≠ (Scalar.integer 3).render ∧
      (zero false).render ≠ (zero true).render := by
  intro whole zero
  have hwhole : whole.IsLiteral := rfl
  have hinteger : (Scalar.integer 3).IsLiteral := trivial
  have hzero (negative : Bool) : (zero negative).IsLiteral := rfl
  refine ⟨hwhole, by decide +kernel, ?_, ?_⟩
  · rw [Ne, literals_written_without_loss hwhole hinteger]
    exact Scalar.noConfusion
  · rw [Ne, literals_written_without_loss (hzero false) (hzero true)]
    simp [zero]

end SettingsLang.Scalar
