import SettingsLang.Decimal.Shortest

/-!
Scalars: what a rule compares with and what a parameter is set to. Each keeps the kind it was
written as; only its text reaches a command.
-/

namespace SettingsLang

inductive Scalar where
  | boolean (value : Bool)
  | integer (value : Int)
  | float (value : Binary64)
  | text (value : String)
  deriving DecidableEq, Repr

namespace Scalar

/-- The text of a scalar. A float always shows a point or an exponent, so it is never taken for an
integer; text stands for itself. -/
def render : Scalar → String
  | .boolean value => if value then "true" else "false"
  | .integer value => Decimal.integerText value
  | .float value => value.render
  | .text value => value

end Scalar

end SettingsLang
