import SettingsLang.Decimal.Binary64

/-!
TOML values. A table keeps its entries in the order of the document, which decides what a reader
of the table complains about first.
-/

namespace SettingsLang.Toml

/-- A TOML value. Of a date or time only the text is kept. -/
inductive Value where
  | text (value : String)
  | integer (value : Int)
  | float (value : Binary64)
  | boolean (value : Bool)
  | datetime (source : String)
  | array (items : List Value)
  | table (entries : List (String × Value))

end SettingsLang.Toml
