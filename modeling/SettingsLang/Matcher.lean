/-!
Matchers: how a rule compares its criterion with its value. A description names a matcher by its
symbol, a command by its label.
-/

namespace SettingsLang

inductive Matcher where
  | is
  | isNot
  | includes
  | excludes
  deriving DecidableEq, Repr

namespace Matcher

def all : List Matcher :=
  [.is, .isNot, .includes, .excludes]

def symbol : Matcher → String
  | .is => "is"
  | .isNot => "is_not"
  | .includes => "includes"
  | .excludes => "excludes"

def label : Matcher → String
  | .is => "Is"
  | .isNot => "IsNot"
  | .includes => "Includes"
  | .excludes => "Excludes"

/-- The matcher of a symbol. Labels are no symbols, and case counts. -/
def ofSymbol? (symbol : String) : Option Matcher :=
  all.find? (·.symbol == symbol)

def ofLabel? (label : String) : Option Matcher :=
  all.find? (·.label == label)

def symbolList : String :=
  ", ".intercalate (all.map fun matcher => "\"" ++ matcher.symbol ++ "\"")

/-- A symbol is that of one matcher, and each matcher is found by its symbol. -/
theorem ofSymbol?_eq_some_iff {symbol : String} {matcher : Matcher} :
    ofSymbol? symbol = some matcher ↔ matcher.symbol = symbol := by
  constructor
  · intro h
    simpa using List.find?_some h
  · rintro rfl
    cases matcher <;> decide

end Matcher

end SettingsLang
