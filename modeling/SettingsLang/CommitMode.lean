/-!
Commit modes: when the rules of a configuration are sent.
-/

namespace SettingsLang

/-- When the rules of a configuration are sent: before each of its assignments, or once before
the first, after which it takes no further rule. -/
inductive CommitMode where
  | everySet
  | once
  deriving DecidableEq, Repr

namespace CommitMode

def default : CommitMode := .everySet

def keyword : CommitMode → String
  | .everySet => "every-set"
  | .once => "once"

/-- The mode of a name. Case and surrounding space count. -/
def ofKeyword? (keyword : String) : Option CommitMode :=
  [everySet, once].find? (·.keyword == keyword)

def unknownMessage (keyword : String) : String :=
  s!"unknown rule commit mode '{keyword}': expected \"every-set\" or \"once\""

theorem ofKeyword?_keyword (mode : CommitMode) : ofKeyword? mode.keyword = some mode := by
  cases mode <;> decide

end CommitMode

end SettingsLang
