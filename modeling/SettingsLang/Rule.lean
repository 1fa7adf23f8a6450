import SettingsLang.Matcher

/-!
Rules and rule sets. A rule set holds if all of its rules do, and its text says so.
-/

namespace SettingsLang

structure Rule where
  criterion : String
  matcher : Matcher
  value : String
  deriving DecidableEq, Repr

def Rule.render (rule : Rule) : String :=
  rule.criterion ++ " " ++ rule.matcher.label ++ " " ++ rule.value

/-- The rules that guard a configuration, outermost level first. -/
structure RuleSet where
  rules : List Rule
  deriving DecidableEq, Repr

/-- All rules in braces, separated by commas. An empty set keeps both inner spaces. -/
def RuleSet.render (set : RuleSet) : String :=
  "All\x7b " ++ ", ".intercalate (set.rules.map Rule.render) ++ " \x7d"

end SettingsLang
