import SettingsLang.NamePath
import SettingsLang.Rule

/-!
Commands: what a description is turned into, one line of text each.
-/

namespace SettingsLang

inductive Command where
  | createDomain (domain : NamePath)
  | createConfiguration (domain conf : NamePath)
  | setRule (domain conf : NamePath) (rules : RuleSet)
  | setParameter (domain conf : NamePath) (parameter value : String)
  deriving DecidableEq, Repr

namespace Command

def keyword : Command → String
  | .createDomain .. => "createDomain"
  | .createConfiguration .. => "createConfiguration"
  | .setRule .. => "setRule"
  | .setParameter .. => "setConfigurationParameter"

def arguments : Command → List String
  | .createDomain domain => [domain.render]
  | .createConfiguration domain conf => [domain.render, conf.render]
  | .setRule domain conf rules => [domain.render, conf.render, rules.render]
  | .setParameter domain conf parameter value => [domain.render, conf.render, parameter, value]

/-- Keyword and arguments with spaces between them. -/
def render (command : Command) : String :=
  " ".intercalate (command.keyword :: command.arguments)

end Command

end SettingsLang
