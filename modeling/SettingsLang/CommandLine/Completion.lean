import SettingsLang.CommandLine

/-!
Completion scripts: for each shell a few lines that offer the commands.
-/

namespace SettingsLang

def programName : String := "pfsettings"

def Verb.words : List String :=
  Verb.all.map Verb.word

def Shell.completionScript (shell : Shell) : String :=
  let words := " ".intercalate Verb.words
  let quoted := ", ".intercalate (Verb.words.map fun word => s!"'{word}'")
  match shell with
  | .bash => s!"complete -W \"{words}\" {programName}\n"
  | .zsh => s!"#compdef {programName}\ncompadd {words}\n"
  | .fish => s!"complete -c {programName} -f -a \"{words}\"\n"
  | .elvish =>
    s!"set edit:completion:arg-completer[{programName}] = \x7b|@args| put {words} \x7d\n"
  | .powershell =>
    s!"Register-ArgumentCompleter -Native -CommandName '{programName}' -ScriptBlock " ++
      s!"\x7b @({quoted}) \x7d\n"

end SettingsLang
