import SettingsLang.CommandLine.Completion

/-!
Guidance for the user: the page on how the program is called, its version, and a line on arguments
that are wrong.
-/

namespace SettingsLang

def usageLine : String :=
  s!"Usage: {programName} [-d] [-C <DIR>] <COMMAND>"

def Verb.purpose : Verb → String
  | .generate => "evaluate a description and print its commands, or write them (-o <FILE>)"
  | .check => "evaluate a description and count its commands"
  | .tree => "show the blocks of a description as a tree"
  | .matchers => "list the matchers of rules"
  | .config => "show the settings that hold here"
  | .completion => "print a completion script for a shell"

def helpPage : String :=
  let commands := Verb.all.map fun verb => s!"  {verb.word}: {verb.purpose}\n"
  usageLine ++ "\n\nCommands:\n" ++ String.join commands

def versionLine : String :=
  s!"{programName} 0.3.0\n"

def Misuse.message : Misuse → String
  | .unknownCommand => "unknown command"
  | .unknownArgument => "unexpected argument"
  | .missingArgument => "a required argument is missing"
  | .invalidValue => "a value is missing or invalid"
  | .repeated => "an option is given twice"
  | .unexpectedValue => "an option takes no value"

namespace Stop

/-- What is printed for a reader who asked for it. -/
def output : Stop → String
  | .help => helpPage
  | .version => versionLine
  | .misuse _ => ""

def errors : Stop → String
  | .help | .version => ""
  | .misuse found => s!"error: {found.message}\n\n{usageLine}\n"

end Stop

end SettingsLang
