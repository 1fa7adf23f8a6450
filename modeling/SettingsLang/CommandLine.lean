import SettingsLang.CommitMode

/-!
The command line: which arguments the program takes, and what it is asked to do by a list of them.
-/

namespace SettingsLang

inductive Shell where
  | bash
  | elvish
  | fish
  | powershell
  | zsh
  deriving DecidableEq, Repr

namespace Shell

def name : Shell → String
  | .bash => "bash"
  | .elvish => "elvish"
  | .fish => "fish"
  | .powershell => "powershell"
  | .zsh => "zsh"

def ofName? (name : String) : Option Shell :=
  [bash, elvish, fish, powershell, zsh].find? (·.name == name)

end Shell

inductive Action where
  | generate (file : String) (output : Option String) (mode : Option CommitMode)
  | check (file : String)
  | tree (file : String)
  | matchers
  | config
  | completion (shell : Shell)
  deriving DecidableEq, Repr

/-- A call of the program: the directory whose settings count, if one is given, and the action, if
there is one. -/
structure Invocation where
  directory : Option String
  action : Option Action
  deriving DecidableEq, Repr

inductive Misuse where
  | unknownCommand
  | unknownArgument
  | missingArgument
  | invalidValue
  | repeated
  | unexpectedValue
  deriving DecidableEq, Repr

/-- Why arguments are no call: they ask for help or for the version, or they are wrong. -/
inductive Stop where
  | help
  | version
  | misuse (misuse : Misuse)
  deriving DecidableEq, Repr

/-- Arguments that are wrong end the program with 2. -/
def Stop.exitCode : Stop → Nat
  | .help | .version => 0
  | .misuse _ => 2

inductive Verb where
  | generate
  | check
  | tree
  | matchers
  | config
  | completion
  deriving DecidableEq, Repr

/-- A place for a value. -/
inductive Parameter where
  | directory
  | output
  | mode
  | file
  | shell
  deriving DecidableEq, Repr

namespace Verb

def all : List Verb :=
  [.generate, .check, .tree, .matchers, .config, .completion]

def word : Verb → String
  | .generate => "generate"
  | .check => "check"
  | .tree => "tree"
  | .matchers => "matchers"
  | .config => "config"
  | .completion => "completion"

def ofWord? (word : String) : Option Verb :=
  all.find? (·.word == word)

/-- The value that must follow the command. -/
def operand? : Verb → Option Parameter
  | .generate | .check | .tree => some .file
  | .completion => some .shell
  | .matchers | .config => none

end Verb

/-- What a word with dashes stands for. -/
inductive Switch where
  | debug
  | help
  | version
  | takes (parameter : Parameter)
  deriving DecidableEq, Repr

namespace Switch

/-- The switch of a word after two dashes, before any command or after one. -/
def ofLong? (verb : Option Verb) : String → Option Switch
  | "debug" => some .debug
  | "help" => some .help
  | "version" => some .version
  | "config-dir" => some (.takes .directory)
  | "output" => if verb = some .generate then some (.takes .output) else none
  | "rule-commit" => if verb = some .generate then some (.takes .mode) else none
  | _ => none

/-- The switch of a letter after one dash. -/
def ofShort? (verb : Option Verb) : Char → Option Switch
  | 'd' => some .debug
  | 'h' => some .help
  | 'V' => some .version
  | 'C' => some (.takes .directory)
  | 'o' => if verb = some .generate then some (.takes .output) else none
  | _ => none

end Switch

/-- The form of an argument. A dash alone has no switch after it. -/
inductive ArgumentForm where
  | separator
  | long (name : String) (value : Option String)
  | short (letters : List Char)
  | plain
  deriving DecidableEq, Repr

/-- The form of a text. What follows an equals sign is the value of a long switch. -/
def ArgumentForm.ofText (text : String) : ArgumentForm :=
  match text.toList with
  | ['-', '-'] => .separator
  | '-' :: '-' :: rest =>
    let name := String.ofList (rest.takeWhile (· != '='))
    match rest.dropWhile (· != '=') with
    | [] => .long name none
    | _ :: value => .long name (some (String.ofList value))
  | '-' :: c :: rest => .short (c :: rest)
  | _ => .plain

end SettingsLang
