import SettingsLang.Block.Outline
import SettingsLang.CommandLine
import SettingsLang.CommandLine.Completion
import SettingsLang.Generation
import SettingsLang.Settings

/-!
A run of the program: the settings are loaded first, whatever the action; then the action is
carried out, and what it prints is known only if it succeeds.
-/

namespace SettingsLang

/-- How a run ended: the failure if there was one, and what was printed. -/
structure Report where
  failure : Option Failure
  output : String
  errors : String

def Report.exitCode (report : Report) : Nat :=
  match report.failure with
  | none => 0
  | some failure => failure.exitCode

def Report.of : Except Failure String → Report
  | .ok output => ⟨none, output, ""⟩
  | .error failure => ⟨some failure, "", s!"error: {failure.message}\n"⟩

def padded (width : Nat) (word : String) : String :=
  word ++ String.ofList (List.replicate (width - word.length) ' ')

def Matcher.listing : String :=
  "Matchers\n" ++ String.join (Matcher.all.map fun matcher =>
    s!"  {padded 10 matcher.symbol} -> {matcher.label}\n")

namespace Action

variable {m : Type → Type} [Monad m] [FileAccess m]

/-- Carries out an action and answers with what it prints. The mode and the output of the action
itself count more than those of the settings. -/
def perform (settings : Settings) : Action → ExceptT Failure m String
  | .generate file output mode => do
    let mode := mode.getD settings.mode
    match output <|> settings.output with
    | some destination =>
      let count ← Generation.write (m := m) file destination mode
      return s!"Written: {count} commands to {destination}\n"
    | none => Generation.text file mode
  | .check file => do
    let count ← Generation.count (m := m) file settings.mode
    return s!"✓ {file}: {count} commands\n"
  | .tree file => do
    let description ← Generation.load (m := m) file
    return description.outline file ++ "\n"
  | .matchers => return Matcher.listing
  | .config => return settings.toToml ++ "\n"
  | .completion shell => return shell.completionScript

end Action

namespace Invocation

variable {m : Type → Type} [Monad m] [FileAccess m]

/-- The directory whose settings count: the one that is given, or else the working directory,
which the system is asked for only then. -/
def settingsDirectory (working : m (Except String String)) (call : Invocation) :
    ExceptT Failure m String := do
  if let some directory := call.directory then
    return directory
  match ← (working : m (Except String String)) with
  | .ok directory => return directory
  | .error cause => throw (.io "current directory" cause)

/-- Carries out a call of the program in an environment and a working directory. -/
def perform (environment : Environment) (working : m (Except String String)) (call : Invocation) :
    ExceptT Failure m String := do
  let directory ← call.settingsDirectory working
  let settings ← Settings.load (m := m) environment directory
  match call.action with
  | none => throw (.usage "no command given, run with --help for usage")
  | some action => action.perform settings

def run (environment : Environment) (working : m (Except String String)) (call : Invocation) :
    m Report :=
  Report.of <$> (call.perform environment working : ExceptT Failure m String).run

end Invocation

end SettingsLang
