import SettingsLang.CommandLine.Guidance
import SettingsLang.CommandLine.Reading
import SettingsLang.CommandLine.Run

/-!
The program: the real files, environment and arguments are handed to a run, and its report is
printed.
-/

namespace SettingsLang

/-- The answer of an action on the system, or the system's message. -/
def attempt {α : Type} (action : IO α) : IO (Except String α) := do
  match ← action.toBaseIO with
  | .ok value => return .ok value
  | .error cause => return .error cause.toString

instance : FileAccess IO where
  present path := (System.mkFilePath [path]).pathExists
  readText path := attempt (IO.FS.readFile path)
  writeText path text := attempt do
    if let some parent := (System.mkFilePath [path]).parent then
      IO.FS.createDirAll parent
    IO.FS.writeFile path text

/-- The variables of the program's own environment, which the system keeps as entries with a zero
after each. -/
def variablesOfProcess : IO (List (String × String)) := do
  let entries := ((← IO.FS.readFile "/proc/self/environ").splitOn "\x00").filter (!·.isEmpty)
  return entries.map fun entry =>
    match entry.splitOn "=" with
    | name :: value => (name, "=".intercalate value)
    | [] => (entry, "")

/-- The home directory in the line of an account in the system's list of them, which has the number
of the account third and its directory sixth. -/
def homeInLine? (number line : String) : Option String :=
  match line.splitOn ":" with
  | [_, _, account, _, _, home, _] => if account == number then some home else none
  | _ => none

/-- The home directory on record for the account that runs the program, if there is one. -/
def homeOfAccount : IO (Option String) := do
  let .ok status ← attempt (IO.FS.readFile "/proc/self/status") | return none
  let .ok accounts ← attempt (IO.FS.readFile "/etc/passwd") | return none
  let number? := (status.splitOn "\n").findSome? fun line =>
    match line.splitOn "\t" with
    | "Uid:" :: number :: _ => some number
    | _ => none
  return number?.bind fun number => (accounts.splitOn "\n").findSome? (homeInLine? number)

def environmentOfProcess : IO Environment := do
  return ⟨← variablesOfProcess, ← homeOfAccount⟩

def workingDirectory : IO (Except String String) :=
  attempt do return (← IO.currentDir).toString

def runOn (arguments : List String) : IO UInt32 := do
  let output ← IO.getStdout
  let errors ← IO.getStderr
  match Invocation.ofArguments arguments with
  | .error stop =>
    output.putStr stop.output
    errors.putStr stop.errors
    return stop.exitCode.toUInt32
  | .ok call =>
    let report ← call.run (← environmentOfProcess) workingDirectory
    output.putStr report.output
    errors.putStr report.errors
    return report.exitCode.toUInt32

end SettingsLang

def main (arguments : List String) : IO UInt32 :=
  SettingsLang.runOn arguments
