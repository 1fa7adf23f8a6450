import SettingsLang.Block.Decode
import SettingsLang.Block.Evaluate
import SettingsLang.Files
import SettingsLang.Text.Lines

/-!
Generation: from a file with a description to its commands, as a text, as a number, or in another
file. Each call evaluates from the root, so calls do not influence one another; a file is written
only after the whole description has been evaluated.
-/

namespace SettingsLang.Generation

variable {m : Type → Type} [Monad m] [FileAccess m]

def load (path : String) : ExceptT Failure m Description := do
  unless ← (FileAccess.present path : m Bool) do
    throw (.descriptionNotFound path)
  match ← (FileAccess.readText path : m (Except String String)) with
  | .error cause => throw (.operationFailed s!"read description: {path}" cause)
  | .ok document =>
    match Description.ofToml document with
    | .error fault => throw (.description s!"{path}: {fault.message}")
    | .ok description => return description

/-- Evaluates the description at a path into a sink, and answers with the sink also if it fails. -/
def evaluate {σ : Type} [Sink σ] (path : String) (mode : CommitMode) (sink : σ) :
    m (Except Failure Unit × σ) := do
  match ← (load path).run with
  | .error failure => return (.error failure, sink)
  | .ok description =>
    let (result, session) := description.evaluate mode sink
    return (result, session.sink)

def into {σ : Type} [Sink σ] (path : String) (mode : CommitMode) (sink : σ) :
    ExceptT Failure m σ := do
  match ← (evaluate path mode sink : m (Except Failure Unit × σ)) with
  | (.ok (), sink) => return sink
  | (.error failure, _) => throw failure

/-- The commands of the description at a path, one a line. -/
def text (path : String) (mode : CommitMode) : ExceptT Failure m String := do
  return (← into path mode LineWriter.empty).text

def count (path : String) (mode : CommitMode) : ExceptT Failure m Nat := do
  return (← into path mode CommandLog.empty).size

/-- Writes the commands of the description at a path into another file, and answers with the number
of lines. -/
def write (path output : String) (mode : CommitMode) : ExceptT Failure m Nat := do
  let written ← text path mode
  match ← (FileAccess.writeText output written : m (Except String Unit)) with
  | .error cause => throw (.outputNotCreated output cause)
  | .ok () => return Text.lineCount written

end SettingsLang.Generation
