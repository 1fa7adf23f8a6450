import SettingsLang.Generation

/-!
Sequences of generation steps. Each step works on the files that the steps before it have left, so
what one writes another may read; a step that fails does not stop the sequence.
-/

namespace SettingsLang

/-- A call of the generation. Commands are generated into a sink of any kind. -/
inductive GenerationStep (σ : Type) where
  | load (path : String)
  | generate (path : String) (mode : CommitMode) (sink : σ)
  | render (path : String) (mode : CommitMode)
  | check (path : String) (mode : CommitMode)
  | write (path output : String) (mode : CommitMode)

inductive GenerationAnswer (σ : Type) where
  | loaded (description : Description)
  | generated (sink : σ)
  | rendered (text : String)
  | checked (count : Nat)
  | written (count : Nat)

/-- A step that was taken, what it answered, and the files before and after it. -/
structure GenerationEntry (S σ : Type) where
  step : GenerationStep σ
  before : S
  result : Except Failure (GenerationAnswer σ)
  after : S

namespace GenerationStep

variable {σ : Type} [Sink σ]

def perform {m : Type → Type} [Monad m] [FileAccess m] :
    GenerationStep σ → ExceptT Failure m (GenerationAnswer σ)
  | .load path => do return .loaded (← Generation.load path)
  | .generate path mode sink => do return .generated (← Generation.into path mode sink)
  | .render path mode => do return .rendered (← Generation.text path mode)
  | .check path mode => do return .checked (← Generation.count path mode)
  | .write path output mode => do return .written (← Generation.write path output mode)

variable {S : Type} [FileAccess (StateM S)]

/-- Takes the steps of a list one after the other, each on the files that the one before it has
left. -/
def runAll (files : S) : List (GenerationStep σ) → List (GenerationEntry S σ)
  | [] => []
  | step :: rest =>
    let (result, after) := (step.perform : ExceptT Failure (StateM S) _).run.run files
    ⟨step, files, result, after⟩ :: runAll after rest

end GenerationStep

end SettingsLang
