import SettingsLang.Block.Evaluate

/-!
Scripts: declarations made one by one, where a step may catch its own failure. Running a script
keeps an observation of each step, so what a script does between its steps can be spoken of.
-/

namespace SettingsLang

inductive Call where
  | rule (criterion symbol value : String)
  | ruleWith (criterion : String) (matcher : Matcher) (value : String)
  | set (parameter : String) (value : Scalar)
  | component (name : String)
  | confType (name : String)
  | block (block : Block)

/-- A step of a script. A step that catches lets the next one follow also if it fails. -/
inductive Step where
  | call (catches : Bool) (call : Call)
  | within (catches : Bool) (level : Level) (name : String) (body : List Step)

def Call.run {σ : Type} [Sink σ] (session : Session σ) : Call → Attempt σ
  | .rule criterion symbol value => session.rule criterion symbol value
  | .ruleWith criterion matcher value => session.ruleWith criterion matcher value
  | .set parameter value => session.set parameter value.render
  | .component _ => session.component
  | .confType _ => session.confType
  | .block tree => tree.evaluate session

/-- Whether an observation was made when a body began or when its step was over. -/
inductive Moment where
  | opened
  | over
  deriving DecidableEq, Repr

/-- The session at a moment of a step, and how the step has gone so far. -/
structure Observation (σ : Type) where
  position : List Nat
  step : Step
  moment : Moment
  result : Except Failure Unit
  session : Session σ

/-- A run of steps: how it ended, the session after it, and what was observed. -/
structure Playback (σ : Type) where
  result : Except Failure Unit
  session : Session σ
  trace : List (Observation σ)

namespace Step

variable {σ : Type} [Sink σ]

def catches : Step → Bool
  | .call catches _ => catches
  | .within catches .. => catches

/-- A run with one more observation at its end. -/
def observed (step : Step) (position : List Nat) (run : Playback σ) : Playback σ :=
  { run with trace := run.trace ++ [⟨position, step, .over, run.result, run.session⟩] }

mutual

/-- Runs a step at a position. The result is the step's own, also if the step catches. -/
def run (position : List Nat) : Step → Session σ → Playback σ
  | .call catches made, session =>
    let (result, after) := made.run session
    observed (.call catches made) position ⟨result, after, []⟩
  | .within catches level name body, session =>
    observed (.within catches level name body) position <|
      match session.enter level name with
      | (.error failure, refused) => ⟨.error failure, refused, []⟩
      | (.ok (), inner) =>
        let inside := runAll position 0 body inner
        { result := inside.result
          session := inside.session.leave
          trace :=
            ⟨position, .within catches level name body, .opened, .ok (), inner⟩ :: inside.trace }

/-- Runs the steps of a list, the first of which has the given index, up to the first failure that
is not caught. -/
def runAll (position : List Nat) (index : Nat) : List Step → Session σ → Playback σ
  | [], session => ⟨.ok (), session, []⟩
  | step :: rest, session =>
    let first := run (position ++ [index]) step session
    match first.result, step.catches with
    | .error failure, false => ⟨.error failure, first.session, first.trace⟩
    | _, _ =>
      let others := runAll position (index + 1) rest first.session
      { others with trace := first.trace ++ others.trace }

end

end Step

def Script.run {σ : Type} [Sink σ] (steps : List Step) (mode : CommitMode) (sink : σ) :
    Playback σ :=
  Step.runAll [] 0 steps (.start mode sink)

end SettingsLang
