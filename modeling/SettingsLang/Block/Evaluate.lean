import SettingsLang.Block
import SettingsLang.Session

/-!
Evaluation of blocks: a walk through the tree in document order that stops at the first failure.
-/

namespace SettingsLang

namespace Block

variable {σ : Type} [Sink σ]

mutual

def evaluate : Block → Session σ → Attempt σ
  | .space level name body, session =>
    session.within level name fun inner => evaluateAll body inner
  | .rule criterion symbol value, session => session.rule criterion symbol value.render
  | .set parameter value, session => session.set parameter value.render
  | .component _, session => session.component
  | .confType _, session => session.confType

/-- Evaluates blocks one after the other, up to the first that fails. -/
def evaluateAll : List Block → Session σ → Attempt σ
  | [], session => session.unchanged
  | block :: rest, session => (evaluate block session).andThen fun after => evaluateAll rest after

end

end Block

/-- Evaluates a description from the root into a sink. -/
def Description.evaluate {σ : Type} [Sink σ] (description : Description) (mode : CommitMode)
    (sink : σ) : Attempt σ :=
  Block.evaluateAll description (.start mode sink)

end SettingsLang
