import SettingsLang.Proofs.Declaration

/-!
From one declaration to whole runs. What relates the session before a declaration to the session
after it, and passes from the inside of a level to its outside, relates the sessions around every
block and every script, whichever failures the script catches. The induction over blocks and over
steps is made here once.
-/

namespace SettingsLang

/-- How a run ended and the session after it, without what was observed on the way. -/
def Playback.attempt {σ : Type} (run : Playback σ) : Attempt σ :=
  (run.result, run.session)

/-- A relation between sessions that every declaration makes hold. A level counts as one
declaration: the relation may be used for what happens inside it. -/
structure Session.Persistent {σ : Type} [Sink σ] (R : Session σ → Session σ → Prop) : Prop where
  refl : ∀ session, R session session
  trans : ∀ {first second third}, R first second → R second third → R first third
  ruleWith : ∀ session criterion matcher value,
    R session (session.ruleWith criterion matcher value).2
  set : ∀ session parameter value, R session (session.set parameter value).2
  within : ∀ {session inner after : Session σ} {level name},
    session.enter level name = (.ok (), inner) → R inner after → R session after.leave

namespace Session.Persistent

variable {σ : Type} [Sink σ] {R : Session σ → Session σ → Prop}

theorem rule (h : Persistent R) (session : Session σ) (criterion symbol value : String) :
    R session (session.rule criterion symbol value).2 := by
  unfold Session.rule
  split
  · exact h.refl session
  · exact h.ruleWith session criterion _ value

/-- A level that is refused leaves no trace, and for one that is open the body decides. -/
theorem ofWithin (h : Persistent R) (session : Session σ) (level : Level) (name : String)
    (body : Session σ → Attempt σ) (hbody : ∀ inner, R inner (body inner).2) :
    R session (session.within level name body).2 := by
  unfold Session.within
  split
  · next failure refused henter =>
      rw [Session.enter_error henter]
      exact h.refl session
  · next inner henter =>
      exact h.within henter (hbody inner)

mutual

theorem evaluate (h : Persistent R) :
    ∀ (block : Block) (session : Session σ), R session (block.evaluate session).2
  | .space level name body, session => by
    unfold Block.evaluate
    exact h.ofWithin session level name _ (h.evaluateAll body)
  | .rule criterion symbol value, session => by
    unfold Block.evaluate
    exact h.rule session criterion symbol value.render
  | .set parameter value, session => by
    unfold Block.evaluate
    exact h.set session parameter value.render
  | .component _, session => by
    unfold Block.evaluate
    exact h.refl session
  | .confType _, session => by
    unfold Block.evaluate
    exact h.refl session

theorem evaluateAll (h : Persistent R) :
    ∀ (blocks : List Block) (session : Session σ),
      R session (Block.evaluateAll blocks session).2
  | [], session => by
    unfold Block.evaluateAll
    exact h.refl session
  | block :: rest, session => by
    unfold Block.evaluateAll
    have hfirst := h.evaluate block session
    cases hrun : block.evaluate session with
    | mk result after =>
        rw [hrun] at hfirst
        cases result with
        | error failure => exact hfirst
        | ok _ => exact h.trans hfirst (h.evaluateAll rest after)

end

theorem call (h : Persistent R) (call : Call) (session : Session σ) :
    R session (call.run session).2 := by
  cases call with
  | rule criterion symbol value => exact h.rule session criterion symbol value
  | ruleWith criterion matcher value => exact h.ruleWith session criterion matcher value
  | set parameter value => exact h.set session parameter value.render
  | component name => exact h.refl session
  | confType name => exact h.refl session
  | block tree => exact h.evaluate tree session

end Session.Persistent

namespace Step

variable {σ : Type} [Sink σ]

/-- A level of a script runs its steps inside the level and closes it however they end. -/
theorem run_within (position : List Nat) (catches : Bool) (level : Level) (name : String)
    (body : List Step) (session : Session σ) :
    (run position (.within catches level name body) session).attempt =
      session.within level name fun inner => (runAll position 0 body inner).attempt := by
  simp only [run, observed, Session.within, Playback.attempt]
  rcases session.enter level name with ⟨_ | _, _⟩ <;> rfl

mutual

theorem run_persistent {R : Session σ → Session σ → Prop} (h : Session.Persistent R) :
    ∀ (step : Step) (position : List Nat) (session : Session σ),
      R session (run position step session).session
  | .call catches made, position, session => by
    unfold run
    exact h.call made session
  | .within catches level name body, position, session => by
    have hwithin := h.ofWithin session level name
      (fun inner => (runAll position 0 body inner).attempt)
      (fun inner => runAll_persistent h body position 0 inner)
    rw [← run_within position catches level name body session] at hwithin
    exact hwithin

/-- What every declaration makes hold, a script makes hold, whichever failures it catches. -/
theorem runAll_persistent {R : Session σ → Session σ → Prop} (h : Session.Persistent R) :
    ∀ (steps : List Step) (position : List Nat) (index : Nat) (session : Session σ),
      R session (runAll position index steps session).session
  | [], position, index, session => by
    unfold runAll
    exact h.refl session
  | step :: rest, position, index, session => by
    have hfirst := run_persistent h step (position ++ [index]) session
    have hrest := runAll_persistent h rest position (index + 1)
      (run (position ++ [index]) step session).session
    simp only [runAll]
    split
    · exact hfirst
    · exact h.trans hfirst hrest

end

end Step

end SettingsLang
