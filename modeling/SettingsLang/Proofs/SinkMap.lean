import SettingsLang.Proofs.Declaration

/-!
Exchanging the sink of a session. A map between sinks that commutes with taking commands commutes
with the evaluation of every block: it changes neither the result nor the context. Commands that
were taken earlier are such a map, so evaluation never depends on them.
-/

namespace SettingsLang

/-- A map of sinks that commutes with taking a command, and with refusing one. -/
def Sink.Commutes {σ τ : Type} [Sink σ] [Sink τ] (f : σ → τ) : Prop :=
  ∀ sink command, Sink.accept (f sink) command = (Sink.accept sink command).map f

/-- The session with its sink exchanged. -/
def Session.mapSink {σ τ : Type} (f : σ → τ) (session : Session σ) : Session τ :=
  ⟨session.mode, session.context, f session.sink⟩

def Attempt.mapSink {σ τ : Type} (f : σ → τ) (attempt : Attempt σ) : Attempt τ :=
  (attempt.1, attempt.2.mapSink f)

variable {σ τ : Type}

theorem Attempt.andThen_mapSink (f : σ → τ) (attempt : Attempt σ) (next : Session σ → Attempt σ)
    (onward : Session τ → Attempt τ)
    (hnext : ∀ session, onward (session.mapSink f) = (next session).mapSink f) :
    (attempt.mapSink f).andThen onward = (attempt.andThen next).mapSink f := by
  rcases attempt with ⟨_ | _, session⟩
  · rfl
  · exact hnext session

namespace Session

theorem ruleWith_mapSink (f : σ → τ) (session : Session σ) (criterion : String)
    (matcher : Matcher) (value : String) :
    (session.mapSink f).ruleWith criterion matcher value =
      (session.ruleWith criterion matcher value).mapSink f := by
  simp only [ruleWith, mapSink]
  split
  · rfl
  · split <;> rfl

theorem rule_mapSink (f : σ → τ) (session : Session σ) (criterion symbol value : String) :
    (session.mapSink f).rule criterion symbol value =
      (session.rule criterion symbol value).mapSink f := by
  unfold rule
  split
  · rfl
  · exact ruleWith_mapSink f session criterion _ value

variable [Sink σ] [Sink τ]

theorem emit_mapSink {f : σ → τ} (hf : Sink.Commutes f) (session : Session σ)
    (command : Command) :
    (session.mapSink f).emit command = (session.emit command).mapSink f := by
  simp only [emit, mapSink, hf session.sink command]
  cases Sink.accept session.sink command <;> rfl

theorem enter_mapSink {f : σ → τ} (hf : Sink.Commutes f) (session : Session σ) (level : Level)
    (name : String) :
    (session.mapSink f).enter level name = (session.enter level name).mapSink f := by
  simp only [enter, mapSink]
  cases session.context.enter level name with
  | error offence => rfl
  | ok context =>
      dsimp only
      cases announcement context level with
      | none => rfl
      | some command =>
          have hemit := emit_mapSink hf ⟨session.mode, context, session.sink⟩ command
          simp only [mapSink] at hemit
          simp only [hemit]
          rcases emit ⟨session.mode, context, session.sink⟩ command with ⟨_ | _, _⟩ <;> rfl

theorem set_mapSink {f : σ → τ} (hf : Sink.Commutes f) (session : Session σ)
    (parameter value : String) :
    (session.mapSink f).set parameter value = (session.set parameter value).mapSink f := by
  let marked : Session σ := ⟨session.mode, session.context.markCommitted, session.sink⟩
  let assignment := Command.setParameter session.context.domainPath session.context.confPath
    parameter value
  by_cases hconf : session.context.innermost = some .conf
  case neg =>
    rw [set_outside session parameter value hconf, set_outside (session.mapSink f) _ _ hconf]
    rfl
  by_cases hskip : session.mode = .once ∧ session.context.isCommitted = true
  case pos =>
    rw [set_skipping session parameter value hconf hskip,
      set_skipping (session.mapSink f) _ _ hconf hskip]
    exact emit_mapSink hf marked assignment
  case neg =>
    rw [set_sending session parameter value hconf hskip,
      set_sending (session.mapSink f) _ _ hconf hskip,
      ← Attempt.andThen_mapSink f _ (·.emit assignment) (·.emit assignment)
        fun sent => emit_mapSink hf sent assignment]
    congr 1
    exact emit_mapSink hf marked _

theorem within_mapSink {f : σ → τ} (hf : Sink.Commutes f) (session : Session σ) (level : Level)
    (name : String) (body : Session σ → Attempt σ) (mapped : Session τ → Attempt τ)
    (hbody : ∀ inner, mapped (inner.mapSink f) = (body inner).mapSink f) :
    (session.mapSink f).within level name mapped =
      (session.within level name body).mapSink f := by
  unfold within
  rw [enter_mapSink hf]
  rcases session.enter level name with ⟨_ | _, inner⟩
  · rfl
  · simp only [Attempt.mapSink, hbody inner]
    rfl

end Session

namespace Block

variable [Sink σ] [Sink τ]

mutual

theorem evaluate_mapSink {f : σ → τ} (hf : Sink.Commutes f) :
    ∀ (block : Block) (session : Session σ),
      block.evaluate (session.mapSink f) = (block.evaluate session).mapSink f
  | .space level name body, session => by
    unfold evaluate
    exact Session.within_mapSink hf session level name _ _ (evaluateAll_mapSink hf body)
  | .rule criterion symbol value, session => by
    unfold evaluate
    exact Session.rule_mapSink f session criterion symbol value.render
  | .set parameter value, session => by
    unfold evaluate
    exact Session.set_mapSink hf session parameter value.render
  | .component _, session => by
    unfold evaluate
    rfl
  | .confType _, session => by
    unfold evaluate
    rfl

/-- Evaluation treats sinks alike that take and refuse alike. -/
theorem evaluateAll_mapSink {f : σ → τ} (hf : Sink.Commutes f) :
    ∀ (blocks : List Block) (session : Session σ),
      evaluateAll blocks (session.mapSink f) = (evaluateAll blocks session).mapSink f
  | [], session => by
    unfold evaluateAll
    rfl
  | block :: rest, session => by
    unfold evaluateAll
    rw [evaluate_mapSink hf block session]
    exact Attempt.andThen_mapSink f _ _ _ (evaluateAll_mapSink hf rest)

end

end Block

/-- A log with commands in front of those that it took. -/
def CommandLog.after (earlier log : CommandLog) : CommandLog :=
  ⟨earlier.commands ++ log.commands⟩

def Limited.after (earlier : CommandLog) (sink : Limited CommandLog) : Limited CommandLog :=
  ⟨earlier.after sink.inner, sink.room⟩

theorem CommandLog.after_commutes (earlier : CommandLog) : Sink.Commutes earlier.after := by
  intro log command
  simp [Sink.accept, after, Except.map]

theorem Limited.after_commutes (earlier : CommandLog) :
    Sink.Commutes (Limited.after earlier) := by
  rintro ⟨log, _ | room⟩ command
  · rfl
  · simp [Sink.accept, after, CommandLog.after, Except.map]

end SettingsLang
