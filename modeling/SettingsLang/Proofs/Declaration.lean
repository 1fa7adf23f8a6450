import SettingsLang.Script

/-!
What one declaration can do to a session. Each declaration has one lemma here that lists its
outcomes with the session after each; the theorems about runs use these and never open the
declarations themselves. A level that cannot be opened leaves the whole session as it was, since
a refused announcement closes the level again.
-/

namespace SettingsLang

namespace Context

@[simp]
theorem domainPath_markCommitted (context : Context) :
    context.markCommitted.domainPath = context.domainPath := by
  rcases context with ⟨_, _, _ | ⟨frame, outer⟩⟩ <;> rfl

@[simp]
theorem confPath_markCommitted (context : Context) :
    context.markCommitted.confPath = context.confPath := by
  rcases context with ⟨_, _, _ | ⟨frame, outer⟩⟩ <;> rfl

@[simp]
theorem innermost_markCommitted (context : Context) :
    context.markCommitted.innermost = context.innermost := by
  rcases context with ⟨_, _, _ | ⟨frame, outer⟩⟩ <;> rfl

theorem leave_markCommitted (context : Context) :
    context.markCommitted.leave = context.leave := by
  rcases context with ⟨_, _, _ | ⟨frame, outer⟩⟩ <;> rfl

theorem depth_markCommitted (context : Context) :
    context.markCommitted.depth = context.depth := by
  rcases context with ⟨_, _, _ | ⟨frame, outer⟩⟩ <;> rfl

theorem flattenedRules_markCommitted (context : Context) :
    context.markCommitted.flattenedRules = context.flattenedRules := by
  rcases context with ⟨_, _, _ | ⟨frame, outer⟩⟩ <;> rfl

theorem isCommitted_markCommitted {context : Context} {level : Level}
    (h : context.innermost = some level) : context.markCommitted.isCommitted = true := by
  rcases context with ⟨_, _, _ | ⟨frame, outer⟩⟩
  · cases h
  · rfl

@[simp]
theorem frames_inside (context : Context) (level : Level) (name : String) :
    (context.inside level name).frames = .fresh level :: context.frames := by
  unfold inside
  split <;> rfl

theorem flattenedRules_inside (context : Context) (level : Level) (name : String) :
    (context.inside level name).flattenedRules = context.flattenedRules := by
  simp [flattenedRules, rulesByDepth, Frame.fresh]

@[simp]
theorem isCommitted_inside (context : Context) (level : Level) (name : String) :
    (context.inside level name).isCommitted = false := by
  simp [isCommitted, Frame.fresh]

/-- The name of a level is checked before its place. -/
theorem enter_cases (context : Context) (level : Level) (name : String) :
    (∃ fault, NameFault.find? name = some fault ∧
      context.enter level name = .error (.invalidName name fault.reason)) ∨
    (NameFault.find? name = none ∧ level.allowedIn context.innermost = false ∧
      context.enter level name = .error (context.misplaced level.keyword)) ∨
    (NameFault.find? name = none ∧ level.allowedIn context.innermost = true ∧
      context.enter level name = .ok (context.inside level name)) := by
  unfold enter
  cases hname : NameFault.find? name with
  | some fault => exact Or.inl ⟨fault, rfl, rfl⟩
  | none =>
      cases hplace : level.allowedIn context.innermost
      · exact Or.inr (Or.inl ⟨rfl, rfl, by simp⟩)
      · exact Or.inr (Or.inr ⟨rfl, rfl, by simp⟩)

theorem enter_eq_ok {context inner : Context} {level : Level} {name : String}
    (h : context.enter level name = .ok inner) :
    NameFault.find? name = none ∧ level.allowedIn context.innermost = true ∧
      inner = context.inside level name := by
  rcases context.enter_cases level name with
    ⟨_, -, henter⟩ | ⟨-, -, henter⟩ | ⟨hname, hplace, henter⟩ <;> rw [henter] at h
  · cases h
  · cases h
  · cases h
    exact ⟨hname, hplace, rfl⟩

theorem addRule_eq_ok {context after : Context} {rule : Rule}
    (h : context.addRule rule = .ok after) :
    ∃ frame outer, context.frames = frame :: outer ∧
      after =
        { context with frames := { frame with rules := frame.rules ++ [rule] } :: outer } := by
  unfold addRule at h
  split at h
  · cases h
  · next frame outer hframes =>
      cases h
      exact ⟨frame, outer, hframes, rfl⟩

theorem addRule_adds {context after : Context} {rule : Rule}
    (h : context.addRule rule = .ok after) :
    after.flattenedRules.rules = context.flattenedRules.rules ++ [rule] ∧
      after.isCommitted = context.isCommitted := by
  obtain ⟨frame, outer, hframes, rfl⟩ := addRule_eq_ok h
  constructor
  · simp [flattenedRules, rulesByDepth, hframes]
  · simp [isCommitted, hframes]

theorem addRule_cases (context : Context) (rule : Rule) :
    (context.innermost = none ∧ context.addRule rule = .error (context.misplaced "rule")) ∨
    (context.innermost ≠ none ∧ ∃ after, context.addRule rule = .ok after) := by
  unfold addRule
  split
  · next hframes =>
      exact Or.inl ⟨by simp [innermost, hframes], rfl⟩
  · next frame outer hframes =>
      exact Or.inr ⟨by simp [innermost, hframes], _, rfl⟩

end Context

namespace Session

variable {σ : Type}

/-- After the first assignment in mode `once` a rule is refused, also at a place for rules. -/
theorem ruleWith_late (session : Session σ) (criterion : String) (matcher : Matcher)
    (value : String)
    (hlate : session.mode = .once ∧ session.context.isCommitted = true) :
    session.ruleWith criterion matcher value =
      session.refuse (.misplaced "rule"
        s!"after the first set {session.context.describe}") := by
  simp [ruleWith, hlate.1, Context.ensureUncommitted, hlate.2]

theorem ruleWith_early (session : Session σ) (criterion : String) (matcher : Matcher)
    (value : String)
    (hearly : ¬ (session.mode = .once ∧ session.context.isCommitted = true)) :
    session.ruleWith criterion matcher value =
      match session.context.addRule ⟨criterion, matcher, value⟩ with
      | .error offence => session.refuse offence
      | .ok context => (.ok (), { session with context }) := by
  unfold ruleWith
  cases hmode : session.mode with
  | everySet => rfl
  | once =>
      have hmark : session.context.isCommitted = false := by simpa [hmode] using hearly
      simp only [Context.ensureUncommitted, hmark]
      rfl

/-- A rule is refused without a trace, or it is added to the innermost level. -/
theorem ruleWith_cases (session : Session σ) (criterion : String) (matcher : Matcher)
    (value : String) :
    (∃ offence, session.ruleWith criterion matcher value =
      (.error (.language offence), session)) ∨
    (∃ context, (session.mode = .once → session.context.isCommitted = false) ∧
      session.context.addRule ⟨criterion, matcher, value⟩ = .ok context ∧
      session.ruleWith criterion matcher value = (.ok (), { session with context })) := by
  by_cases hlate : session.mode = .once ∧ session.context.isCommitted = true
  case pos =>
    exact Or.inl ⟨_, ruleWith_late session criterion matcher value hlate⟩
  rw [ruleWith_early session criterion matcher value hlate]
  rcases session.context.addRule_cases ⟨criterion, matcher, value⟩ with
    ⟨-, hadd⟩ | ⟨-, context, hadd⟩
  · rw [hadd]
    exact Or.inl ⟨_, rfl⟩
  · rw [hadd]
    refine Or.inr ⟨context, ?_, rfl, rfl⟩
    intro hmode
    simpa [hmode] using hlate

variable [Sink σ]

theorem emit_cases (session : Session σ) (command : Command) :
    (∃ sink, Sink.accept session.sink command = .ok sink ∧
      session.emit command = (.ok (), { session with sink })) ∨
    (∃ cause, Sink.accept session.sink command = .error cause ∧
      session.emit command = (.error (.emit cause), session)) := by
  unfold emit
  cases haccept : Sink.accept session.sink command with
  | ok sink => exact Or.inl ⟨sink, rfl, rfl⟩
  | error cause => exact Or.inr ⟨cause, rfl, rfl⟩

/-- The sink after a level has been announced: groups are not announced. -/
def Announced (context : Context) (level : Level) (before after : σ) : Prop :=
  match announcement context level with
  | none => after = before
  | some command => Sink.accept before command = .ok after

/-- A level is refused without a trace, or it is open and announced. -/
theorem enter_cases (session : Session σ) (level : Level) (name : String) :
    (∃ failure, session.enter level name = (.error failure, session)) ∨
    (∃ context sink, session.context.enter level name = .ok context ∧
      Announced context level session.sink sink ∧
      session.enter level name = (.ok (), ⟨session.mode, context, sink⟩)) := by
  unfold enter
  cases henter : session.context.enter level name with
  | error offence => exact Or.inl ⟨_, rfl⟩
  | ok context =>
      cases hcommand : announcement context level with
      | none =>
          refine Or.inr ⟨context, session.sink, rfl, ?_, ?_⟩
          · simp [Announced, hcommand]
          · simp [hcommand, unchanged]
      | some command =>
          rcases emit_cases { session with context } command with
            ⟨sink, haccept, hemit⟩ | ⟨cause, -, hemit⟩
          · refine Or.inr ⟨context, sink, rfl, ?_, ?_⟩
            · simpa [Announced, hcommand] using haccept
            · simp [hcommand, hemit, unchanged]
          · have hleave : context.leave = session.context := Context.leave_enter henter
            refine Or.inl ⟨.emit cause, ?_⟩
            simp [hcommand, hemit, leave, hleave]

/-- A level that is not opened leaves no trace, also where the sink refused to announce it. -/
theorem enter_error {session refused : Session σ} {level : Level} {name : String}
    {failure : Failure} (h : session.enter level name = (.error failure, refused)) :
    refused = session := by
  rcases enter_cases session level name with ⟨_, henter⟩ | ⟨_, _, _, _, henter⟩
  · rw [henter] at h
    exact (congrArg Prod.snd h).symm
  · rw [henter] at h
    cases h

theorem enter_ok {session inner : Session σ} {level : Level} {name : String}
    (h : session.enter level name = (.ok (), inner)) :
    ∃ context sink, session.context.enter level name = .ok context ∧
      Announced context level session.sink sink ∧ inner = ⟨session.mode, context, sink⟩ := by
  rcases enter_cases session level name with ⟨_, henter⟩ | ⟨context, sink, hopen, hsink, henter⟩
  · rw [henter] at h
    cases h
  · rw [henter] at h
    exact ⟨context, sink, hopen, hsink, (congrArg Prod.snd h).symm⟩

/-- The sink after the rules of the innermost configuration have been sent, or left out because
they were sent before. -/
def RulesSent (session : Session σ) (after : σ) : Prop :=
  if session.mode = .once ∧ session.context.isCommitted = true then after = session.sink
  else Sink.accept session.sink (.setRule session.context.domainPath session.context.confPath
    session.context.flattenedRules) = .ok after

theorem set_outside (session : Session σ) (parameter value : String)
    (hplace : session.context.innermost ≠ some .conf) :
    session.set parameter value =
      session.refuse (session.context.misplaced "set") := by
  simp [set, Context.require, hplace]

theorem set_skipping (session : Session σ) (parameter value : String)
    (hconf : session.context.innermost = some .conf)
    (hskip : session.mode = .once ∧ session.context.isCommitted = true) :
    session.set parameter value =
      emit ⟨session.mode, session.context.markCommitted, session.sink⟩
        (.setParameter session.context.domainPath session.context.confPath parameter value) := by
  simp only [set, Context.require, hconf, if_pos, if_pos hskip]
  rfl

theorem set_sending (session : Session σ) (parameter value : String)
    (hconf : session.context.innermost = some .conf)
    (hsend : ¬ (session.mode = .once ∧ session.context.isCommitted = true)) :
    session.set parameter value =
      (emit ⟨session.mode, session.context.markCommitted, session.sink⟩
        (.setRule session.context.domainPath session.context.confPath
          session.context.flattenedRules)).andThen fun sent =>
        sent.emit
          (.setParameter session.context.domainPath session.context.confPath parameter value) := by
  simp only [set, Context.require, hconf, if_pos, if_neg hsend,
    Context.flattenedRules_markCommitted]

/-- The outcomes of an assignment. Outside a configuration nothing changes. Inside one the mark is
set whatever the sink does, and of the two commands the sink may refuse the first, the second or
none. -/
theorem set_cases (session : Session σ) (parameter value : String) :
    (session.context.innermost ≠ some .conf ∧
      session.set parameter value =
        (.error (.language (session.context.misplaced "set")), session)) ∨
    (session.context.innermost = some .conf ∧
      (session.mode = .once → session.context.isCommitted = false) ∧
      ∃ cause, Sink.accept session.sink (.setRule session.context.domainPath
          session.context.confPath session.context.flattenedRules) = .error cause ∧
        session.set parameter value = (.error (.emit cause),
          ⟨session.mode, session.context.markCommitted, session.sink⟩)) ∨
    (session.context.innermost = some .conf ∧
      ∃ sent, RulesSent session sent ∧
        ((∃ cause, Sink.accept sent (.setParameter session.context.domainPath
              session.context.confPath parameter value) = .error cause ∧
            session.set parameter value = (.error (.emit cause),
              ⟨session.mode, session.context.markCommitted, sent⟩)) ∨
          (∃ sink, Sink.accept sent (.setParameter session.context.domainPath
              session.context.confPath parameter value) = .ok sink ∧
            session.set parameter value = (.ok (),
              ⟨session.mode, session.context.markCommitted, sink⟩)))) := by
  by_cases hconf : session.context.innermost = some .conf
  case neg =>
    exact Or.inl ⟨hconf, set_outside session parameter value hconf⟩
  -- the second command, from whatever sink the first one left
  have hvalue (sent : σ) := emit_cases
    (⟨session.mode, session.context.markCommitted, sent⟩ : Session σ)
    (.setParameter session.context.domainPath session.context.confPath parameter value)
  by_cases hskip : session.mode = .once ∧ session.context.isCommitted = true
  case pos =>
    rw [set_skipping session parameter value hconf hskip]
    refine Or.inr (Or.inr ⟨hconf, session.sink, by simp [RulesSent, hskip], ?_⟩)
    rcases hvalue session.sink with hsink | hcause
    · exact Or.inr hsink
    · exact Or.inl hcause
  case neg =>
    rw [set_sending session parameter value hconf hskip]
    rcases emit_cases (⟨session.mode, session.context.markCommitted, session.sink⟩ : Session σ)
      (.setRule session.context.domainPath session.context.confPath
        session.context.flattenedRules) with ⟨sent, hsent, hrules⟩ | ⟨cause, hrefused, hrules⟩
    · rw [hrules]
      refine Or.inr (Or.inr ⟨hconf, sent, by simpa [RulesSent, hskip] using hsent, ?_⟩)
      rcases hvalue sent with hsink | hcause
      · exact Or.inr hsink
      · exact Or.inl hcause
    · rw [hrules]
      refine Or.inr (Or.inl ⟨hconf, ?_, cause, hrefused, rfl⟩)
      intro hmode
      simpa [hmode] using hskip

end Session

end SettingsLang
