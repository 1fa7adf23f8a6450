import SettingsLang.Proofs.Restoration
import SettingsLang.Proofs.Stream

/-!
The stream that a session has sent and the levels that it has open always agree. What is open says
which domain and which configuration were created last; the mark of a configuration says whether
its rules were sent, unless the sink has refused a command and so takes no more. Every declaration
keeps this agreement, also where it fails halfway, so every script sends a well-formed stream.
-/

namespace SettingsLang

/-- The sink refuses every command from now on. -/
def Sink.Closed {σ : Type} [Sink σ] (sink : σ) : Prop :=
  ∀ command, ∃ cause, Sink.accept sink command = .error cause

/-- A sink that keeps what it takes and takes nothing more once it has refused a command. -/
structure Sink.Keeps {σ : Type} [Sink σ] (commands : σ → List Command) : Prop where
  taken : ∀ {sink after : σ} {command}, Sink.accept sink command = .ok after →
    commands after = commands sink ++ [command]
  closed : ∀ {sink : σ} {command cause}, Sink.accept sink command = .error cause →
    Sink.Closed sink

theorem CommandLog.keeps : Sink.Keeps fun log : CommandLog => log.commands.toList where
  taken h := by
    cases h
    simp
  closed h := by cases h

theorem Limited.keeps :
    Sink.Keeps fun sink : Limited CommandLog => sink.inner.commands.toList where
  taken {sink after command} h := by
    obtain ⟨log, _ | room⟩ := sink
    · cases h
    · cases h
      simp
  closed {sink command cause} h := by
    obtain ⟨log, _ | room⟩ := sink
    · exact fun _ => ⟨_, rfl⟩
    · cases h

namespace Session

variable {σ : Type} [Sink σ]

/-- The announcement of a level shows valid paths once the level is open. -/
theorem announcement_paths_valid {context : Context} {level : Level}
    (hcontext : context.WellFormed) (hopen : context.innermost = some level)
    {command : Command} (h : announcement context level = some command) :
    command.PathsValid := by
  cases level with
  | domainGroup | confGroup => cases h
  | domain =>
      cases h
      rw [Context.innermost_eq] at hopen
      obtain ⟨opened, hhead, hlevel⟩ := Option.map_eq_some_iff.mp hopen
      have hinside : Context.insideDomain context.shape = true := by
        simp [Context.insideDomain, hhead, hlevel]
      simpa [Command.PathsValid, Command.paths, hcontext.domain] using
        hcontext.nested.domainPath_valid hinside
  | conf =>
      cases h
      simpa [Command.PathsValid, Command.paths] using hcontext.paths_valid hopen

/-- An assignment to the innermost configuration shows valid paths. -/
theorem target_paths_valid {context : Context} (hcontext : context.WellFormed)
    (hconf : context.innermost = some .conf) {command : Command}
    (htarget : command.target? = some (context.domainPath, context.confPath)) :
    command.PathsValid := by
  simpa [Command.PathsValid, Command.paths_of_target htarget] using
    hcontext.paths_valid hconf

/-- In mode `once` the mark of the innermost configuration tells whether its rules were sent:
without the mark nothing was assigned, with it the rules came first. A sink that is closed may have
refused them. -/
def RulesAsMarked (context : Context) (sink : σ) (since : List Command) : Prop :=
  if context.isCommitted then
    Sink.Closed sink ∨ ∃ rules values,
      since = .setRule context.domainPath context.confPath rules :: values ∧
        ∀ command ∈ values, command.isSetParameter = true
  else since = []

/-- The stream sent so far is well formed, and the open levels agree with it. -/
structure Consistent (commands : σ → List Command) (session : Session σ) : Prop where
  stream : EachFollows session.mode (commands session.sink)
  context : session.context.WellFormed
  domain : Context.insideDomain session.context.shape = true →
    latestDomain? (commands session.sink) = some session.context.domainPath
  conf : session.context.innermost = some .conf →
    ∃ since, AssigningTo session.context.domainPath session.context.confPath since
        (commands session.sink) ∧
      (session.mode = .once → RulesAsMarked session.context session.sink since)

variable {commands : σ → List Command}

theorem start_consistent (mode : CommitMode) {sink : σ} (hempty : commands sink = []) :
    Consistent commands (start mode sink) where
  stream := by simpa [start, hempty] using EachFollows.nil mode
  context := .root
  domain h := by cases h
  conf h := by cases h

namespace Consistent

theorem remark {session : Session σ} (h : Consistent commands session) {context : Context}
    (hplace : session.context.SamePlace context)
    (honce : session.mode = .once → ∀ since,
      RulesAsMarked session.context session.sink since →
        RulesAsMarked context session.sink since) :
    Consistent commands { session with context } where
  stream := h.stream
  context := h.context.ofSamePlace hplace
  domain := by simpa only [hplace.shape, hplace.domain] using h.domain
  conf hconf := by
    rw [hplace.innermost] at hconf
    obtain ⟨since, hassign, hmarked⟩ := h.conf hconf
    refine ⟨since, ?_, fun hmode => honce hmode since (hmarked hmode)⟩
    simpa only [hplace.domain, hplace.conf] using hassign

/-- The innermost level is a configuration and the sink takes an assignment to it. -/
theorem assign {session : Session σ} (h : Consistent commands session) {context : Context}
    (hplace : session.context.SamePlace context)
    (hconf : session.context.innermost = some .conf) {command : Command} {after : σ}
    (htarget : command.target? = some (session.context.domainPath, session.context.confPath))
    (htaken : commands after = commands session.sink ++ [command])
    (hfollows : command.Follows session.mode (commands session.sink))
    (honce : session.mode = .once → ∀ since,
      RulesAsMarked session.context session.sink since →
        RulesAsMarked context after (since ++ [command])) :
    Consistent commands ⟨session.mode, context, after⟩ where
  stream := by
    rw [htaken]
    exact h.stream.snoc hfollows
  context := h.context.ofSamePlace hplace
  domain hinside := by
    have hnone : command.createdDomain? = none := by
      cases command <;> simp_all [Command.target?, Command.createdDomain?]
    rw [htaken, latestDomain?_append_singleton, hnone, Option.none_or]
    simp only [hplace.shape, hplace.domain] at hinside ⊢
    exact h.domain hinside
  conf _ := by
    obtain ⟨since, ⟨earlier, hearlier, hassign⟩, hmarked⟩ := h.conf hconf
    refine ⟨since ++ [command], ⟨earlier, ?_, ?_⟩, fun hmode =>
      honce hmode since (hmarked hmode)⟩
    · rw [htaken, hearlier]
      simp [hplace.domain, hplace.conf]
    · intro other hother
      rcases List.mem_append.mp hother with hold | hnew
      · exact hassign other hold
      · rw [List.mem_singleton.mp hnew, htarget]
        rfl

/-- Closing a level: a configuration is never the level around another one. -/
theorem leave {session : Session σ} (h : Consistent commands session) :
    Consistent commands session.leave := by
  have hshape : session.leave.context.shape = session.context.shape.tail :=
    Context.shape_leave session.context
  have hcontext : session.leave.context.WellFormed := h.context.leave
  have hdomain := h.domain
  have hnested := h.context.nested
  rw [h.context.domain] at hdomain
  refine ⟨h.stream, hcontext, ?_, ?_⟩
  · intro hinside
    rw [hshape] at hinside
    rw [hcontext.domain, hshape]
    rcases hopen : session.context.shape with _ | ⟨⟨level, name⟩, outer⟩
    · simp [hopen, Context.insideDomain] at hinside
    · rw [hopen] at hinside hdomain hnested
      obtain ⟨hlevel, hin⟩ := hnested.insideDomain_of_tail hinside
      have hlatest := hdomain hin
      rwa [Context.namesOf_cons, if_neg (by simp [hlevel])] at hlatest
  · intro hconf
    rw [Context.innermost_eq, hshape] at hconf
    rcases hopen : session.context.shape with _ | ⟨⟨level, name⟩, outer⟩
    · simp [hopen] at hconf
    · rw [hopen] at hconf hnested
      exact absurd hconf hnested.outer_ne_conf

/-- Opening a level: what is announced fits the stream, and the new level agrees with it. -/
theorem enter (hkeeps : Sink.Keeps commands) {session inner : Session σ}
    (h : Consistent commands session) {level : Level} {name : String}
    (henter : session.enter level name = (.ok (), inner)) : Consistent commands inner := by
  obtain ⟨context, sink, hopen, hsink, rfl⟩ := enter_ok henter
  have hshape := Context.shape_enter hopen
  have hcontext : context.WellFormed := h.context.enter hopen
  have hfresh : context.isCommitted = false := by
    obtain ⟨-, -, rfl⟩ := Context.enter_eq_ok hopen
    exact session.context.isCommitted_inside level name
  have hinnermost := Context.innermost_enter hopen
  -- a level of configurations lies in the domain that its surroundings lie in
  have hsame (hlevel : level.isDomainLevel = false) :
      latestDomain? (commands session.sink) = some context.domainPath := by
    have hnested := hshape ▸ hcontext.nested
    rw [h.domain (hnested.insideDomain_tail hlevel), h.context.domain, hcontext.domain, hshape,
      Context.namesOf_cons, if_neg (by simp [hlevel])]
  cases level with
  | domainGroup =>
      have hsame_sink : sink = session.sink := hsink
      refine ⟨hsame_sink ▸ h.stream, hcontext, ?_, ?_⟩
      · intro hinside
        simp [hshape, Context.insideDomain] at hinside
      · intro hconf
        simp [hinnermost] at hconf
  | confGroup =>
      have hsame_sink : sink = session.sink := hsink
      refine ⟨hsame_sink ▸ h.stream, hcontext, ?_, ?_⟩
      · intro _
        rw [hsame_sink]
        exact hsame rfl
      · intro hconf
        simp [hinnermost] at hconf
  | domain =>
      have htaken := hkeeps.taken (show Sink.accept session.sink
        (.createDomain context.domainPath) = .ok sink from hsink)
      refine ⟨?_, hcontext, ?_, ?_⟩
      · rw [htaken]
        exact h.stream.snoc ⟨announcement_paths_valid hcontext hinnermost rfl, by simp,
          by simp [Command.target?], by simp, by simp, by simp⟩
      · intro _
        rw [htaken, latestDomain?_append_singleton]
        rfl
      · intro hconf
        simp [hinnermost] at hconf
  | conf =>
      have htaken := hkeeps.taken (show Sink.accept session.sink
        (.createConfiguration context.domainPath context.confPath) = .ok sink from hsink)
      refine ⟨?_, hcontext, ?_, ?_⟩
      · rw [htaken]
        refine h.stream.snoc ⟨announcement_paths_valid hcontext hinnermost rfl, ?_,
          by simp [Command.target?], by simp, by simp, by simp⟩
        intro domain conf hcommand
        cases hcommand
        exact hsame rfl
      · intro _
        rw [htaken, latestDomain?_append_singleton]
        exact hsame rfl
      · intro _
        refine ⟨[], ⟨commands session.sink, htaken, by simp⟩, fun _ => ?_⟩
        simp [RulesAsMarked, hfresh]

theorem ruleWith {session : Session σ} (h : Consistent commands session) (criterion : String)
    (matcher : Matcher) (value : String) :
    Consistent commands (session.ruleWith criterion matcher value).2 := by
  rcases ruleWith_cases session criterion matcher value with ⟨_, hrun⟩ | ⟨_, hopen, hadd, hrun⟩
  · rw [hrun]
    exact h
  · rw [hrun]
    refine h.remark (.ofAddRule hadd) fun hmode since hmarked => ?_
    obtain ⟨frame, outer, hframes, rfl⟩ := Context.addRule_eq_ok hadd
    have hcommitted : frame.committed = false := by
      simpa [Context.isCommitted, hframes] using hopen hmode
    simpa [RulesAsMarked, Context.isCommitted, hframes, hcommitted] using hmarked

theorem paths_valid {session : Session σ} (h : Consistent commands session)
    (hconf : session.context.innermost = some .conf) {command : Command}
    (htarget : command.target? = some (session.context.domainPath, session.context.confPath)) :
    command.PathsValid :=
  target_paths_valid h.context hconf htarget

/-- The rules are sent, or they were before: the configuration is marked either way. -/
theorem rulesSent (hkeeps : Sink.Keeps commands) {session : Session σ}
    (h : Consistent commands session) (hconf : session.context.innermost = some .conf) {sent : σ}
    (hsent : RulesSent session sent) :
    Consistent commands ⟨session.mode, session.context.markCommitted, sent⟩ ∧
      (session.mode = .everySet → ∃ earlier rules, commands sent = earlier ++
        [.setRule session.context.domainPath session.context.confPath rules]) := by
  have hplace := Context.SamePlace.ofMarkCommitted session.context
  have hmark := Context.isCommitted_markCommitted hconf
  unfold RulesSent at hsent
  split at hsent
  · next hskip =>
      subst hsent
      refine ⟨h.remark hplace fun _ since hmarked => ?_, fun hmode => ?_⟩
      · simpa [RulesAsMarked, hmark, hskip.2] using hmarked
      · cases hmode.symm.trans hskip.1
  · next hsend =>
      have htaken := hkeeps.taken hsent
      have hunmarked (hmode : session.mode = .once) : session.context.isCommitted = false := by
        simpa [hmode] using hsend
      obtain ⟨since, hassign, hmarked⟩ := h.conf hconf
      refine ⟨h.assign hplace hconf rfl htaken ?_ ?_, fun _ => ⟨_, _, htaken⟩⟩
      · refine ⟨h.paths_valid hconf rfl, by simp, ?_, by simp, ?_, by simp⟩
        · intro domain conf htarget
          cases htarget
          exact ⟨since, hassign⟩
        · intro hmode domain conf rules hcommand
          cases hcommand
          have hnil := hmarked hmode
          rw [RulesAsMarked, if_neg (by simp [hunmarked hmode])] at hnil
          obtain ⟨earlier, hearlier, -⟩ := hassign
          exact ⟨earlier, by rw [hearlier, hnil]⟩
      · intro hmode since' hmarked'
        rw [RulesAsMarked, if_neg (by simp [hunmarked hmode])] at hmarked'
        rw [RulesAsMarked, if_pos hmark]
        refine Or.inr ⟨session.context.flattenedRules, [], ?_, by simp⟩
        simp [hmarked']

theorem valueSent (hkeeps : Sink.Keeps commands) {mode : CommitMode} {context : Context}
    {sent after : σ} (h : Consistent commands ⟨mode, context, sent⟩)
    (hconf : context.innermost = some .conf) (hmark : context.isCommitted = true)
    (hrules : mode = .everySet → ∃ earlier rules, commands sent = earlier ++
      [.setRule context.domainPath context.confPath rules]) {parameter value : String}
    (haccept : Sink.accept sent (.setParameter context.domainPath context.confPath
      parameter value) = .ok after) :
    Consistent commands ⟨mode, context, after⟩ := by
  have htaken := hkeeps.taken haccept
  have hopen : ¬ Sink.Closed sent := by
    intro hclosed
    obtain ⟨cause, hcause⟩ := hclosed (.setParameter context.domainPath context.confPath
      parameter value)
    cases haccept.symm.trans hcause
  obtain ⟨since, hassign, hmarked⟩ := h.conf hconf
  refine h.assign (.refl _) hconf rfl htaken ?_ ?_
  · refine ⟨h.paths_valid hconf rfl, by simp, ?_, ?_, by simp, ?_⟩
    · intro domain conf htarget
      cases htarget
      exact ⟨since, hassign⟩
    · intro hmode domain conf parameter' value' hcommand
      cases hcommand
      exact hrules hmode
    · intro hmode domain conf parameter' value' hcommand
      cases hcommand
      have hsince := hmarked hmode
      rw [RulesAsMarked, if_pos hmark] at hsince
      rcases hsince with hclosed | ⟨rules, values, rfl, hvalues⟩
      · exact absurd hclosed hopen
      · exact ⟨rules, values, hassign, hvalues⟩
  · intro hmode since' hmarked'
    rw [RulesAsMarked, if_pos hmark] at hmarked' ⊢
    rcases hmarked' with hclosed | ⟨rules, values, rfl, hvalues⟩
    · exact absurd hclosed hopen
    · refine Or.inr ⟨rules, values ++ [.setParameter context.domainPath context.confPath
        parameter value], by simp, ?_⟩
      intro command hcommand
      rcases List.mem_append.mp hcommand with hold | hnew
      · exact hvalues command hold
      · rw [List.mem_singleton.mp hnew]
        rfl

theorem set (hkeeps : Sink.Keeps commands) {session : Session σ}
    (h : Consistent commands session) (parameter value : String) :
    Consistent commands (session.set parameter value).2 := by
  rcases set_cases session parameter value with
    ⟨-, hrun⟩ | ⟨hconf, -, cause, hcause, hrun⟩ | ⟨hconf, sent, hsent, hvalue⟩
  · rw [hrun]
    exact h
  · rw [hrun]
    refine h.remark (.ofMarkCommitted _) fun _ since _ => ?_
    rw [RulesAsMarked, if_pos (Context.isCommitted_markCommitted hconf)]
    exact Or.inl (hkeeps.closed hcause)
  · obtain ⟨hconsistent, hrules⟩ := h.rulesSent hkeeps hconf hsent
    rcases hvalue with ⟨_, _, hrun⟩ | ⟨after, haccept, hrun⟩
    · rw [hrun]
      exact hconsistent
    · rw [hrun]
      rw [← Context.domainPath_markCommitted, ← Context.confPath_markCommitted] at hrules haccept
      exact hconsistent.valueSent hkeeps (session.context.innermost_markCommitted.trans hconf)
        (Context.isCommitted_markCommitted hconf) hrules haccept

end Consistent

theorem consistent_persistent (hkeeps : Sink.Keeps commands) :
    Persistent fun before after : Session σ =>
      Consistent commands before → Consistent commands after where
  refl _ h := h
  trans first second h := second (first h)
  ruleWith _ criterion matcher value h := h.ruleWith criterion matcher value
  set _ parameter value h := h.set hkeeps parameter value
  within henter hbody h := (hbody (h.enter hkeeps henter)).leave

end Session

/-- Every script sends a well-formed stream to a sink that keeps what it takes and stays closed
once it has refused a command. -/
theorem Script.run_wellFormed {σ : Type} [Sink σ] {commands : σ → List Command}
    (hkeeps : Sink.Keeps commands) (steps : List Step) (mode : CommitMode) {sink : σ}
    (hempty : commands sink = []) :
    WellFormedStream mode (commands (Script.run steps mode sink).session.sink) := by
  have hmode := (Script.run_context steps mode sink).2
  have hconsistent := Step.runAll_persistent (Session.consistent_persistent hkeeps) steps [] 0
    (Session.start mode sink) (Session.start_consistent mode hempty)
  have hstream := hconsistent.stream.wellFormed
  change WellFormedStream (Script.run steps mode sink).session.mode _ at hstream
  rwa [hmode] at hstream

/-- The commands that a script sends are well formed in every run: whichever failures the script
catches, and whether the sink takes everything or refuses all commands after the first `limit`. -/
theorem script_streams_wellFormed (steps : List Step) (mode : CommitMode) :
    WellFormedStream mode
      (Script.run steps mode CommandLog.empty).session.sink.commands.toList ∧
    ∀ limit : Nat, WellFormedStream mode
      (Script.run steps mode
        (⟨.empty, limit⟩ : Limited CommandLog)).session.sink.inner.commands.toList := by
  constructor
  · exact Script.run_wellFormed CommandLog.keeps steps mode rfl
  · intro limit
    exact Script.run_wellFormed Limited.keeps steps mode rfl

end SettingsLang
