import SettingsLang.Proofs.Consistency
import SettingsLang.Proofs.Rendering

/-!
Commands can be read back from their text. This rests on the paths being valid in every command that
is ever sent. A command is sent with levels open around it, and each of these had its name and its
place checked, whatever failures a script caught and whichever commands the sink refused before.
-/

namespace SettingsLang

/-- The commands that a sink holds: it keeps what it takes. It may refuse any command. -/
def Sink.Records {σ : Type} [Sink σ] (commands : σ → List Command) : Prop :=
  ∀ {sink after : σ} {command}, Sink.accept sink command = .ok after →
    commands after = commands sink ++ [command]

/-- The streams that evaluators send: to any sink, in either mode, for a description or for a script
that may catch its failures. -/
inductive Emitted : List Command → Prop where
  | description {σ : Type} [Sink σ] {commands : σ → List Command}
      (hrecords : Sink.Records commands) (blocks : Description) (mode : CommitMode) {sink : σ}
      (hempty : commands sink = []) : Emitted (commands (blocks.evaluate mode sink).2.sink)
  | script {σ : Type} [Sink σ] {commands : σ → List Command}
      (hrecords : Sink.Records commands) (steps : List Step) (mode : CommitMode) {sink : σ}
      (hempty : commands sink = []) :
      Emitted (commands (Script.run steps mode sink).session.sink)

namespace Session

variable {σ : Type} {commands : σ → List Command} {session inner : Session σ}

/-- The levels are open where they may be, and what was sent shows valid paths. -/
structure PathsSound (commands : σ → List Command) (session : Session σ) : Prop where
  context : session.context.WellFormed
  sent : ∀ command ∈ commands session.sink, command.PathsValid

namespace PathsSound

theorem start (mode : CommitMode) {sink : σ} (hempty : commands sink = []) :
    PathsSound commands (start mode sink) where
  context := .root
  sent := by simp [Session.start, hempty]

theorem ruleWith (h : PathsSound commands session) (criterion : String) (matcher : Matcher)
    (value : String) : PathsSound commands (session.ruleWith criterion matcher value).2 := by
  rcases session.ruleWith_cases criterion matcher value with ⟨_, hrun⟩ | ⟨_, -, hadd, hrun⟩
  · rw [hrun]
    exact h
  · rw [hrun]
    exact ⟨h.context.ofSamePlace (.ofAddRule hadd), h.sent⟩

theorem leave (h : PathsSound commands session) : PathsSound commands session.leave where
  context := h.context.leave
  sent := h.sent

variable [Sink σ]

/-- A command with valid paths is taken while the levels stay open as they are. -/
theorem send (hrecords : Sink.Records commands) (h : PathsSound commands session)
    {command : Command} (hcommand : command.PathsValid) {after : σ}
    (haccept : Sink.accept session.sink command = .ok after) :
    PathsSound commands { session with sink := after } where
  context := h.context
  sent := by
    rw [hrecords haccept]
    exact List.forall_mem_append.mpr ⟨h.sent, List.forall_mem_singleton.mpr hcommand⟩

/-- Both commands of an assignment name the configuration that is open. -/
theorem set (hrecords : Sink.Records commands) (h : PathsSound commands session)
    (parameter value : String) : PathsSound commands (session.set parameter value).2 := by
  have hmarked : PathsSound commands
      ⟨session.mode, session.context.markCommitted, session.sink⟩ :=
    ⟨h.context.ofSamePlace (.ofMarkCommitted _), h.sent⟩
  rcases session.set_cases parameter value with
    ⟨-, hrun⟩ | ⟨-, -, _, -, hrun⟩ | ⟨hconf, sent, hrules, hvalue⟩
  · rw [hrun]
    exact h
  · rw [hrun]
    exact hmarked
  · have hsent : PathsSound commands ⟨session.mode, session.context.markCommitted, sent⟩ := by
      unfold RulesSent at hrules
      split at hrules
      · exact hrules ▸ hmarked
      · exact hmarked.send hrecords (target_paths_valid h.context hconf rfl) hrules
    rcases hvalue with ⟨_, -, hrun⟩ | ⟨after, haccept, hrun⟩
    · rw [hrun]
      exact hsent
    · rw [hrun]
      exact hsent.send hrecords (target_paths_valid h.context hconf rfl) haccept

theorem enter (hrecords : Sink.Records commands) (h : PathsSound commands session)
    {level : Level} {name : String} (henter : session.enter level name = (.ok (), inner)) :
    PathsSound commands inner := by
  obtain ⟨context, sink, hopen, hsink, rfl⟩ := enter_ok henter
  have hcontext := h.context.enter hopen
  have hopened : PathsSound commands ⟨session.mode, context, session.sink⟩ := ⟨hcontext, h.sent⟩
  unfold Announced at hsink
  split at hsink
  · exact hsink ▸ hopened
  · next command hcommand =>
      exact hopened.send hrecords
        (announcement_paths_valid hcontext (Context.innermost_enter hopen) hcommand) hsink

end PathsSound

theorem pathsSound_persistent [Sink σ] (hrecords : Sink.Records commands) :
    Persistent fun before after : Session σ =>
      PathsSound commands before → PathsSound commands after where
  refl _ h := h
  trans first second h := second (first h)
  ruleWith _ criterion matcher value h := h.ruleWith criterion matcher value
  set _ parameter value h := h.set hrecords parameter value
  within henter hbody h := (hbody (h.enter hrecords henter)).leave

end Session

/-- Every command that is sent in any run shows valid paths. -/
theorem Emitted.paths_valid {stream : List Command} (h : Emitted stream) :
    ∀ command ∈ stream, command.PathsValid := by
  cases h with
  | description hrecords blocks mode hempty =>
      have hsound := (Session.pathsSound_persistent hrecords).evaluateAll blocks
        (.start mode _) (.start mode hempty)
      exact hsound.sent
  | script hrecords steps mode hempty =>
      have hsound := Step.runAll_persistent (Session.pathsSound_persistent hrecords) steps [] 0
        (.start mode _) (.start mode hempty)
      exact hsound.sent

/-- The text of a command that is sent tells its keyword and the names in its paths, whatever its
other texts are. It tells the whole command if no parameter, criterion or rule value has a space;
the value of a parameter may have some. If besides no text has a newline, the text that a writer
gets tells the whole stream. -/
theorem emitted_text_tells_commands {first second : List Command} (hfirst : Emitted first)
    (hsecond : Emitted second) :
    (∀ command ∈ first, ∀ other ∈ second, command.render = other.render →
      (command.keyword = other.keyword ∧ command.paths = other.paths) ∧
        (Lacks ' ' command.words → Lacks ' ' other.words → command = other)) ∧
    ((∀ command ∈ first ++ second, Lacks ' ' command.words) →
      (∀ command ∈ first ++ second, Lacks '\n' command.texts) →
      first.foldlM Sink.accept LineWriter.empty = second.foldlM Sink.accept LineWriter.empty →
      first = second) := by
  have hpaths : ∀ command ∈ first ++ second, command.PathsValid :=
    List.forall_mem_append.mpr ⟨hfirst.paths_valid, hsecond.paths_valid⟩
  constructor
  · intro command hcommand other hother htext
    have hvalid := hfirst.paths_valid command hcommand
    have hvalid' := hsecond.paths_valid other hother
    obtain ⟨hkeyword, hsame, -⟩ := Command.eq_of_render_eq hvalid hvalid' htext
    exact ⟨⟨hkeyword, hsame⟩, fun hwords hwords' =>
      Command.eq_of_render_eq_of_lacks hvalid hvalid' hwords hwords' htext⟩
  · intro hwords htexts hwritten
    rw [LineWriter.foldlM_accept, LineWriter.foldlM_accept] at hwritten
    have htext : LineWriter.textOf first = LineWriter.textOf second := by
      simpa [LineWriter.empty] using hwritten
    exact LineWriter.eq_of_textOf_eq hpaths htexts hwords htext

/-- A description and a script that catches a refusal send the same stream. Its text tells so, with
a space in the value. -/
theorem emitted_text_tells_gain :
    let described : List Command :=
      (Description.evaluate
        [.space .domain "Volume"
          [.space .conf "Loud"
            [.rule "Device" "is" (.text "Speaker"), .set "gain" (.text "3 dB")]]]
        .everySet CommandLog.empty).2.sink.commands.toList
    let scripted : List Command :=
      (Script.run
        [.within false .domain "Volume"
          [.within false .conf "Loud"
            [.call false (.ruleWith "Device" .is "Speaker"),
              .call false (.set "gain" (.text "3 dB")),
              .call true (.set "mute" (.boolean false))]]]
        .once (⟨.empty, 4⟩ : Limited CommandLog)).session.sink.inner.commands.toList
    Emitted described ∧ Emitted scripted ∧
      (∀ command ∈ described ++ scripted, Lacks ' ' command.words) ∧
      (∀ command ∈ described ++ scripted, Lacks '\n' command.texts) ∧
      described.foldlM Sink.accept LineWriter.empty =
        scripted.foldlM Sink.accept LineWriter.empty ∧
      (∀ command ∈ described, ∀ other ∈ scripted, command.render = other.render →
        command = other) ∧
      described = scripted := by
  intro described scripted
  have hdescribed : Emitted described := .description CommandLog.keeps.taken _ .everySet rfl
  have hscripted : Emitted scripted := .script Limited.keeps.taken _ .once rfl
  obtain ⟨hcommands, hstreams⟩ := emitted_text_tells_commands hdescribed hscripted
  have hwords : ∀ command ∈ described ++ scripted, Lacks ' ' command.words := by decide
  have htexts : ∀ command ∈ described ++ scripted, Lacks '\n' command.texts := by decide
  have hwritten : described.foldlM Sink.accept LineWriter.empty =
      scripted.foldlM Sink.accept LineWriter.empty := rfl
  refine ⟨hdescribed, hscripted, hwords, htexts, hwritten, ?_, hstreams hwords htexts hwritten⟩
  intro command hcommand other hother htext
  exact (hcommands command hcommand other hother htext).2
    (hwords command (List.mem_append_left _ hcommand))
    (hwords other (List.mem_append_right _ hother))

end SettingsLang
