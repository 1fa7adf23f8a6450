import SettingsLang.Proofs.Lockstep
import SettingsLang.Proofs.Repeats
import SettingsLang.Proofs.RulesFirst

/-!
The two modes compared. A description is evaluated side by side in mode `once` and in mode
`everySet`. Both runs have the same context all along, marks included, until a rule comes too late
for mode `once`; up to there the one stream is the other without the rules that are sent again. No
rule can come between two assignments of a configuration then, so these rules are the same each
time and nothing is lost.
-/

namespace SettingsLang

/-- The command that sends the rules which hold in a context for the configuration there. -/
def Context.ruleCommand (context : Context) : Command :=
  .setRule context.domainPath context.confPath context.flattenedRules

theorem Context.ruleCommand_markCommitted (context : Context) :
    context.markCommitted.ruleCommand = context.ruleCommand := by
  simp [ruleCommand, flattenedRules_markCommitted]

/-- What the mark of a configuration tells about the stream: whether its rules were sent, and that
they were the rules that hold now. -/
structure MarkTells (context : Context) (stream : List Command) : Prop where
  sent : guardSent stream = context.isCommitted
  first : context.isCommitted = true → SentFirst stream context.ruleCommand

/-- Two sessions in the same context that differ in the mode and in the rules sent again. -/
structure SideBySide (once every : Session CommandLog) : Prop where
  mode_once : once.mode = .once
  mode_every : every.mode = .everySet
  context : once.context = every.context
  stream : Thinned once.sink.commands.toList every.sink.commands.toList
  mark : every.context.innermost = some .conf →
    MarkTells every.context every.sink.commands.toList

theorem Session.emit_log (session : Session CommandLog) (command : Command) :
    session.emit command =
      (.ok (), { session with sink := ⟨session.sink.commands.push command⟩ }) :=
  rfl

/-- The runs in the two modes part where the one in mode `once` fails alone. -/
def Comparison.modes : Comparison CommandLog CommandLog where
  together := SideBySide
  apart _ _ := True
  parting _ := True

namespace SideBySide

variable {once every : Session CommandLog}

theorem start : SideBySide (.start .once .empty) (.start .everySet .empty) where
  mode_once := rfl
  mode_every := rfl
  context := rfl
  stream := Thinned.nil
  mark h := by cases h

theorem ruleWith (h : SideBySide once every) (criterion : String) (matcher : Matcher)
    (value : String) :
    Comparison.modes.Alike Comparison.modes.Parts (once.ruleWith criterion matcher value)
      (every.ruleWith criterion matcher value) := by
  have hearly : ¬ (every.mode = .once ∧ every.context.isCommitted = true) := by simp [h.mode_every]
  by_cases hlate : once.mode = .once ∧ once.context.isCommitted = true
  case pos =>
    rw [once.ruleWith_late criterion matcher value hlate]
    exact Or.inr ⟨trivial, trivial⟩
  rw [once.ruleWith_early criterion matcher value hlate,
    every.ruleWith_early criterion matcher value hearly, h.context]
  rcases every.context.addRule_cases ⟨criterion, matcher, value⟩ with
    ⟨-, hadd⟩ | ⟨-, context, hadd⟩
  · rw [hadd]
    exact Or.inl ⟨rfl, h⟩
  · rw [hadd]
    refine Or.inl ⟨rfl, h.mode_once, h.mode_every, rfl, h.stream, fun hconf => ?_⟩
    have hinnermost : every.context.innermost = some .conf := by
      rw [← (Context.SamePlace.ofAddRule hadd).innermost, hconf]
    have hfresh : context.isCommitted = false := by
      rw [(Context.addRule_adds hadd).2, ← h.context]
      simpa [h.mode_once] using hlate
    refine ⟨?_, fun hmark => ?_⟩
    · rw [(h.mark hinnermost).sent, (Context.addRule_adds hadd).2]
    · dsimp only at hmark
      rw [hfresh] at hmark
      cases hmark

/-- After an assignment the mark is set, and the rules sent first are the rules that hold. -/
theorem markTells_assigned {context : Context} {stream : List Command} {command : Command}
    (hconf : context.innermost = some .conf) (hfirst : SentFirst stream context.ruleCommand)
    (hsent : guardSent stream = true) (hcommand : command.isCreateConfiguration = false) :
    MarkTells context.markCommitted (stream ++ [command]) where
  sent := by
    rw [guardSent_snoc, Context.isCommitted_markCommitted hconf, hsent, hcommand]
    simp
  first _ := context.ruleCommand_markCommitted ▸ hfirst.snoc hcommand

/-- In mode `once` a second assignment sends its value only; in mode `everySet` the rules go with it
and are those that were sent first. -/
theorem set (h : SideBySide once every) (parameter value : String) :
    Comparison.modes.Alike Comparison.modes.Parts (once.set parameter value)
      (every.set parameter value) := by
  by_cases hconf : every.context.innermost = some .conf
  case neg =>
    have hconf' : once.context.innermost ≠ some .conf := by rwa [h.context]
    rw [once.set_outside parameter value hconf', every.set_outside parameter value hconf, h.context]
    exact Or.inl ⟨rfl, h⟩
  have hconf' : once.context.innermost = some .conf := by rwa [h.context]
  have hsend : ¬ (every.mode = .once ∧ every.context.isCommitted = true) := by simp [h.mode_every]
  have hmark := h.mark hconf
  rw [every.set_sending parameter value hconf hsend, Session.emit_log]
  dsimp only [Attempt.andThen]
  rw [Session.emit_log]
  by_cases hskip : once.mode = .once ∧ once.context.isCommitted = true
  case pos =>
    -- the rules were sent and none has come since, so mode `everySet` sends the same ones again
    have hcommitted : every.context.isCommitted = true := h.context ▸ hskip.2
    have hsent : guardSent every.sink.commands.toList = true := hmark.sent.trans hcommitted
    have hfirst := hmark.first hcommitted
    rw [once.set_skipping parameter value hconf' hskip, h.context, Session.emit_log]
    refine Or.inl ⟨rfl, h.mode_once, h.mode_every, rfl, ?_, fun _ => ?_⟩ <;>
      simp only [Array.toList_push]
    · exact (h.stream.again rfl hsent hfirst).both nofun
    · exact markTells_assigned hconf (hfirst.snoc rfl) (by rw [guardSent_snoc]; rfl) rfl
  case neg =>
    have huncommitted : every.context.isCommitted = false := by
      rw [← h.context]
      simpa [h.mode_once] using hskip
    have hunsent : guardSent every.sink.commands.toList = false := hmark.sent.trans huncommitted
    rw [once.set_sending parameter value hconf' hskip, h.context, Session.emit_log]
    dsimp only [Attempt.andThen]
    rw [Session.emit_log]
    refine Or.inl ⟨rfl, h.mode_once, h.mode_every, rfl, ?_, fun _ => ?_⟩ <;>
      simp only [Array.toList_push]
    · exact (h.stream.both fun _ => hunsent).both nofun
    · have hfirst : SentFirst (every.sink.commands.toList ++ [every.context.ruleCommand])
          every.context.ruleCommand := ⟨_, [], rfl, hunsent, by simp⟩
      exact markTells_assigned hconf hfirst (by rw [guardSent_snoc]; rfl) rfl

/-- Both sessions open a level and send its announcement, if it has one. -/
theorem opened (h : SideBySide once every) {context : Context} {level : Level} {name : String}
    (hopen : every.context.enter level name = .ok context) {onceSink everySink : CommandLog}
    (hstream : Thinned onceSink.commands.toList everySink.commands.toList)
    (hfresh : level = .conf → guardSent everySink.commands.toList = false) :
    SideBySide ⟨once.mode, context, onceSink⟩ ⟨every.mode, context, everySink⟩ where
  mode_once := h.mode_once
  mode_every := h.mode_every
  context := rfl
  stream := hstream
  mark hconf := by
    have hlevel : level = .conf := Option.some.inj ((Context.innermost_enter hopen).symm.trans hconf)
    obtain ⟨-, -, rfl⟩ := Context.enter_eq_ok hopen
    have hunmarked := every.context.isCommitted_inside level name
    refine ⟨(hfresh hlevel).trans hunmarked.symm, fun hmark => ?_⟩
    cases hunmarked.symm.trans hmark

theorem enter (h : SideBySide once every) (level : Level) (name : String) :
    Comparison.modes.Alike Comparison.modes.Parts (once.enter level name)
      (every.enter level name) := by
  simp only [Session.enter, h.context]
  cases hopen : every.context.enter level name with
  | error offence => exact Or.inl ⟨rfl, h⟩
  | ok context =>
      have hannounced (command : Command) (hcommand : command.isSetRule = false) :
          Thinned (once.sink.commands.push command).toList
            (every.sink.commands.push command).toList := by
        rw [Array.toList_push, Array.toList_push]
        exact h.stream.both fun hrule => by simp [hcommand] at hrule
      cases level with
      | domainGroup | confGroup => exact Or.inl ⟨rfl, h.opened hopen h.stream (by simp)⟩
      | domain => exact Or.inl ⟨rfl, h.opened hopen (hannounced _ rfl) (by simp)⟩
      | conf =>
          refine Or.inl ⟨rfl, h.opened hopen (hannounced _ rfl) fun _ => ?_⟩
          rw [Array.toList_push, guardSent_snoc]
          rfl

theorem leave {inner afterOnce afterEvery : Session CommandLog} {level : Level} {name : String}
    (henter : once.enter level name = (.ok (), inner)) (h : SideBySide once every)
    (hafter : SideBySide afterOnce afterEvery) (honce : afterOnce.leave.context = once.context)
    (hevery : afterEvery.leave.context = every.context) :
    SideBySide afterOnce.leave afterEvery.leave where
  mode_once := hafter.mode_once
  mode_every := hafter.mode_every
  context := by rw [honce, hevery, h.context]
  stream := hafter.stream
  mark hconf := by
    -- no level is opened in a configuration, so there is none around this one
    obtain ⟨context, _, hopen, -, -⟩ := Session.enter_ok henter
    have hplace := (Context.enter_eq_ok hopen).2.1
    rw [hevery] at hconf
    rw [h.context, hconf] at hplace
    cases level <;> simp [Level.allowedIn] at hplace

end SideBySide

theorem Comparison.modes_stable : Comparison.modes.Stable where
  ruleWith h := h.ruleWith
  set h := h.set
  enter h := h.enter
  leave := SideBySide.leave
  takenLeft _ _ _ := trivial
  takenRight _ _ _ := trivial

/-- The commands that a description sends to a log. -/
def Description.sent (description : Description) (mode : CommitMode) : List Command :=
  (description.evaluate mode CommandLog.empty).2.sink.commands.toList

/-- A sink that refuses nothing gets the commands that a log gets. -/
theorem Description.sent_accepted {σ : Type} [Sink σ] (hopen : Sink.RefusesNothing σ)
    (description : Description) (mode : CommitMode) (sink : σ) :
    (description.sent mode).foldlM Sink.accept sink =
      .ok (description.evaluate mode sink).2.sink := by
  have hlog := description.evaluate_sent CommandLog.refusesNothing mode CommandLog.empty
  rw [CommandLog.foldlM_accept, Except.ok.injEq] at hlog
  rw [sent, ← hlog, ← description.evaluate_sent hopen mode sink]
  simp [CommandLog.empty]

theorem Description.sent_eq (description : Description) (mode : CommitMode) :
    description.sent mode = (meaning mode [] description.occurrences).2 := by
  have hsent := description.evaluate_sent CommandLog.refusesNothing mode CommandLog.empty
  rw [CommandLog.foldlM_accept, Except.ok.injEq] at hsent
  rw [sent, ← hsent, description.meaning_eq mode]
  simp [CommandLog.empty]

/-- A description is accepted, and these are its commands. -/
theorem Description.meaning_eq_ok_iff {description : Description} {mode : CommitMode}
    {commands : List Command} {σ : Type} [Sink σ]
    (hopen : Sink.RefusesNothing σ) (sink : σ) :
    meaning mode [] description.occurrences = (.ok (), commands) ↔
      (description.evaluate mode sink).1 = .ok () ∧ description.sent mode = commands := by
  rw [description.evaluate_result hopen mode sink, description.sent_eq mode, Prod.ext_iff,
    description.meaning_eq mode]

/-- Where mode `once` accepts a description, the two streams differ in repeated rules only. -/
theorem Description.sent_thinned {description : Description}
    (h : (description.evaluate .once CommandLog.empty).1 = .ok ()) :
    Thinned (description.sent .once) (description.sent .everySet) := by
  rcases Comparison.modes_stable.evaluateAll description SideBySide.start with
    ⟨-, htogether⟩ | ⟨hparted, -⟩
  · exact htogether.stream
  · change Comparison.modes.Parts (description.evaluate .once CommandLog.empty).1 at hparted
    rw [h] at hparted
    exact hparted.elim

/-- Mode `once` is mode `everySet` without the rules that are sent again. It accepts a description
exactly if mode `everySet` does and no configuration has a rule after an assignment. If it does, the
one stream is the other without all rules but the first after each creation of a configuration.
Each of those left out is equal to the first one of its configuration, so that nothing is lost. -/
theorem once_drops_repeated_rules {σ : Type} [Sink σ] (hopen : Sink.RefusesNothing σ)
    (description : Description) (sink : σ) :
    let once := description.evaluate .once sink
    let every := description.evaluate .everySet sink
    (description.sent .once).foldlM Sink.accept sink = .ok once.2.sink ∧
      (description.sent .everySet).foldlM Sink.accept sink = .ok every.2.sink ∧
      (once.1 = .ok () ↔ every.1 = .ok () ∧ description.ConfsRulesFirst) ∧
      (once.1 = .ok () →
        description.sent .once = withoutRepeats [] (description.sent .everySet) ∧
          RepeatsAgree (description.sent .everySet) ∧
          ∀ command ∈ description.sent .everySet, command ∈ description.sent .once) := by
  intro once every
  have honce : once.1 = description.verdict .once := description.evaluate_result hopen .once sink
  have hevery : every.1 = description.verdict .everySet :=
    description.evaluate_result hopen .everySet sink
  refine ⟨description.sent_accepted hopen .once sink,
    description.sent_accepted hopen .everySet sink, ?_, fun hok => ?_⟩
  · rw [honce, hevery, Description.verdict_eq_ok_iff_wellNested,
      Description.verdict_eq_ok_iff_wellNested, Description.wellNested_once_iff]
  · have hlog := description.evaluate_result CommandLog.refusesNothing .once CommandLog.empty
    rw [← honce, hok] at hlog
    have hthinned := Description.sent_thinned hlog
    refine ⟨hthinned.stream, hthinned.repeats, fun command hmem => ?_⟩
    rw [hthinned.stream]
    exact hthinned.repeats.mem_withoutRepeats hmem

/-- With two assignments the rules are sent twice in mode `everySet` and once in mode `once`. -/
theorem once_drops_rules_of_mute :
    let description : Description :=
      [.space .domain "Volume"
        [.space .conf "Loud"
          [.rule "Device" "is" (.text "Speaker"), .set "gain" (.text "3"),
            .set "mute" (.boolean false)]]]
    let domain : NamePath := ⟨["Volume"]⟩
    let conf : NamePath := ⟨["Loud"]⟩
    let rules := Command.setRule domain conf ⟨[⟨"Device", .is, "Speaker"⟩]⟩
    Sink.RefusesNothing CommandLog ∧ description.ConfsRulesFirst ∧
      description.sent .everySet =
        [.createDomain domain, .createConfiguration domain conf, rules,
          .setParameter domain conf "gain" "3", rules,
          .setParameter domain conf "mute" "false"] ∧
      description.sent .once =
        [.createDomain domain, .createConfiguration domain conf, rules,
          .setParameter domain conf "gain" "3", .setParameter domain conf "mute" "false"] := by
  intro description domain conf rules
  obtain ⟨-, -, haccepted, hstream⟩ :=
    once_drops_repeated_rules CommandLog.refusesNothing description CommandLog.empty
  have hevery : description.sent .everySet =
      [.createDomain domain, .createConfiguration domain conf, rules,
        .setParameter domain conf "gain" "3", rules,
        .setParameter domain conf "mute" "false"] := rfl
  have hok : (description.evaluate .once CommandLog.empty).1 = .ok () := rfl
  refine ⟨CommandLog.refusesNothing, (haccepted.mp hok).2, hevery, ?_⟩
  rw [(hstream hok).1, hevery]
  rfl

end SettingsLang
