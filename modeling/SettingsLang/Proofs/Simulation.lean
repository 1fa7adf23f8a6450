import SettingsLang.Proofs.Reflection
import SettingsLang.Proofs.Restoration

/-!
Evaluation does what the blocks mean. The context of the session reflects the place that has been
reached; then a block succeeds exactly if it has no offence there, fails with its offence if it
has one, and sends the commands that it stands for. The induction is over the tree: it goes into a
level with the context of its inside, and past it with the context from before.
-/

namespace SettingsLang

/-- No command is ever refused. -/
def Sink.RefusesNothing (σ : Type) [Sink σ] : Prop :=
  ∀ (sink : σ) (command : Command), ∃ after, Sink.accept sink command = .ok after

theorem CommandLog.refusesNothing : Sink.RefusesNothing CommandLog :=
  fun _ _ => ⟨_, rfl⟩

/-- The commands of an assignment are those for the context at its place. -/
theorem set_commands {before : List Occurrence} {around : Position} {index : Nat}
    {context : Context} (hplace : Reflects before around context)
    (hunreached : Unreached before around index) (mode : CommitMode) (parameter : String)
    (value : Scalar) :
    let occurrence : Occurrence := ⟨around ++ [index], .set parameter value⟩
    occurrence.commands mode (before ++ [occurrence]) before =
      let assignment := .setParameter context.domainPath context.confPath parameter value.render
      if mode = .once ∧ context.isCommitted = true then [assignment]
      else [.setRule context.domainPath context.confPath context.flattenedRules, assignment] := by
  simp only [Occurrence.commands, namesAround_snoc hunreached, Block.nameOf?,
    Occurrence.parent_snoc, Option.toList_none, List.append_nil]
  rw [hplace.domain, hplace.conf, hplace.mark, hplace.rules]

theorem level_commands {before : List Occurrence} {position : Position} {level : Level}
    {name : String} {body : List Block} {inner : Context}
    (hinside : Reflects (before ++ [⟨position, .space level name body⟩]) position inner)
    (mode : CommitMode) :
    let occurrence : Occurrence := ⟨position, .space level name body⟩
    occurrence.commands mode (before ++ [occurrence]) before =
      (Session.announcement inner level).toList := by
  cases level <;>
    simp [Occurrence.commands, Session.announcement, hinside.domain, hinside.conf]

variable {σ : Type} [Sink σ]

/-- An attempt that ended as blocks mean after those before them, with the commands in the sink
that they stand for. If it succeeded, its context is at the same place as it was. -/
structure Meant (session : Session σ) (before passed : List Occurrence) (around : Position)
    (attempt : Attempt σ) : Prop where
  result : attempt.1 = (meaning session.mode before passed).1
  sent : (meaning session.mode before passed).2.foldlM Sink.accept session.sink =
    .ok attempt.2.sink
  place : attempt.1 = .ok () → Reflects (before ++ passed) around attempt.2.context

namespace Meant

variable {session : Session σ} {before : List Occurrence} {around : Position}

theorem nothing (hplace : Reflects before around session.context) :
    Meant session before [] around session.unchanged where
  result := rfl
  sent := rfl
  place _ := by
    rw [List.append_nil]
    exact hplace

theorem offence {occurrence : Occurrence} {offence : Offence}
    (h : occurrence.offence? session.mode before before = some offence) (later : List Occurrence) :
    Meant session before (occurrence :: later) around (session.refuse offence) where
  result := by
    rw [meaning_offence h]
    rfl
  sent := by
    rw [meaning_offence h]
    rfl
  place hok := by cases hok

theorem single {occurrence : Occurrence} {after : Session σ}
    (hnone : occurrence.offence? session.mode before before = none)
    (hsent : (occurrence.commands session.mode (before ++ [occurrence]) before).foldlM
      Sink.accept session.sink = .ok after.sink)
    (hplace : Reflects (before ++ [occurrence]) around after.context) :
    Meant session before [occurrence] around (.ok (), after) where
  result := by
    rw [meaning_cons hnone]
    rfl
  sent := by
    rw [meaning_cons hnone]
    simpa [meaning] using hsent
  place _ := hplace

/-- A level and its body, from what the body does inside the level. -/
theorem level {inside : Position} {occurrence : Occurrence} {passed : List Occurrence}
    {inner : Session σ} {attempt : Attempt σ}
    (hnone : occurrence.offence? session.mode before before = none)
    (hsent : (occurrence.commands session.mode (before ++ [occurrence]) before).foldlM
      Sink.accept session.sink = .ok inner.sink)
    (hmode : inner.mode = session.mode)
    (hbody : Meant inner (before ++ [occurrence]) passed inside attempt)
    (hplace : Reflects (before ++ occurrence :: passed) around attempt.2.leave.context) :
    Meant session before (occurrence :: passed) around (attempt.1, attempt.2.leave) where
  result := by
    rw [meaning_cons hnone, ← hmode]
    exact hbody.result
  sent := by
    rw [meaning_cons hnone, List.foldlM_append, hsent, ← hmode]
    exact hbody.sent
  place _ := hplace

theorem andThen {first second : List Occurrence} {attempt : Attempt σ}
    {next : Session σ → Attempt σ} (hmode : attempt.2.mode = session.mode)
    (hfirst : Meant session before first around attempt)
    (hsecond : attempt.1 = .ok () → Meant attempt.2 (before ++ first) second around
      (next attempt.2)) :
    Meant session before (first ++ second) around (attempt.andThen next) := by
  rcases attempt with ⟨result, after⟩
  have hresult := hfirst.result
  have hsent := hfirst.sent
  rcases hmeaning : meaning session.mode before first with ⟨outcome, commands⟩
  rw [hmeaning] at hresult hsent
  dsimp only at hmode hresult hsent
  subst hresult
  cases result with
  | error failure =>
      constructor
      · simp [meaning_append, hmeaning, Attempt.andThen]
      · simpa [meaning_append, hmeaning, Attempt.andThen] using hsent
      · intro hok
        cases hok
  | ok _ =>
      have hrest := hsecond rfl
      dsimp only at hrest
      constructor
      · rw [meaning_append, hmeaning, ← hmode]
        exact hrest.result
      · rw [meaning_append, hmeaning, ← hmode]
        simp only [List.foldlM_append, hsent]
        exact hrest.sent
      · intro hok
        rw [← List.append_assoc]
        exact hrest.place hok

end Meant

section Step

variable {session : Session σ} {before : List Occurrence} {around : Position} {index : Nat}

theorem rule_meant (hplace : Reflects before around session.context)
    (criterion symbol : String) (value : Scalar) :
    Meant session before [⟨around ++ [index], .rule criterion symbol value⟩] around
      (session.rule criterion symbol value.render) := by
  unfold Session.rule
  cases hmatcher : Matcher.ofSymbol? symbol with
  | none =>
      apply Meant.offence
      simp [Occurrence.offence?, hmatcher]
  | some matcher =>
      dsimp only
      by_cases hlate : session.mode = .once ∧ session.context.isCommitted = true
      case pos =>
        rw [Session.ruleWith_late session criterion matcher value.render hlate]
        apply Meant.offence
        rw [hplace.mark] at hlate
        simp [Occurrence.offence?, hmatcher, hlate, hplace.describe]
      rw [Session.ruleWith_early session criterion matcher value.render hlate]
      rw [hplace.mark] at hlate
      rcases session.context.addRule_cases ⟨criterion, matcher, value.render⟩ with
        ⟨hlevel, hadd⟩ | ⟨hlevel, after, hadd⟩
      · rw [hadd]
        apply Meant.offence
        rw [hplace.level] at hlevel
        simp [Occurrence.offence?, hmatcher, hlate, hlevel, Context.misplaced, hplace.describe]
      · have hinside := hplace.ne_root hlevel
        obtain ⟨hrules, hmark⟩ := Context.addRule_adds hadd
        rw [hadd]
        apply Meant.single
        · rw [hplace.level] at hlevel
          simp [Occurrence.offence?, hmatcher, hlate, hlevel]
        · rfl
        · refine hplace.past (.rule criterion symbol value) (.ofAddRule hadd) ?_ ?_
          · simpa [hinside, Block.rule?, hmatcher] using hrules
          · simpa [Block.isSet] using hmark

theorem Sink.RefusesNothing.emit (hopen : Sink.RefusesNothing σ) (session : Session σ)
    (command : Command) :
    ∃ sink, Sink.accept session.sink command = .ok sink ∧
      session.emit command = (.ok (), { session with sink }) := by
  obtain ⟨sink, haccept⟩ := hopen session.sink command
  refine ⟨sink, haccept, ?_⟩
  rw [Session.emit, haccept]

theorem set_meant (hopen : Sink.RefusesNothing σ)
    (hplace : Reflects before around session.context)
    (hunreached : Unreached before around index) (parameter : String) (value : Scalar) :
    Meant session before [⟨around ++ [index], .set parameter value⟩] around
      (session.set parameter value.render) := by
  by_cases hconf : session.context.innermost = some .conf
  case neg =>
    rw [session.set_outside parameter value.render hconf]
    apply Meant.offence
    rw [hplace.level] at hconf
    simp [Occurrence.offence?, hconf, Context.misplaced, hplace.describe]
  have hnone : Occurrence.offence? session.mode before before
      ⟨around ++ [index], .set parameter value⟩ = none := by
    rw [hplace.level] at hconf
    simp [Occurrence.offence?, hconf]
  have hafter : Reflects (before ++ [⟨around ++ [index], .set parameter value⟩]) around
      session.context.markCommitted := by
    refine hplace.past (.set parameter value) (.ofMarkCommitted _) ?_ ?_
    · simp [Context.flattenedRules_markCommitted, Block.rule?]
    · simp [Context.isCommitted_markCommitted hconf, Block.isSet]
  have hcommands := set_commands hplace hunreached session.mode parameter value
  by_cases hskip : session.mode = .once ∧ session.context.isCommitted = true
  · rw [session.set_skipping parameter value.render hconf hskip]
    obtain ⟨sink, haccept, hemit⟩ := hopen.emit
      ⟨session.mode, session.context.markCommitted, session.sink⟩
      (.setParameter session.context.domainPath session.context.confPath parameter value.render)
    rw [hemit]
    refine Meant.single hnone ?_ hafter
    rw [hcommands, if_pos hskip]
    simpa using haccept
  · rw [session.set_sending parameter value.render hconf hskip]
    obtain ⟨sent, hrules, hemit⟩ := hopen.emit
      ⟨session.mode, session.context.markCommitted, session.sink⟩
      (.setRule session.context.domainPath session.context.confPath
        session.context.flattenedRules)
    obtain ⟨sink, hvalue, hemitValue⟩ := hopen.emit
      ⟨session.mode, session.context.markCommitted, sent⟩
      (.setParameter session.context.domainPath session.context.confPath parameter value.render)
    rw [hemit]
    dsimp only [Attempt.andThen]
    rw [hemitValue]
    refine Meant.single hnone ?_ hafter
    have hlast : [Command.setParameter session.context.domainPath session.context.confPath
        parameter value.render].foldlM Sink.accept sent = .ok sink := by
      simpa using hvalue
    rw [hcommands, if_neg hskip, List.foldlM_cons, hrules]
    exact hlast

/-- A level, with the sink after its announcement if it may be opened. -/
theorem enter_meant (hopen : Sink.RefusesNothing σ)
    (hplace : Reflects before around session.context)
    (hunreached : Unreached before around index) (level : Level) (name : String)
    (body : List Block) :
    let occurrence : Occurrence := ⟨around ++ [index], .space level name body⟩
    (∃ offence, occurrence.offence? session.mode before before = some offence ∧
      session.enter level name = session.refuse offence) ∨
    (occurrence.offence? session.mode before before = none ∧
      ∃ inner : Session σ, session.enter level name = (.ok (), inner) ∧
        (occurrence.commands session.mode (before ++ [occurrence]) before).foldlM
          Sink.accept session.sink = .ok inner.sink ∧
        inner.mode = session.mode ∧ inner.context.leave = session.context ∧
        Reflects (before ++ [occurrence]) (around ++ [index]) inner.context) := by
  intro occurrence
  have hlevel := hplace.level
  rcases session.context.enter_cases level name with
    ⟨fault, hname, henter⟩ | ⟨hname, hallowed, henter⟩ | ⟨hname, hallowed, henter⟩
  · refine Or.inl ⟨.invalidName name fault.reason, ?_, ?_⟩
    · simp [occurrence, Occurrence.offence?, hname]
    · rw [Session.enter, henter]
  · refine Or.inl ⟨session.context.misplaced level.keyword, ?_, ?_⟩
    · rw [hlevel] at hallowed
      simp [occurrence, Occurrence.offence?, hname, hallowed, Context.misplaced,
        hplace.describe]
    · rw [Session.enter, henter]
  · have hnone : occurrence.offence? session.mode before before = none := by
      rw [hlevel] at hallowed
      simp [occurrence, Occurrence.offence?, hname, hallowed]
    have hinside := hplace.enter hunreached level name body
    have hleave := session.context.leave_inside level name
    refine Or.inr ⟨hnone, ?_⟩
    rw [level_commands hinside]
    simp only [Session.enter, henter]
    cases hcommand : Session.announcement (session.context.inside level name) level with
    | none => exact ⟨_, rfl, rfl, rfl, hleave, hinside⟩
    | some command =>
        obtain ⟨sink, haccept, hemit⟩ := hopen.emit
          { session with context := session.context.inside level name } command
        simp only [hemit]
        exact ⟨_, rfl, by simpa using haccept, rfl, hleave, hinside⟩

end Step

mutual

theorem Block.evaluate_meant (hopen : Sink.RefusesNothing σ) :
    ∀ (block : Block) (session : Session σ) {before : List Occurrence} {around : Position}
      {index : Nat}, Reflects before around session.context → Unreached before around index →
      Meant session before (block.occurrences (around ++ [index])) around (block.evaluate session)
  | .space level name body, session, before, around, index, hplace, hunreached => by
    rw [occurrences, evaluate, Session.within]
    rcases enter_meant hopen hplace hunreached level name body with
      ⟨offence, hoffence, henter⟩ | ⟨hnone, inner, henter, hsent, hmode, hleave, hinside⟩
    · rw [henter]
      exact Meant.offence hoffence _
    · rw [henter]
      have hbody := evaluateAll_meant hopen body inner hinside (hunreached.enter _)
      have hkept := Session.sameAround_persistent.evaluateAll body inner
      refine Meant.level hnone hsent hmode hbody ?_
      -- the body has kept the levels around it, so the context is the one from before
      have hrestored : (evaluateAll body inner).2.leave.context = session.context :=
        hkept.2.2.trans hleave
      rw [hrestored]
      exact hplace.past (.space level name body) (.refl _) (by simp [rule?]) (by simp [isSet])
  | .rule criterion symbol value, session, before, around, index, hplace, hunreached => by
    rw [occurrences, evaluate]
    · exact rule_meant hplace criterion symbol value
    all_goals simp
  | .set parameter value, session, before, around, index, hplace, hunreached => by
    rw [occurrences, evaluate]
    · exact set_meant hopen hplace hunreached parameter value
    all_goals simp
  | .component name, session, before, around, index, hplace, hunreached => by
    rw [occurrences, evaluate]
    · exact Meant.offence rfl []
    all_goals simp
  | .confType name, session, before, around, index, hplace, hunreached => by
    rw [occurrences, evaluate]
    · exact Meant.offence rfl []
    all_goals simp

/-- Blocks that are evaluated at their place do what they mean there. -/
theorem Block.evaluateAll_meant (hopen : Sink.RefusesNothing σ) :
    ∀ (blocks : List Block) (session : Session σ) {before : List Occurrence} {around : Position}
      {index : Nat}, Reflects before around session.context → Unreached before around index →
      Meant session before (occurrencesAll around index blocks) around
        (evaluateAll blocks session)
  | [], session, before, around, index, hplace, hunreached => by
    rw [occurrencesAll, evaluateAll]
    exact Meant.nothing hplace
  | block :: rest, session, before, around, index, hplace, hunreached => by
    rw [occurrencesAll, evaluateAll]
    have hfirst := evaluate_meant hopen block session hplace hunreached
    have hkept := Session.sameAround_persistent.evaluate block session
    refine hfirst.andThen hkept.1 fun hok => ?_
    exact evaluateAll_meant hopen rest _ (hfirst.place hok)
      (hunreached.past (block.prefix_of_mem_occurrences (around ++ [index])))

end

theorem Description.evaluate_meant (hopen : Sink.RefusesNothing σ) (description : Description)
    (mode : CommitMode) (sink : σ) :
    Meant (Session.start mode sink) [] description.occurrences []
      (description.evaluate mode sink) :=
  Block.evaluateAll_meant hopen description _ Reflects.root Unreached.start

end SettingsLang
