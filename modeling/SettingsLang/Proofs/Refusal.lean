import SettingsLang.Proofs.OpenLevels

/-!
Declarations that fail. All but one leave the session as it was. An assignment marks its
configuration before it sends anything, and a refusal does not take the mark back: the rules then
count as sent though no sink has taken them. Only mode `once` looks at the mark, so only there a
script that catches the failure can tell.
-/

namespace SettingsLang

namespace Context

theorem describe_markCommitted (context : Context) :
    context.markCommitted.describe = context.describe := by
  simp [describe]

/-- Marking a level shows unless it was marked before. -/
theorem markCommitted_eq_self_iff {context : Context} {level : Level}
    (h : context.innermost = some level) :
    context.markCommitted = context ↔ context.isCommitted = true := by
  rcases context with ⟨_, _, _ | ⟨frame, outer⟩⟩
  · cases h
  · obtain ⟨opened, rules, committed⟩ := frame
    simp [markCommitted, isCommitted, eq_comm]

end Context

namespace Session

variable {σ : Type} {session after : Session σ} {failure : Failure}

theorem ruleWith_failed {criterion value : String} {matcher : Matcher}
    (h : session.ruleWith criterion matcher value = (.error failure, after)) :
    after = session := by
  rcases session.ruleWith_cases criterion matcher value with ⟨_, hrun⟩ | ⟨_, -, -, hrun⟩
  · rw [hrun] at h
    exact (congrArg Prod.snd h).symm
  · rw [hrun] at h
    cases h

theorem rule_failed {criterion symbol value : String}
    (h : session.rule criterion symbol value = (.error failure, after)) : after = session := by
  unfold rule at h
  split at h
  · exact (congrArg Prod.snd h).symm
  · exact ruleWith_failed h

variable [Sink σ]

/-- An assignment that fails in a configuration has marked it, whichever command was refused. -/
theorem set_failed {parameter value : String}
    (h : session.set parameter value = (.error failure, after)) :
    (session.context.innermost ≠ some .conf ∧ after = session) ∨
      (session.context.innermost = some .conf ∧ after.mode = session.mode ∧
        after.context = session.context.markCommitted) := by
  rcases session.set_cases parameter value with
    ⟨hplace, hrun⟩ | ⟨hconf, -, _, -, hrun⟩ | ⟨hconf, _, -, ⟨_, -, hrun⟩ | ⟨_, -, hrun⟩⟩ <;>
    rw [hrun] at h
  · exact Or.inl ⟨hplace, (congrArg Prod.snd h).symm⟩
  · cases h
    exact Or.inr ⟨hconf, rfl, rfl⟩
  · cases h
    exact Or.inr ⟨hconf, rfl, rfl⟩
  · cases h

/-- In mode `once` a marked configuration takes no more rules, and its assignments send none. -/
theorem once_marked (hmode : session.mode = .once) (hconf : session.context.innermost = some .conf)
    (hmark : session.context.isCommitted = true) :
    (∀ criterion matcher value, session.ruleWith criterion matcher value =
      session.refuse (.misplaced "rule" s!"after the first set {session.context.describe}")) ∧
    ∀ parameter value, session.set parameter value = session.emit
      (.setParameter session.context.domainPath session.context.confPath parameter value) := by
  refine ⟨fun criterion matcher value => ?_, fun parameter value => ?_⟩
  · exact session.ruleWith_late criterion matcher value ⟨hmode, hmark⟩
  · rw [session.set_skipping parameter value hconf ⟨hmode, hmark⟩,
      (Context.markCommitted_eq_self_iff hconf).mpr hmark]

end Session

/-- A declaration that fails leaves the session as it was, unless it is an assignment in a
configuration. That one leaves its mark in the context, which is a change exactly if it is the first
assignment there. In mode `once` the configuration then takes no more rules and sends none, also if
the sink has refused them. -/
theorem failed_calls_leave_mark {σ : Type} [Sink σ] (session after : Session σ) (call : Call)
    (failure : Failure) (hcall : ∀ tree, call ≠ .block tree)
    (hrun : call.run session = (.error failure, after)) :
    let assigns := (∃ parameter value, call = .set parameter value) ∧
      session.context.innermost = some .conf
    (¬ assigns → after = session) ∧
      (assigns → after.mode = session.mode ∧ after.context = session.context.markCommitted) ∧
      (after.context = session.context ↔ (assigns → session.context.isCommitted = true)) ∧
      (assigns → session.mode = .once →
        (∀ criterion matcher value, after.ruleWith criterion matcher value = after.refuse
          (.misplaced "rule" s!"after the first set {session.context.describe}")) ∧
        ∀ parameter value, after.set parameter value = after.emit (.setParameter
          session.context.domainPath session.context.confPath parameter value)) := by
  intro assigns
  have hfailed : (¬ assigns ∧ after = session) ∨
      (assigns ∧ after.mode = session.mode ∧
        after.context = session.context.markCommitted) := by
    cases call with
    | rule criterion symbol value => exact Or.inl ⟨by simp [assigns], Session.rule_failed hrun⟩
    | ruleWith criterion matcher value =>
        exact Or.inl ⟨by simp [assigns], Session.ruleWith_failed hrun⟩
    | set parameter value =>
        rcases Session.set_failed hrun with ⟨hplace, hsame⟩ | ⟨hconf, hmarked⟩
        · exact Or.inl ⟨fun h => hplace h.2, hsame⟩
        · exact Or.inr ⟨⟨⟨parameter, value, rfl⟩, hconf⟩, hmarked⟩
    | component name => exact Or.inl ⟨by simp [assigns], (congrArg Prod.snd hrun).symm⟩
    | confType name => exact Or.inl ⟨by simp [assigns], (congrArg Prod.snd hrun).symm⟩
    | block tree => exact absurd rfl (hcall tree)
  rcases hfailed with ⟨hnot, hsame⟩ | ⟨hassigns, hmode, hcontext⟩
  · refine ⟨fun _ => hsame, fun h => absurd h hnot, ?_, fun h => absurd h hnot⟩
    exact iff_of_true (congrArg Session.context hsame) fun h => absurd h hnot
  · refine ⟨fun h => absurd hassigns h, fun _ => ⟨hmode, hcontext⟩, ?_, fun _ honce => ?_⟩
    · rw [hcontext, Context.markCommitted_eq_self_iff hassigns.2]
      exact ⟨fun hmark _ => hmark, fun hmark => hmark hassigns⟩
    · have hconf : after.context.innermost = some .conf := by
        rw [hcontext, Context.innermost_markCommitted, hassigns.2]
      have hmark : after.context.isCommitted = true := by
        rw [hcontext, Context.isCommitted_markCommitted hassigns.2]
      have hafter := Session.once_marked (hmode.trans honce) hconf hmark
      rw [hcontext, Context.describe_markCommitted, Context.domainPath_markCommitted,
        Context.confPath_markCommitted] at hafter
      exact hafter

/-- A sink with room for the creations only refuses the rules; the assignment fails and leaves its
mark. -/
theorem failed_set_leaves_mark :
    let opened := ((Session.start .once (⟨.empty, 2⟩ : Limited CommandLog)).enter .domain "D").2
    let inside := (opened.enter .conf "C").2
    let call : Call := .set "/p" (.integer 1)
    let after := (call.run inside).2
    (∀ tree, call ≠ .block tree) ∧ call.run inside = (.error (.emit "sink full"), after) ∧
      after.context = inside.context.markCommitted ∧ after.context ≠ inside.context := by
  intro opened inside call after
  have hcall : ∀ tree, call ≠ .block tree := by simp [call]
  have hrun : call.run inside = (.error (.emit "sink full"), after) := rfl
  obtain ⟨-, hmarked, hsame, -⟩ := failed_calls_leave_mark inside after call _ hcall hrun
  have hassigns : (∃ parameter value, call = .set parameter value) ∧
      inside.context.innermost = some .conf := ⟨⟨_, _, rfl⟩, rfl⟩
  refine ⟨hcall, hrun, (hmarked hassigns).2, fun h => ?_⟩
  have hmark := hsame.mp h hassigns
  cases hmark

/-- The sink has taken no rules, yet the configuration takes none any more where it took one before.
A script that catches the refusal fails at its next rule. -/
theorem refused_rules_count_as_sent :
    let opened := ((Session.start .once (⟨.empty, 2⟩ : Limited CommandLog)).enter .domain "D").2
    let inside := (opened.enter .conf "C").2
    let refused := inside.set "/p" "1"
    let late : Failure :=
      .language (.misplaced "rule" "after the first set inside conf 'C' of domain 'D'")
    let script : List Step :=
      [.within false .domain "D"
        [.within false .conf "C"
          [.call true (.set "/p" (.integer 1)), .call false (.rule "Colors" "includes" "Red")]]]
    refused.1 = .error (.emit "sink full") ∧ refused.2.sink = inside.sink ∧
      refused.2.context ≠ inside.context ∧
      (inside.rule "Colors" "includes" "Red").1 = .ok () ∧
      (refused.2.rule "Colors" "includes" "Red").1 = .error late ∧
      (Script.run script .once (⟨.empty, 2⟩ : Limited CommandLog)).result = .error late := by
  refine ⟨rfl, rfl, ?_, rfl, rfl, rfl⟩
  decide

end SettingsLang
