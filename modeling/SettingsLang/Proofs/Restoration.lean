import SettingsLang.Proofs.Persistence
import SettingsLang.Proofs.SinkMap

/-!
A level takes back everything that happened inside it. Declarations reach the innermost level
only, so the levels around it stay as they are with their rules and marks; closing the level then
gives the context from before. Between two declarations at the root nothing is open, and what
follows a script cannot tell that the script has run, except by the room that is left in the sink.
-/

namespace SettingsLang

namespace Context

/-- Where nothing is open, closing does nothing. -/
theorem leave_of_depth {context : Context} (h : context.depth = 0) : context.leave = context := by
  simp [leave, List.length_eq_zero_iff.mp h]

theorem frames_leave (context : Context) : context.leave.frames = context.frames.tail := by
  rcases context with ⟨_, _, _ | ⟨frame, outer⟩⟩
  · rfl
  · simp only [leave]
    split <;> rfl

/-- The context around a number of innermost levels. -/
def around (context : Context) : Nat → Context
  | 0 => context
  | count + 1 => context.leave.around count

theorem around_leave (context : Context) (count : Nat) :
    context.leave.around count = context.around (count + 1) :=
  rfl

theorem frames_around (context : Context) (count : Nat) :
    (context.around count).frames = context.frames.drop count := by
  induction count generalizing context with
  | zero => rfl
  | succ count ih => rw [around, ih, frames_leave, List.drop_tail]

end Context

/-- As many levels are open as before, and all but the innermost are the same. -/
def Context.SameAround (before after : Context) : Prop :=
  after.depth = before.depth ∧ after.leave = before.leave

namespace Context.SameAround

theorem refl (context : Context) : SameAround context context :=
  ⟨rfl, rfl⟩

theorem trans {first second third : Context} (h : SameAround first second)
    (h' : SameAround second third) : SameAround first third :=
  ⟨h'.1.trans h.1, h'.2.trans h.2⟩

theorem ofAddRule {context after : Context} {rule : Rule}
    (h : context.addRule rule = .ok after) : SameAround context after := by
  obtain ⟨frame, outer, hframes, rfl⟩ := addRule_eq_ok h
  constructor
  · simp [depth, hframes]
  · simp [leave, hframes]

theorem ofMarkCommitted (context : Context) : SameAround context context.markCommitted :=
  ⟨depth_markCommitted context, leave_markCommitted context⟩

/-- At the root there is nothing but the levels around. -/
theorem eq_root {context : Context} (h : SameAround .root context) : context = .root := by
  rw [← leave_of_depth h.1, h.2]
  rfl

end Context.SameAround

namespace Session

variable {σ : Type} [Sink σ]

/-- What every command that is taken makes hold of the sink, every run makes hold of it. -/
theorem persistent_of_sink {Q : σ → σ → Prop} (hrefl : ∀ sink, Q sink sink)
    (htrans : ∀ {first second third}, Q first second → Q second third → Q first third)
    (haccept : ∀ {sink command after}, Sink.accept sink command = .ok after → Q sink after) :
    Persistent fun before after : Session σ => Q before.sink after.sink where
  refl session := hrefl session.sink
  trans h h' := htrans h h'
  ruleWith session criterion matcher value := by
    rcases ruleWith_cases session criterion matcher value with ⟨_, h⟩ | ⟨_, _, _, h⟩ <;>
      simpa only [h] using hrefl session.sink
  set session parameter value := by
    have hsent {sent : σ} (h : RulesSent session sent) : Q session.sink sent := by
      unfold RulesSent at h
      split at h
      · exact h ▸ hrefl session.sink
      · exact haccept h
    rcases set_cases session parameter value with
      ⟨_, h⟩ | ⟨_, _, _, _, h⟩ | ⟨_, sent, hrules, ⟨_, _, h⟩ | ⟨_, hvalue, h⟩⟩
    · simpa only [h] using hrefl session.sink
    · simpa only [h] using hrefl session.sink
    · simpa only [h] using hsent hrules
    · simpa only [h] using htrans (hsent hrules) (haccept hvalue)
  within henter hbody := by
    obtain ⟨context, sink, -, hsink, rfl⟩ := enter_ok henter
    refine htrans ?_ hbody
    unfold Announced at hsink
    split at hsink
    · exact hsink ▸ hrefl _
    · exact haccept hsink

/-- Every declaration keeps the mode and the levels around the innermost one. -/
theorem sameAround_persistent :
    Persistent fun before after : Session σ =>
      after.mode = before.mode ∧ before.context.SameAround after.context where
  refl session := ⟨rfl, .refl session.context⟩
  trans h h' := ⟨h'.1.trans h.1, h.2.trans h'.2⟩
  ruleWith session criterion matcher value := by
    rcases ruleWith_cases session criterion matcher value with ⟨_, h⟩ | ⟨_, _, hadd, h⟩
    · rw [h]
      exact ⟨rfl, .refl session.context⟩
    · rw [h]
      exact ⟨rfl, .ofAddRule hadd⟩
  set session parameter value := by
    rcases set_cases session parameter value with
      ⟨_, h⟩ | ⟨_, _, _, _, h⟩ | ⟨_, _, _, ⟨_, _, h⟩ | ⟨_, _, h⟩⟩ <;> rw [h]
    · exact ⟨rfl, .refl session.context⟩
    all_goals exact ⟨rfl, .ofMarkCommitted session.context⟩
  within {session inner after level name} henter hbody := by
    obtain ⟨context, sink, hopen, -, rfl⟩ := enter_ok henter
    have hrestored : after.context.leave = session.context :=
      hbody.2.2.trans (Context.leave_enter hopen)
    refine ⟨hbody.1, ?_⟩
    rw [leave, hrestored]
    exact .refl session.context

theorem within_context (session : Session σ) (level : Level) (name : String)
    (body : Session σ → Attempt σ)
    (hbody : ∀ inner : Session σ, inner.context.SameAround (body inner).2.context) :
    (session.within level name body).2.context = session.context := by
  unfold within
  split
  · next failure refused henter =>
      rw [enter_error henter]
  · next inner henter =>
      obtain ⟨context, sink, hopen, -, rfl⟩ := enter_ok henter
      exact (hbody _).2.trans (Context.leave_enter hopen)

end Session

/-- A script leaves the root as it found it, and keeps the mode. -/
theorem Script.run_context {σ : Type} [Sink σ] (steps : List Step) (mode : CommitMode)
    (sink : σ) :
    (Script.run steps mode sink).session.context = .root ∧
      (Script.run steps mode sink).session.mode = mode := by
  have h := Step.runAll_persistent Session.sameAround_persistent steps [] 0
    (Session.start mode sink)
  exact ⟨h.2.eq_root, h.1⟩

/-- The room that a limited log has lost is the number of commands that it took. -/
theorem Limited.room_eq (steps : List Step) (mode : CommitMode) (limit : Nat) :
    let sink := (Script.run steps mode (⟨.empty, limit⟩ : Limited CommandLog)).session.sink
    sink.room = limit - sink.inner.size := by
  have hstep : Session.Persistent fun before after : Session (Limited CommandLog) =>
      after.sink.inner.size + after.sink.room = before.sink.inner.size + before.sink.room := by
    refine Session.persistent_of_sink
      (Q := fun before after : Limited CommandLog =>
        after.inner.size + after.room = before.inner.size + before.room)
      (fun _ => rfl) (fun h h' => h'.trans h) ?_
    rintro ⟨log, _ | room⟩ command after haccept
    · cases haccept
    · cases haccept
      simp [CommandLog.size]
      omega
  have htotal := Step.runAll_persistent hstep steps [] 0 (Session.start mode ⟨.empty, limit⟩)
  have hempty : (CommandLog.empty).size = 0 := rfl
  simp only [Session.start, hempty] at htotal
  intro sink
  change sink.inner.size + sink.room = 0 + limit at htotal
  omega

/-- Evaluating after commands were taken is evaluating without them and putting them in front. -/
theorem Block.evaluateAll_after {σ τ : Type} [Sink σ] [Sink τ] {f : σ → τ}
    (hf : Sink.Commutes f) (description : Description) (session : Session τ) (sink : σ)
    (hroot : session.context = .root) (hsink : session.sink = f sink) :
    evaluateAll description session =
      (description.evaluate session.mode sink).mapSink f := by
  have hsession : session = (Session.start session.mode sink).mapSink f := by
    cases session
    simp_all [Session.mapSink, Session.start]
  rw [Description.evaluate, ← evaluateAll_mapSink hf, ← hsession]

/-- A level never changes the context that it is opened in, whatever steps its body takes, which
of their failures it catches and which commands the sink refuses. So after a script nothing is
open, and a description evaluated then has the result and the commands that it has in a session of
its own with the room that is left. -/
theorem namespaces_restore_context :
    (∀ {σ : Type} [Sink σ] (session : Session σ) (level : Level) (name : String)
      (body : List Step) (position : List Nat),
      (session.within level name fun inner =>
        (Step.runAll position 0 body inner).attempt).2.context = session.context) ∧
    (∀ {σ : Type} [Sink σ] (steps : List Step) (mode : CommitMode) (sink : σ),
      (Script.run steps mode sink).session.context = .root) ∧
    (∀ (steps : List Step) (mode : CommitMode) (limit : Nat) (description : Description),
      let used := (Script.run steps mode (⟨.empty, limit⟩ : Limited CommandLog)).session
      let again := Block.evaluateAll description used
      let fresh := description.evaluate mode
        (⟨.empty, limit - used.sink.inner.size⟩ : Limited CommandLog)
      again.1 = fresh.1 ∧
        again.2.sink.inner.commands =
          used.sink.inner.commands ++ fresh.2.sink.inner.commands) ∧
    (∀ (steps : List Step) (mode : CommitMode) (description : Description),
      let used := (Script.run steps mode CommandLog.empty).session
      let again := Block.evaluateAll description used
      let fresh := description.evaluate mode CommandLog.empty
      again.1 = fresh.1 ∧
        again.2.sink.commands = used.sink.commands ++ fresh.2.sink.commands) := by
  refine ⟨?_, ?_, ?_, ?_⟩
  · intro σ _ session level name body position
    refine session.within_context level name _ fun inner => ?_
    exact (Step.runAll_persistent Session.sameAround_persistent body position 0 inner).2
  · intro σ _ steps mode sink
    exact (Script.run_context steps mode sink).1
  · intro steps mode limit description used again fresh
    obtain ⟨hroot, hmode⟩ := Script.run_context steps mode (⟨.empty, limit⟩ : Limited CommandLog)
    have hsink : used.sink =
        Limited.after used.sink.inner ⟨.empty, limit - used.sink.inner.size⟩ := by
      have hroom := Limited.room_eq steps mode limit
      change used.sink.room = limit - used.sink.inner.size at hroom
      rw [← hroom]
      simp [Limited.after, CommandLog.after, CommandLog.empty]
    have hagain : again = fresh.mapSink (Limited.after used.sink.inner) := by
      have h := Block.evaluateAll_after (Limited.after_commutes used.sink.inner) description used
        _ hroot hsink
      rwa [hmode] at h
    rw [hagain]
    exact ⟨rfl, rfl⟩
  · intro steps mode description used again fresh
    obtain ⟨hroot, hmode⟩ := Script.run_context steps mode CommandLog.empty
    have hsink : used.sink = used.sink.after .empty := by
      simp [CommandLog.after, CommandLog.empty]
    have hagain : again = fresh.mapSink used.sink.after := by
      have h := Block.evaluateAll_after (CommandLog.after_commutes used.sink) description used
        _ hroot hsink
      rwa [hmode] at h
    rw [hagain]
    exact ⟨rfl, rfl⟩

end SettingsLang
