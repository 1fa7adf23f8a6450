import SettingsLang.Context.Steps
import SettingsLang.Proofs.History

/-!
Contexts with their histories. A chronicle is kept beside a run of context steps and notes what each
operation does, also inside guarded bodies; the contexts in it are those that the run answers with.
What all events keep holds of every chronicle of a run.
-/

namespace SettingsLang

/-- A context with its history. -/
structure Chronicle where
  history : List ContextEvent
  context : Context
  deriving DecidableEq

namespace ContextStep

/-- What an operation does to a context. -/
def event? (context : Context) : ContextStep → Option ContextEvent
  | .enter level name | .guarded level name _ =>
    match context.enter level name with
    | .ok _ => some (.opened level name)
    | .error _ => none
  | .leave => context.innermost.map fun _ => .closed
  | .addRule rule =>
    match context.addRule rule with
    | .ok _ => some (.ruled rule)
    | .error _ => none
  | .markCommitted => some .marked
  | .require .. | .ensureUncommitted _ | .flattened | .rulesAt _ => none

end ContextStep

namespace Chronicle

def start : Chronicle :=
  ⟨[], .root⟩

/-- The chronicle after an operation. -/
def after (before : Chronicle) (step : ContextStep) : Chronicle :=
  ⟨before.history ++ (step.event? before.context).toList, (step.answer before.context).2⟩

/-- The last of the chronicles that came after one. -/
def last (before : Chronicle) : List Chronicle → Chronicle
  | [] => before
  | next :: rest => last next rest

mutual

/-- The chronicles that a step leads through, up to the one after the step. A guarded body lies
between its opening and its closing. -/
def through (before : Chronicle) : ContextStep → List Chronicle
  | .guarded level name body =>
    let opened := before.after (.guarded level name body)
    match before.context.enter level name with
    | .ok _ =>
      let inside := throughAll opened body
      opened :: inside ++ [(opened.last inside).after .leave]
    | .error _ => [opened]
  | step => [before.after step]

def throughAll (before : Chronicle) : List ContextStep → List Chronicle
  | [] => []
  | step :: rest =>
    let first := through before step
    first ++ throughAll (before.last first) rest

end

theorem last_append (before : Chronicle) (first second : List Chronicle) :
    before.last (first ++ second) = (before.last first).last second := by
  induction first generalizing before with
  | nil => rfl
  | cons next rest ih => exact ih next

/-- A guarded step that is refused is over at once. -/
theorem through_refused (before : Chronicle) {level : Level} {name : String}
    (body : List ContextStep) {offence : Offence}
    (h : before.context.enter level name = .error offence) :
    before.through (.guarded level name body) = [before] := by
  have hopened : before.after (.guarded level name body) = before := by
    simp [after, ContextStep.event?, ContextStep.answer, ContextStep.settle, h]
  simp [through, hopened, h]

theorem through_guarded (before : Chronicle) {level : Level} {name : String}
    (body : List ContextStep) {inner : Context}
    (h : before.context.enter level name = .ok inner) :
    let opened : Chronicle := ⟨before.history ++ [.opened level name], inner⟩
    let inside := opened.throughAll body
    before.through (.guarded level name body) =
      opened :: inside ++ [(opened.last inside).after .leave] := by
  have hopened : before.after (.guarded level name body) =
      ⟨before.history ++ [.opened level name], inner⟩ := by
    simp [after, ContextStep.event?, ContextStep.answer, ContextStep.settle, h]
  rw [through, hopened]
  simp [h]

mutual

/-- The chronicles of a step show the contexts that a run of it answers with. -/
theorem through_run : ∀ (step : ContextStep) (before : Chronicle) (position : List Nat),
    (before.through step).map (·.context) =
      (step.run position before.context).2.map (·.context) ∧
    (before.last (before.through step)).context = (step.run position before.context).1
  | .guarded level name body, before, position => by
    unfold ContextStep.run
    cases henter : before.context.enter level name with
    | error offence => simp [through_refused before body henter, last]
    | ok inner =>
        obtain ⟨hinside, hend⟩ := throughAll_run body
          ⟨before.history ++ [.opened level name], inner⟩ position 0
        have hleave : ∀ chronicle : Chronicle,
            (chronicle.after .leave).context = chronicle.context.leave := fun _ => rfl
        simp [through_guarded before body henter, last, last_append, hinside, hend, hleave]
  | .enter level name, before, position => ⟨rfl, rfl⟩
  | .leave, before, position => ⟨rfl, rfl⟩
  | .addRule rule, before, position => ⟨rfl, rfl⟩
  | .require operation level, before, position => ⟨rfl, rfl⟩
  | .markCommitted, before, position => ⟨rfl, rfl⟩
  | .ensureUncommitted operation, before, position => ⟨rfl, rfl⟩
  | .flattened, before, position => ⟨rfl, rfl⟩
  | .rulesAt depth, before, position => ⟨rfl, rfl⟩

theorem throughAll_run : ∀ (steps : List ContextStep) (before : Chronicle)
    (position : List Nat) (index : Nat),
    (before.throughAll steps).map (·.context) =
      (ContextStep.runAll position index before.context steps).2.map (·.context) ∧
    (before.last (before.throughAll steps)).context =
      (ContextStep.runAll position index before.context steps).1
  | [], before, position, index => ⟨rfl, rfl⟩
  | step :: rest, before, position, index => by
    obtain ⟨hfirst, hmiddle⟩ := through_run step before (position ++ [index])
    obtain ⟨hrest, hend⟩ := throughAll_run rest (before.last (before.through step)) position
      (index + 1)
    rw [hmiddle] at hrest hend
    rw [throughAll, ContextStep.runAll, last_append]
    exact ⟨by simp [hfirst, hrest], hend⟩

end

/-- What holds of a context and its history, if everything that is done to a context keeps it. -/
structure Kept (P : Chronicle → Prop) : Prop where
  opened : ∀ {history context inner level name}, P ⟨history, context⟩ →
    context.enter level name = .ok inner → P ⟨history ++ [.opened level name], inner⟩
  closed : ∀ {history context}, P ⟨history, context⟩ → P ⟨history ++ [.closed], context.leave⟩
  ruled : ∀ {history context after rule}, P ⟨history, context⟩ →
    context.addRule rule = .ok after → P ⟨history ++ [.ruled rule], after⟩
  marked : ∀ {history context}, P ⟨history, context⟩ →
    P ⟨history ++ [.marked], context.markCommitted⟩

namespace Kept

variable {P : Chronicle → Prop} {before : Chronicle}

theorem after (hkept : Kept P) (h : P before) (step : ContextStep) : P (before.after step) := by
  obtain ⟨history, context⟩ := before
  have hentered (level : Level) (name : String) :
      P (Chronicle.after ⟨history, context⟩ (.enter level name)) := by
    cases henter : context.enter level name with
    | error offence =>
        simpa [Chronicle.after, ContextStep.event?, ContextStep.answer, ContextStep.settle, henter]
          using h
    | ok inner =>
        simpa [Chronicle.after, ContextStep.event?, ContextStep.answer, ContextStep.settle, henter]
          using hkept.opened h henter
  have hasked (answer : Except Offence Unit) :
      P ⟨history ++ [], (ContextStep.settle context (answer.map fun _ => context)).2⟩ := by
    cases answer <;> simpa [ContextStep.settle, Except.map] using h
  cases step with
  | enter level name => exact hentered level name
  | guarded level name body => exact hentered level name
  | leave =>
      rcases context with ⟨domain, conf, _ | ⟨frame, outer⟩⟩
      · simpa [Chronicle.after, ContextStep.event?, ContextStep.answer, Context.leave,
          Context.innermost] using h
      · exact hkept.closed h
  | addRule rule =>
      cases hadd : context.addRule rule with
      | error offence =>
          simpa [Chronicle.after, ContextStep.event?, ContextStep.answer, ContextStep.settle, hadd]
            using h
      | ok added =>
          simpa [Chronicle.after, ContextStep.event?, ContextStep.answer, ContextStep.settle, hadd]
            using hkept.ruled h hadd
  | markCommitted => exact hkept.marked h
  | require operation level => exact hasked _
  | ensureUncommitted operation => exact hasked _
  | flattened => simpa [Chronicle.after, ContextStep.event?, ContextStep.answer] using h
  | rulesAt depth => simpa [Chronicle.after, ContextStep.event?, ContextStep.answer] using h

theorem last (h : P before) {chronicles : List Chronicle}
    (hall : ∀ chronicle ∈ chronicles, P chronicle) : P (before.last chronicles) := by
  induction chronicles generalizing before with
  | nil => exact h
  | cons next rest ih =>
      obtain ⟨hnext, hrest⟩ := List.forall_mem_cons.mp hall
      exact ih hnext hrest

mutual

theorem through (hkept : Kept P) : ∀ (step : ContextStep) (before : Chronicle), P before →
    ∀ chronicle ∈ before.through step, P chronicle
  | .guarded level name body, before, h => by
    cases henter : before.context.enter level name with
    | error offence => simpa [through_refused before body henter] using h
    | ok inner =>
        have hopened := hkept.opened h henter
        have hinside := throughAll hkept body _ hopened
        rw [through_guarded before body henter]
        simp only [List.cons_append, List.forall_mem_cons, List.forall_mem_append]
        exact ⟨hopened, hinside, hkept.after (Kept.last hopened hinside) .leave, by simp⟩
  | .enter .., _, h | .leave, _, h | .addRule _, _, h | .require .., _, h | .markCommitted, _, h
  | .ensureUncommitted _, _, h | .flattened, _, h | .rulesAt _, _, h =>
    List.forall_mem_singleton.mpr (hkept.after h _)

theorem throughAll (hkept : Kept P) : ∀ (steps : List ContextStep) (before : Chronicle),
    P before → ∀ chronicle ∈ before.throughAll steps, P chronicle
  | [], _, _ => List.forall_mem_nil _
  | step :: rest, before, h => by
    have hfirst := through hkept step before h
    exact List.forall_mem_append.mpr
      ⟨hfirst, throughAll hkept rest _ (Kept.last h hfirst)⟩

end

end Kept

end Chronicle

end SettingsLang
