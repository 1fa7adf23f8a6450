import SettingsLang.Proofs.Restoration

/-!
Two runs of the same declarations side by side. As long as the runs go alike, their sessions are
together; once the left run fails where the right one does not, they have parted, and only what
the sinks hold is compared from there on. What each declaration keeps, descriptions and scripts
keep. The induction over blocks and over steps is made here once.
-/

namespace SettingsLang

/-- What is compared in two runs: the sessions while the runs are together, the sinks once they
have parted, and the failures of the left run with which they part. -/
structure Comparison (σ τ : Type) where
  together : Session σ → Session τ → Prop
  apart : σ → τ → Prop
  parting : Failure → Prop

namespace Comparison

variable {σ τ : Type}

/-- The left attempt has failed, and with one of the failures with which runs part. -/
def Parts (c : Comparison σ τ) : Except Failure Unit → Prop
  | .ok () => False
  | .error failure => c.parting failure

/-- Both attempts ended the same way and their sessions are together, or the runs have parted. How
the left one may have ended then is a parameter: a script can have caught what parted the runs. -/
def Alike (c : Comparison σ τ) (ending : Except Failure Unit → Prop) (left : Attempt σ)
    (right : Attempt τ) : Prop :=
  (left.1 = right.1 ∧ c.together left.2 right.2) ∨
    (ending left.1 ∧ c.apart left.2.sink right.2.sink)

theorem Alike.weaken {c : Comparison σ τ} {ending weaker : Except Failure Unit → Prop}
    {left : Attempt σ} {right : Attempt τ} (h : c.Alike ending left right)
    (hweaker : ∀ result, ending result → weaker result) : c.Alike weaker left right :=
  h.imp_right fun hparted => ⟨hweaker _ hparted.1, hparted.2⟩

/-- What follows two attempts goes alike if they did. Where they have parted the left run is over,
and what the right one sends from there on keeps the sinks apart. -/
theorem Alike.andThen {c : Comparison σ τ} {left : Attempt σ} {right : Attempt τ}
    {nextLeft : Session σ → Attempt σ} {nextRight : Session τ → Attempt τ}
    (h : c.Alike c.Parts left right)
    (hnext : ∀ {afterLeft afterRight}, c.together afterLeft afterRight →
      c.Alike c.Parts (nextLeft afterLeft) (nextRight afterRight))
    (hapart : ∀ (after : Session τ) (sink : σ),
      c.apart sink after.sink → c.apart sink (nextRight after).2.sink) :
    c.Alike c.Parts (left.andThen nextLeft) (right.andThen nextRight) := by
  rcases left with ⟨resultLeft, afterLeft⟩
  rcases right with ⟨resultRight, afterRight⟩
  rcases h with ⟨hresult, hafter⟩ | ⟨hparted, hsinks⟩
  · dsimp only at hresult hafter
    subst hresult
    cases resultLeft with
    | error failure => exact Or.inl ⟨rfl, hafter⟩
    | ok _ => exact hnext hafter
  · cases resultLeft with
    | ok _ => exact hparted.elim
    | error failure =>
        refine Or.inr ⟨hparted, ?_⟩
        cases resultRight with
        | error other => exact hsinks
        | ok _ => exact hapart afterRight _ hsinks

/-- A comparison that every declaration keeps. Levels are closed with the context restored that
they were opened in, and sinks of runs that have parted may take what they take. -/
structure Stable [Sink σ] [Sink τ] (c : Comparison σ τ) : Prop where
  ruleWith : ∀ {left right}, c.together left right → ∀ criterion matcher value,
    c.Alike c.Parts (left.ruleWith criterion matcher value)
      (right.ruleWith criterion matcher value)
  set : ∀ {left right}, c.together left right → ∀ parameter value,
    c.Alike c.Parts (left.set parameter value) (right.set parameter value)
  enter : ∀ {left right}, c.together left right → ∀ level name,
    c.Alike c.Parts (left.enter level name) (right.enter level name)
  leave : ∀ {left inner afterLeft : Session σ} {right afterRight : Session τ} {level name},
    left.enter level name = (.ok (), inner) → c.together left right →
    c.together afterLeft afterRight → afterLeft.leave.context = left.context →
    afterRight.leave.context = right.context → c.together afterLeft.leave afterRight.leave
  takenLeft : ∀ {left after : σ} {command}, Sink.accept left command = .ok after →
    ∀ right, c.apart left right → c.apart after right
  takenRight : ∀ {right after : τ} {command}, Sink.accept right command = .ok after →
    ∀ left, c.apart left right → c.apart left after

theorem refuse {c : Comparison σ τ} {left : Session σ} {right : Session τ}
    (htogether : c.together left right) (offence : Offence) :
    c.Alike c.Parts (left.refuse offence) (right.refuse offence) :=
  Or.inl ⟨rfl, htogether⟩

namespace Stable

variable [Sink σ] [Sink τ] {c : Comparison σ τ}

theorem apart_left (h : c.Stable) :
    Session.Persistent fun before after : Session σ =>
      ∀ right, c.apart before.sink right → c.apart after.sink right :=
  Session.persistent_of_sink (Q := fun before after : σ =>
      ∀ right, c.apart before right → c.apart after right)
    (fun _ _ hapart => hapart)
    (fun first second right hapart => second right (first right hapart)) h.takenLeft

theorem apart_right (h : c.Stable) :
    Session.Persistent fun before after : Session τ =>
      ∀ left, c.apart left before.sink → c.apart left after.sink :=
  Session.persistent_of_sink (Q := fun before after : τ =>
      ∀ left, c.apart left before → c.apart left after)
    (fun _ _ hapart => hapart)
    (fun first second left hapart => second left (first left hapart)) h.takenRight

theorem rule (h : c.Stable) {left : Session σ} {right : Session τ}
    (htogether : c.together left right) (criterion symbol value : String) :
    c.Alike c.Parts (left.rule criterion symbol value) (right.rule criterion symbol value) := by
  unfold Session.rule
  split
  · exact refuse htogether _
  · exact h.ruleWith htogether criterion _ value

/-- A level goes alike if its body does. If the runs part where the level is announced, the right
one still runs the body. -/
theorem within (h : c.Stable) {ending : Except Failure Unit → Prop}
    (hending : ∀ result, c.Parts result → ending result)
    {left : Session σ} {right : Session τ} (htogether : c.together left right) (level : Level)
    (name : String) {bodyLeft : Session σ → Attempt σ} {bodyRight : Session τ → Attempt τ}
    (haroundLeft : ∀ inner : Session σ, inner.context.SameAround (bodyLeft inner).2.context)
    (haroundRight : ∀ inner : Session τ, inner.context.SameAround (bodyRight inner).2.context)
    (hapart : ∀ (inner : Session τ) (sink : σ),
      c.apart sink inner.sink → c.apart sink (bodyRight inner).2.sink)
    (hbody : ∀ {innerLeft innerRight}, c.together innerLeft innerRight →
      c.Alike ending (bodyLeft innerLeft) (bodyRight innerRight)) :
    c.Alike ending (left.within level name bodyLeft) (right.within level name bodyRight) := by
  have henter := h.enter htogether level name
  have hleft := left.within_context level name bodyLeft haroundLeft
  have hright := right.within_context level name bodyRight haroundRight
  unfold Session.within at hleft hright ⊢
  rcases hopen : left.enter level name with ⟨resultLeft, innerLeft⟩
  rcases hopen' : right.enter level name with ⟨resultRight, innerRight⟩
  rw [hopen, hopen'] at henter
  rw [hopen] at hleft
  rw [hopen'] at hright
  rcases henter with ⟨hresult, hinner⟩ | ⟨hparted, hsinks⟩
  · dsimp only at hresult hinner
    subst hresult
    cases resultLeft with
    | error failure => exact Or.inl ⟨rfl, hinner⟩
    | ok _ =>
        rcases hbody hinner with ⟨hsame, hafter⟩ | hparted
        · exact Or.inl ⟨hsame, h.leave hopen htogether hafter hleft hright⟩
        · exact Or.inr hparted
  · cases resultLeft with
    | ok _ => exact hparted.elim
    | error failure =>
        refine Or.inr ⟨hending _ hparted, ?_⟩
        cases resultRight with
        | error other => exact hsinks
        | ok _ => exact hapart innerRight _ hsinks

mutual

theorem evaluate (h : c.Stable) : ∀ (block : Block) {left : Session σ} {right : Session τ},
    c.together left right → c.Alike c.Parts (block.evaluate left) (block.evaluate right)
  | .space level name body, left, right, htogether => by
    unfold Block.evaluate
    exact h.within (fun _ hparts => hparts) htogether level name
      (fun inner => (Session.sameAround_persistent.evaluateAll body inner).2)
      (fun inner => (Session.sameAround_persistent.evaluateAll body inner).2)
      (fun inner sink => h.apart_right.evaluateAll body inner sink) (h.evaluateAll body)
  | .rule criterion symbol value, left, right, htogether => by
    unfold Block.evaluate
    exact h.rule htogether criterion symbol value.render
  | .set parameter value, left, right, htogether => by
    unfold Block.evaluate
    exact h.set htogether parameter value.render
  | .component _, left, right, htogether => by
    unfold Block.evaluate
    exact refuse htogether _
  | .confType _, left, right, htogether => by
    unfold Block.evaluate
    exact refuse htogether _

/-- Blocks go alike that are evaluated in sessions that are together. -/
theorem evaluateAll (h : c.Stable) : ∀ (blocks : List Block) {left : Session σ}
    {right : Session τ}, c.together left right →
      c.Alike c.Parts (Block.evaluateAll blocks left) (Block.evaluateAll blocks right)
  | [], left, right, htogether => by
    unfold Block.evaluateAll
    exact Or.inl ⟨rfl, htogether⟩
  | block :: rest, left, right, htogether => by
    unfold Block.evaluateAll
    exact (h.evaluate block htogether).andThen (h.evaluateAll rest)
      (h.apart_right.evaluateAll rest)

end

theorem call (h : c.Stable) (call : Call) {left : Session σ} {right : Session τ}
    (htogether : c.together left right) : c.Alike c.Parts (call.run left) (call.run right) := by
  cases call with
  | rule criterion symbol value => exact h.rule htogether criterion symbol value
  | ruleWith criterion matcher value => exact h.ruleWith htogether criterion matcher value
  | set parameter value => exact h.set htogether parameter value.render
  | component name => exact refuse htogether _
  | confType name => exact refuse htogether _
  | block tree => exact h.evaluate tree htogether

end Stable

end Comparison

namespace Step

variable {σ τ : Type} [Sink σ] [Sink τ] {c : Comparison σ τ}

/-- A script goes on after a step unless the step has failed and does not catch. -/
theorem runAll_cons (position : List Nat) (index : Nat) (step : Step) (rest : List Step)
    (session : Session σ) :
    let first := run (position ++ [index]) step session
    (runAll position index (step :: rest) session).attempt =
      if first.result.isOk || step.catches then
        (runAll position (index + 1) rest first.session).attempt
      else first.attempt := by
  intro first
  simp only [runAll]
  rcases hresult : first.result with failure | _ <;> rcases step.catches <;>
    simp [first, Playback.attempt, Except.isOk, Except.toBool, hresult]

mutual

theorem run_alike (h : c.Stable) : ∀ (step : Step) (position : List Nat) {left : Session σ}
    {right : Session τ}, c.together left right →
      c.Alike (fun _ => True) (run position step left).attempt (run position step right).attempt
  | .call catches made, position, left, right, htogether => by
    unfold run
    exact (h.call made htogether).weaken fun _ _ => trivial
  | .within catches level name body, position, left, right, htogether => by
    rw [run_within, run_within]
    exact h.within (fun _ _ => trivial) htogether level name
      (fun inner => (runAll_persistent Session.sameAround_persistent body position 0 inner).2)
      (fun inner => (runAll_persistent Session.sameAround_persistent body position 0 inner).2)
      (fun inner sink => runAll_persistent h.apart_right body position 0 inner sink)
      (runAll_alike h body position 0)

/-- Scripts go alike until they part. A step that catches may go on after that in both runs. -/
theorem runAll_alike (h : c.Stable) : ∀ (steps : List Step) (position : List Nat) (index : Nat)
    {left : Session σ} {right : Session τ}, c.together left right →
      c.Alike (fun _ => True) (runAll position index steps left).attempt
        (runAll position index steps right).attempt
  | [], position, index, left, right, htogether => by
    unfold runAll
    exact Or.inl ⟨rfl, htogether⟩
  | step :: rest, position, index, left, right, htogether => by
    have hfirst := run_alike h step (position ++ [index]) htogether
    have hleft := runAll_persistent h.apart_left rest position (index + 1)
      (run (position ++ [index]) step left).session
    have hright := runAll_persistent h.apart_right rest position (index + 1)
      (run (position ++ [index]) step right).session
    rw [runAll_cons, runAll_cons]
    rcases hfirst with ⟨hresult, hafter⟩ | ⟨-, hsinks⟩
    · change (run (position ++ [index]) step left).result =
        (run (position ++ [index]) step right).result at hresult
      rw [hresult]
      split
      · exact runAll_alike h rest position (index + 1) hafter
      · exact Or.inl ⟨hresult, hafter⟩
    · -- either run may have caught what parted them; what it sends then keeps the sinks apart
      refine Or.inr ⟨trivial, ?_⟩
      split <;> split
      · exact hleft _ (hright _ hsinks)
      · exact hleft _ hsinks
      · exact hright _ hsinks
      · exact hsinks

end

end Step

end SettingsLang
