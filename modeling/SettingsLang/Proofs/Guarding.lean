import SettingsLang.Context.Steps
import SettingsLang.Proofs.Restoration

/-!
A guard around a body without structure. The body may open and close levels by hand, leave them open
or be refused; as long as it does not close the level of the guard, no operation of it reaches what
is below. If it ends in the level of the guard, closing that level gives back the context from
before.
-/

namespace SettingsLang

namespace Context

theorem paths_leave (context : Context) :
    context.leave.domainPath.segments <+: context.domainPath.segments ∧
      context.leave.confPath.segments <+: context.confPath.segments := by
  rcases context with ⟨domain, conf, _ | ⟨frame, outer⟩⟩
  · exact ⟨List.prefix_rfl, List.prefix_rfl⟩
  · simp only [leave]
    split
    · exact ⟨List.dropLast_prefix _, List.prefix_rfl⟩
    · exact ⟨List.prefix_rfl, List.dropLast_prefix _⟩

theorem paths_around (context : Context) (count : Nat) :
    (context.around count).domainPath.segments <+: context.domainPath.segments ∧
      (context.around count).confPath.segments <+: context.confPath.segments := by
  induction count generalizing context with
  | zero => exact ⟨List.prefix_rfl, List.prefix_rfl⟩
  | succ count ih =>
      obtain ⟨hdomain, hconf⟩ := ih context.leave
      exact ⟨hdomain.trans context.paths_leave.1, hconf.trans context.paths_leave.2⟩

/-- A number of levels are open inside a context, and taking them away leads back to it. -/
structure Over (outer : Context) (count : Nat) (context : Context) : Prop where
  depth : context.depth = outer.depth + count
  untouched : context.around count = outer

namespace Over

variable {outer context after : Context} {count : Nat}

theorem refl (outer : Context) : Over outer 0 outer :=
  ⟨rfl, rfl⟩

theorem enter {level : Level} {name : String} (h : Over outer count context)
    (henter : context.enter level name = .ok after) : Over outer (count + 1) after where
  depth := by
    obtain ⟨-, -, rfl⟩ := enter_eq_ok henter
    have hdepth := h.depth
    simp only [Context.depth, frames_inside, List.length_cons] at hdepth ⊢
    omega
  untouched := by rw [← Context.around_leave, leave_enter henter, h.untouched]

theorem leave (h : Over outer (count + 1) context) : Over outer count context.leave where
  depth := by
    have hdepth := h.depth
    rw [Context.depth, frames_leave, List.length_tail]
    simp only [Context.depth] at hdepth ⊢
    omega
  untouched := h.untouched

theorem ofSameAround (h : Over outer (count + 1) context) (hsame : context.SameAround after) :
    Over outer (count + 1) after where
  depth := hsame.1.trans h.depth
  untouched := by rw [← Context.around_leave, hsame.2, Context.around_leave, h.untouched]

/-- The outer levels keep their rules and marks, and their names stay at the front of the paths. -/
theorem keeps (h : Over outer count context) :
    outer.frames <:+ context.frames ∧
      outer.domainPath.segments <+: context.domainPath.segments ∧
      outer.confPath.segments <+: context.confPath.segments := by
  obtain ⟨-, rfl⟩ := h
  rw [frames_around]
  exact ⟨List.drop_suffix _ _, context.paths_around count⟩

end Over

/-- The open levels of a context are the outer ones here, with their names, rules and marks, and
more are open inside them. -/
def LiesOver (outer context : Context) : Prop :=
  ∃ count, Over outer (count + 1) context

end Context

namespace Context.LiesOver

variable {outer context after : Context}

theorem enter {level : Level} {name : String} (h : LiesOver outer context)
    (henter : context.enter level name = .ok after) : LiesOver outer after := by
  obtain ⟨count, hover⟩ := h
  exact ⟨count + 1, hover.enter henter⟩

theorem leave (h : LiesOver outer context) (hdepth : outer.depth < context.leave.depth) :
    LiesOver outer context.leave := by
  obtain ⟨count, hover⟩ := h
  have hleft := hover.leave
  cases count with
  | zero => exact absurd hleft.depth (Nat.ne_of_gt hdepth)
  | succ count => exact ⟨count, hleft⟩

theorem ofSameAround (h : LiesOver outer context) (hsame : context.SameAround after) :
    LiesOver outer after := by
  obtain ⟨count, hover⟩ := h
  exact ⟨count, hover.ofSameAround hsame⟩

theorem depth_lt (h : LiesOver outer context) : outer.depth < context.depth := by
  obtain ⟨count, hover⟩ := h
  have hdepth := hover.depth
  omega

/-- If just one level more is open, closing it leaves the outer levels. -/
theorem leave_eq (h : LiesOver outer context) (hdepth : context.depth = outer.depth + 1) :
    context.leave = outer := by
  obtain ⟨count, hover⟩ := h
  obtain rfl : count = 0 := by
    have hcount := hover.depth
    omega
  exact hover.untouched

/-- An operation after which more levels are open has not touched the outer ones. -/
theorem answer (h : LiesOver outer context) (step : ContextStep)
    (hdepth : outer.depth < (step.answer context).2.depth) :
    LiesOver outer (step.answer context).2 := by
  have hopened (level : Level) (name : String) :
      LiesOver outer (ContextStep.settle context (context.enter level name)).2 := by
    cases henter : context.enter level name with
    | error offence => exact h
    | ok inner => exact h.enter henter
  have hasked (answer : Except Offence Unit) :
      LiesOver outer (ContextStep.settle context (answer.map fun _ => context)).2 := by
    cases answer with
    | error offence => exact h
    | ok _ => exact h
  cases step with
  | enter level name => exact hopened level name
  | guarded level name body => exact hopened level name
  | leave => exact h.leave hdepth
  | addRule rule =>
      rw [ContextStep.answer]
      cases hadd : context.addRule rule with
      | error offence => exact h
      | ok added => exact h.ofSameAround (.ofAddRule hadd)
  | markCommitted => exact h.ofSameAround (.ofMarkCommitted context)
  | require operation level => exact hasked _
  | ensureUncommitted operation => exact hasked _
  | flattened => exact h
  | rulesAt depth => exact h

end Context.LiesOver

namespace ContextStep

open Context (LiesOver)

/-- A run that never goes down to the outer levels, and what comes of it. -/
def StaysOver (outer : Context) (run : Context × List ContextEntry) : Prop :=
  LiesOver outer run.1 ∧ ∀ entry ∈ run.2, LiesOver outer entry.context

variable {outer : Context}

theorem staysOver_single {context : Context} {step : ContextStep} {position : List Nat}
    (h : LiesOver outer context)
    (hrun : step.run position context =
      ((step.answer context).2, [⟨position, (step.answer context).1, (step.answer context).2⟩]))
    (hdepth : ∀ entry ∈ (step.run position context).2, outer.depth < entry.context.depth) :
    StaysOver outer (step.run position context) := by
  rw [hrun] at hdepth ⊢
  have hafter := h.answer step (hdepth _ (List.mem_singleton_self _))
  exact ⟨hafter, List.forall_mem_singleton.mpr hafter⟩

mutual

/-- Steps that never go down to the outer levels do not touch them. A guarded body lies between its
opening and its closing, which is one operation more that could. -/
theorem run_staysOver : ∀ (step : ContextStep) (context : Context) (position : List Nat),
    LiesOver outer context →
    (∀ entry ∈ (step.run position context).2, outer.depth < entry.context.depth) →
    StaysOver outer (step.run position context)
  | .guarded level name body, context, position, h, hdepth => by
    unfold run at hdepth ⊢
    cases henter : context.enter level name with
    | error offence => exact ⟨h, List.forall_mem_singleton.mpr h⟩
    | ok inner =>
        simp only [henter, List.cons_append, List.forall_mem_cons, List.forall_mem_append] at hdepth
        obtain ⟨-, hbody, hclosed, -⟩ := hdepth
        have hinner := h.enter henter
        obtain ⟨hinside, hentries⟩ := runAll_staysOver body inner position 0 hinner hbody
        have hleft := hinside.leave hclosed
        refine ⟨hleft, ?_⟩
        simp only [List.cons_append, List.forall_mem_cons, List.forall_mem_append]
        exact ⟨hinner, hentries, hleft, List.forall_mem_nil _⟩
  | .enter .., _, _, h, hdepth | .leave, _, _, h, hdepth | .addRule _, _, _, h, hdepth
  | .require .., _, _, h, hdepth | .markCommitted, _, _, h, hdepth
  | .ensureUncommitted _, _, _, h, hdepth | .flattened, _, _, h, hdepth
  | .rulesAt _, _, _, h, hdepth => staysOver_single h rfl hdepth

theorem runAll_staysOver : ∀ (steps : List ContextStep) (context : Context) (position : List Nat)
    (index : Nat), LiesOver outer context →
    (∀ entry ∈ (runAll position index context steps).2, outer.depth < entry.context.depth) →
    StaysOver outer (runAll position index context steps)
  | [], _, _, _, h, _ => ⟨h, List.forall_mem_nil _⟩
  | step :: rest, context, position, index, h, hdepth => by
    obtain ⟨hfirst, hrest⟩ := List.forall_mem_append.mp hdepth
    obtain ⟨hmiddle, hentries⟩ := run_staysOver step context (position ++ [index]) h hfirst
    obtain ⟨hend, hmore⟩ := runAll_staysOver rest _ position (index + 1) hmiddle hrest
    exact ⟨hend, List.forall_mem_append.mpr ⟨hentries, hmore⟩⟩

end

/-- A guard whose level cannot be opened changes nothing and runs no body. A guard around a body
that never closes the guard's own level, and has closed what it opened in it, ends in the context
from before: the same open levels, each with its name, its rules and its mark, also where the body
opened and closed levels by hand, was refused or left a guard of its own out of balance. All the
while the levels around the guard are untouched. -/
theorem balanced_guard_restores_context (context : Context) (level : Level) (name : String)
    (body : List ContextStep) (position : List Nat) :
    (∀ offence, context.enter level name = .error offence →
      run position context (.guarded level name body) =
        (context, [⟨position, .refused offence, context⟩])) ∧
    (∀ inner, context.enter level name = .ok inner →
      let inside := runAll position 0 inner body
      (∀ entry ∈ inside.2, inner.depth ≤ entry.context.depth) →
      inside.1.depth = inner.depth →
      (∀ entry ∈ inside.2, context.frames <:+ entry.context.frames ∧
        context.domainPath.segments <+: entry.context.domainPath.segments ∧
        context.confPath.segments <+: entry.context.confPath.segments) ∧
      run position context (.guarded level name body) =
        (context, ⟨position, .opened, inner⟩ :: inside.2 ++ [⟨position, .closed, context⟩])) := by
  constructor
  · intro offence hrefused
    simp [run, hrefused]
  · intro inner henter inside hstays hend
    have hinner := (Context.Over.refl context).enter henter
    have hopen : LiesOver context inner := ⟨0, hinner⟩
    obtain ⟨hover, hentries⟩ := runAll_staysOver body inner position 0 hopen fun entry hentry =>
      Nat.lt_of_lt_of_le hopen.depth_lt (hstays entry hentry)
    have hrestored : inside.1.leave = context := hover.leave_eq (hend.trans hinner.depth)
    constructor
    · intro entry hentry
      obtain ⟨_, hopened⟩ := hentries entry hentry
      exact hopened.keeps
    · rw [← hrestored]
      simp only [run, hrestored, henter, inside]

/-- The body adds rules and sets marks, is refused a domain, and leaves a configuration open in a
guard of its own. That guard closes the configuration instead of its group, which is then closed by
hand. -/
theorem guard_around_unbalanced_guard_restores_context :
    let red : Rule := ⟨"Colors", .includes, "Red"⟩
    let loud : Rule := ⟨"Volume", .is, "Loud"⟩
    let context : Context := ⟨⟨["G"]⟩, .root, [⟨.domainGroup, [red], true⟩]⟩
    let inner := context.inside .domain "D"
    let body : List ContextStep :=
      [.addRule loud, .markCommitted, .enter .domain "E",
        .guarded .confGroup "P" [.enter .conf "C", .addRule red, .markCommitted], .leave]
    let inside := runAll [] 0 inner body
    context.enter .domain "D" = .ok inner ∧
      (∀ entry ∈ inside.2, inner.depth ≤ entry.context.depth) ∧
      inside.1.depth = inner.depth ∧ inside.1 ≠ inner ∧
      (run [] context (.guarded .domain "D" body)).1 = context := by
  intro red loud context inner body inside
  have henter : context.enter .domain "D" = .ok inner := rfl
  have hstays : ∀ entry ∈ inside.2, inner.depth ≤ entry.context.depth := by decide
  have hend : inside.1.depth = inner.depth := by decide
  obtain ⟨-, hrun⟩ :=
    (balanced_guard_restores_context context .domain "D" body []).2 inner henter hstays hend
  exact ⟨henter, hstays, hend, by decide, congrArg Prod.fst hrun⟩

end ContextStep

end SettingsLang
