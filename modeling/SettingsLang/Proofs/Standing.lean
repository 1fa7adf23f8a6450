import Mathlib.Computability.RegularExpressions
import SettingsLang.Proofs.OneList
import SettingsLang.Proofs.Restoration

/-!
What stands in a context. The stack of open levels holds just the part of the history that has not
been closed since. To carry this through a closing it has to be said of every open level at once:
the context around the innermost levels is what the history tells of the levels in which at least
so many are open.
-/

namespace SettingsLang

namespace Context

open ContextEvent

/-- What can be seen of a context is what the history tells of the levels in which at least so many
levels are open. -/
structure Recounted (count : Nat) (history : List ContextEvent) (context : Context) : Prop where
  shape : context.shape.reverse = (held count history).filterMap opened?
  rules : context.flattenedRules.rules = (held count history).filterMap ruleAdded?
  mark : context.isCommitted = true ↔
    context.frames ≠ [] ∧ (.marked, some count) ∈ heights history

namespace Recounted

variable {count : Nat} {history : List ContextEvent} {context : Context} {event : ContextEvent}

theorem pass (hpass : Passes count event) (h : Recounted (needed count event) history context) :
    Recounted count (history ++ [event]) context where
  shape := by rw [h.shape, filterMap_held_snoc rfl hpass]
  rules := by rw [h.rules, filterMap_held_snoc rfl hpass]
  mark := by
    have hheight (height : Nat) : height + openings [event] = count + closings [event] ↔
        height = needed count event := by
      rcases hpass with hcount | rfl
      · cases event <;> simp [needed, openings, closings, isOpening]
        omega
      · simp [needed, openings, closings, isOpening]
    have hnew : ¬ (ContextEvent.marked = event ∧ count = 0) := by
      rintro ⟨rfl, hzero⟩
      simp [Passes, hzero] at hpass
    rw [h.mark, mem_heights_snoc]
    simp [hheight, hnew]

theorem opened {inner : Context} {level : Level} {name : String}
    (h : Recounted 0 history context) (henter : context.enter level name = .ok inner) :
    Recounted 0 (history ++ [.opened level name]) inner := by
  obtain ⟨-, -, rfl⟩ := enter_eq_ok henter
  refine ⟨?_, ?_, ?_⟩
  · have hshape := h.shape
    simpa [held_snoc, needed, opened?, shape_inside] using hshape
  · have hrules := h.rules
    simpa [held_snoc, needed, List.filterMap_cons, ruleAdded?, flattenedRules_inside] using hrules
  · simp [mem_heights_snoc, openings, closings, isOpening]

theorem ruled {after : Context} {rule : Rule} (h : Recounted 0 history context)
    (hadd : context.addRule rule = .ok after) :
    Recounted 0 (history ++ [.ruled rule]) after := by
  obtain ⟨hrules, hmark⟩ := addRule_adds hadd
  obtain ⟨frame, outer, hframes, hafter⟩ := addRule_eq_ok hadd
  refine ⟨?_, ?_, ?_⟩
  · rw [(SamePlace.ofAddRule hadd).shape, h.shape]
    simp [held_snoc, needed, opened?]
  · rw [hrules, h.rules]
    simp [held_snoc, needed, ruleAdded?]
  · rw [hmark, h.mark]
    simp [hframes, hafter, mem_heights_snoc, openings, closings, isOpening]

theorem marked (h : Recounted 0 history context) :
    Recounted 0 (history ++ [.marked]) context.markCommitted := by
  refine ⟨?_, ?_, ?_⟩
  · rw [(SamePlace.ofMarkCommitted context).shape, h.shape]
    simp [held_snoc, needed, opened?]
  · rw [flattenedRules_markCommitted, h.rules]
    simp [held_snoc, needed, List.filterMap_cons, ruleAdded?]
  · rcases context with ⟨_, _, _ | ⟨frame, outer⟩⟩ <;>
      simp [isCommitted, markCommitted, mem_heights_snoc]

end Recounted

end Context

namespace Chronicle

open ContextEvent

def Recounts (chronicle : Chronicle) : Prop :=
  ∀ count, (chronicle.context.around count).Recounted count chronicle.history

theorem start_recounts : Recounts start := by
  intro count
  have hroot : Context.root.around count = .root := by
    induction count with
    | zero => rfl
    | succ count ih => exact ih
  change (Context.root.around count).Recounted count []
  rw [hroot]
  exact ⟨rfl, rfl, by simp [Context.root, Context.isCommitted]⟩

theorem recounts_kept : Kept Recounts where
  opened h henter count := by
    cases count with
    | zero => exact (h 0).opened henter
    | succ count =>
        rw [← Context.around_leave, Context.leave_enter henter]
        exact .pass (Or.inl (by simp)) (h count)
  closed {_ context} h count := by
    change (context.leave.around count).Recounted count _
    rw [Context.around_leave]
    exact .pass (Or.inr rfl) (h (count + 1))
  ruled {_ context after rule} h hadd count := by
    cases count with
    | zero => exact (h 0).ruled hadd
    | succ count =>
        change (after.around (count + 1)).Recounted (count + 1) _
        rw [← Context.around_leave, (Context.SameAround.ofAddRule hadd).2, Context.around_leave]
        exact .pass (Or.inl (by simp)) (h (count + 1))
  marked {_ context} h count := by
    cases count with
    | zero => exact (h 0).marked
    | succ count =>
        change (context.markCommitted.around (count + 1)).Recounted (count + 1) _
        rw [← Context.around_leave, Context.leave_markCommitted, Context.around_leave]
        exact .pass (Or.inl (by simp)) (h (count + 1))

/-- Every operation keeps the three stacks in step. -/
theorem wellFormed_kept : Kept fun chronicle => chronicle.context.WellFormed where
  opened h henter := h.enter henter
  closed h := h.leave
  ruled h hadd := h.ofSamePlace (.ofAddRule hadd)
  marked h := h.ofSamePlace (.ofMarkCommitted _)

end Chronicle

namespace Context

/-- The open levels, outermost first. -/
def levels (context : Context) : List Level :=
  (context.frames.map (·.level)).reverse

theorem levels_eq (context : Context) : context.levels = context.shape.reverse.map (·.1) := by
  rw [List.map_reverse, shape_levels, levels]

/-- The orders in which levels can be open, outermost first: domain groups, a domain in them,
configuration groups in the domain, and a configuration. -/
def levelOrder : RegularExpression Level :=
  .star (.char .domainGroup) *
    (1 + .char .domain * (.star (.char .confGroup) * (1 + .char .conf)))

theorem replicate_mem_star (level : Level) (count : Nat) :
    List.replicate count level ∈ (RegularExpression.char level).star.matches' := by
  refine Language.mem_kstar.mpr ⟨List.replicate count [level], ?_, ?_⟩
  · simp
  · intro part hpart
    exact List.eq_of_mem_replicate hpart

theorem isDomainLevel_of_allowedIn {level : Level} {parent : Option Level}
    (h : level.allowedIn parent = true) :
    (parent ∈ [none, some .domainGroup] → level.isDomainLevel = true) ∧
      (parent ∈ [some .domain, some .confGroup] → level.isDomainLevel = false) := by
  cases level <;> rcases parent with _ | (_ | _ | _ | _) <;>
    simp_all [Level.allowedIn, Level.isDomainLevel]

/-- What the levels are, by the innermost of them. -/
theorem Nested.levels {shape : List (Level × String)} (h : Nested shape) :
    let innermost := shape.head?.map (·.1)
    let levels := shape.reverse.map (·.1)
    ∃ groups confGroups,
      (innermost ∈ [none, some .domainGroup] ∧ levels = .replicate groups .domainGroup) ∨
      (innermost ∈ [some .domain, some .confGroup] ∧
        levels = .replicate groups .domainGroup ++ .domain :: .replicate confGroups .confGroup) ∨
      (innermost = some .conf ∧ levels = .replicate groups .domainGroup ++
        .domain :: (.replicate confGroups .confGroup ++ [.conf])) := by
  induction shape with
  | nil => exact ⟨0, 0, Or.inl ⟨by simp, rfl⟩⟩
  | cons opened outer ih =>
      obtain ⟨level, name⟩ := opened
      obtain ⟨-, hplace, houter⟩ := h
      simp only [List.reverse_cons, List.map_append, List.map_cons, List.map_nil, List.head?_cons,
        Option.map_some]
      obtain ⟨groups, confGroups, ⟨hinner, hlevels⟩ | ⟨hinner, hlevels⟩ | ⟨hinner, hlevels⟩⟩ :=
        ih houter <;> rw [hlevels]
      · have hlevel := (isDomainLevel_of_allowedIn hplace).1 hinner
        cases level with
        | domainGroup =>
            exact ⟨groups + 1, 0, Or.inl ⟨by simp, List.replicate_succ'.symm⟩⟩
        | domain => exact ⟨groups, 0, Or.inr (Or.inl ⟨by simp, rfl⟩)⟩
        | confGroup | conf => cases hlevel
      · have hlevel := (isDomainLevel_of_allowedIn hplace).2 hinner
        cases level with
        | domainGroup | domain => cases hlevel
        | confGroup =>
            exact ⟨groups, confGroups + 1, Or.inr (Or.inl ⟨by simp,
              by simp [List.replicate_succ']⟩)⟩
        | conf => exact ⟨groups, confGroups, Or.inr (Or.inr ⟨rfl, by simp⟩)⟩
      · cases level <;> simp [hinner, Level.allowedIn] at hplace

/-- Every level was opened where it may stand, so the open levels are in order. -/
theorem Nested.levels_mem {context : Context} (h : Nested context.shape) :
    context.levels ∈ levelOrder.matches' := by
  rw [levels_eq, levelOrder]
  simp only [RegularExpression.matches'_mul, RegularExpression.matches'_add,
    RegularExpression.matches'_epsilon, RegularExpression.matches'_char, Language.mem_mul]
  obtain ⟨groups, confGroups, hlevels⟩ := h.levels
  refine ⟨_, replicate_mem_star .domainGroup groups, ?_⟩
  rcases hlevels with ⟨-, hlevels⟩ | ⟨-, hlevels⟩ | ⟨-, hlevels⟩
  · exact ⟨[], Or.inl rfl, by simp [hlevels]⟩
  · refine ⟨.domain :: List.replicate confGroups .confGroup, Or.inr ?_, hlevels.symm⟩
    exact ⟨[.domain], rfl, _, ⟨_, replicate_mem_star .confGroup confGroups, [], Or.inl rfl,
      List.append_nil _⟩, rfl⟩
  · refine ⟨.domain :: (List.replicate confGroups .confGroup ++ [.conf]), Or.inr ?_, hlevels.symm⟩
    exact ⟨[.domain], rfl, _, ⟨_, replicate_mem_star .confGroup confGroups, [.conf], Or.inr rfl,
      rfl⟩, rfl⟩

/-- The outermost level names a domain or a group of domains. -/
theorem WellFormed.depth_eq_zero_iff {context : Context} (h : context.WellFormed) :
    context.depth = 0 ↔ context.domainPath = .root ∧ context.confPath = .root := by
  have hnested := h.nested
  rw [h.domain, h.conf, ← context.length_shape]
  rcases hshape : context.shape with _ | ⟨⟨level, name⟩, outer⟩
  · exact iff_of_true rfl ⟨rfl, rfl⟩
  · rw [hshape] at hnested
    refine iff_of_false (by simp) fun hroot => ?_
    have hdomain := hroot.1
    rw [namesOf_cons] at hdomain
    by_cases hlevel : level.isDomainLevel = true
    · simp [hlevel, NamePath.push, NamePath.root] at hdomain
    · rw [if_neg hlevel] at hdomain
      have hinside := hnested.insideDomain_tail (Bool.eq_false_iff.mpr hlevel)
      exact absurd (congrArg NamePath.segments hdomain) (hnested.2.2.domainPath_valid hinside).1

/-- The paths are empty with the stack of levels, since a name is on one of them for each level. -/
theorem WellFormed.isEmpty_iff {context : Context} (h : context.WellFormed) :
    context.isEmpty = true ↔ context.depth = 0 := by
  constructor
  · intro hempty
    simp only [isEmpty, Bool.and_eq_true, List.isEmpty_iff] at hempty
    exact List.length_eq_zero_iff.mpr hempty.1.1
  · intro hdepth
    obtain ⟨hdomain, hconf⟩ := h.depth_eq_zero_iff.mp hdepth
    simp [isEmpty, List.length_eq_zero_iff.mp hdepth, hdomain, hconf, NamePath.root,
      NamePath.isEmpty]

end Context

namespace Chronicle

open ContextEvent

/-- The context is what its history tells. -/
structure Sound (chronicle : Chronicle) : Prop where
  replayed : chronicle.Replayed
  order : chronicle.context.levels ∈ Context.levelOrder.matches'
  levels : chronicle.context.levels = (standing chronicle.history).filterMap levelOpened?
  domain : chronicle.context.domainPath.segments =
    (standing chronicle.history).filterMap (nameGiven? Level.isDomainLevel)
  conf : chronicle.context.confPath.segments =
    (standing chronicle.history).filterMap (nameGiven? (!·.isDomainLevel))
  names : ∀ name ∈ chronicle.context.domainPath.segments ++ chronicle.context.confPath.segments,
    NameFault.find? name = none
  empty : chronicle.context.isEmpty = true ↔ chronicle.context.depth = 0
  root : chronicle.context.depth = 0 ↔
    chronicle.context.domainPath = .root ∧ chronicle.context.confPath = .root
  rules : chronicle.context.flattenedRules.rules =
    (standing chronicle.history).filterMap ruleAdded?
  /-- An operation comes late if the innermost level was marked while it was innermost. -/
  late : ∀ operation, (∃ offence, chronicle.context.ensureUncommitted operation = .error offence) ↔
    chronicle.context.depth ≠ 0 ∧ ∃ before since,
      chronicle.history = before ++ .marked :: since ∧ StaysInnermost since

theorem names_opened (belongs : Level → Bool) (events : List ContextEvent) :
    ((events.filterMap opened?).filter (belongs ·.1)).map (·.2) =
      events.filterMap (nameGiven? belongs) := by
  induction events with
  | nil => rfl
  | cons event rest ih =>
      cases event with
      | opened level name =>
          by_cases hlevel : belongs level = true <;>
            simp [opened?, nameGiven?, hlevel, ih]
      | closed | ruled _ | marked => simpa [List.filterMap_cons, opened?, nameGiven?] using ih

theorem Recounts.names_eq {chronicle : Chronicle} (h : chronicle.Recounts)
    (belongs : Level → Bool) : (Context.namesOf belongs chronicle.context.shape).segments =
      (standing chronicle.history).filterMap (nameGiven? belongs) := by
  have hshape : chronicle.context.shape.reverse = _ := (h 0).shape
  rw [Context.namesOf, ← List.map_reverse, ← List.filter_reverse, hshape, standing_eq_held,
    names_opened]

theorem Recounts.levels_eq {chronicle : Chronicle} (h : chronicle.Recounts) :
    chronicle.context.levels = (standing chronicle.history).filterMap levelOpened? := by
  have hshape : chronicle.context.shape.reverse = _ := (h 0).shape
  have hlevel : levelOpened? = fun event => (opened? event).map (·.1) := by
    funext event
    cases event <;> rfl
  rw [Context.levels_eq, hshape, standing_eq_held, hlevel, List.map_filterMap]

/-- A mark shows as long as the level in which it was set is innermost. -/
theorem Recounts.late_iff {chronicle : Chronicle} (h : chronicle.Recounts) (operation : String) :
    (∃ offence, chronicle.context.ensureUncommitted operation = .error offence) ↔
      chronicle.context.depth ≠ 0 ∧ ∃ before since,
        chronicle.history = before ++ .marked :: since ∧ StaysInnermost since := by
  have hmark : chronicle.context.isCommitted = true ↔ _ := (h 0).mark
  have hlate : (∃ offence, chronicle.context.ensureUncommitted operation = .error offence) ↔
      chronicle.context.isCommitted = true := by
    cases hcommitted : chronicle.context.isCommitted <;>
      simp [Context.ensureUncommitted, hcommitted]
  rw [hlate, hmark, mem_heights_iff]
  simp [Context.depth, Context.around, staysInnermost_iff]

theorem Recounts.sound {chronicle : Chronicle} (h : chronicle.Recounts)
    (hcontext : chronicle.context.WellFormed) (hreplayed : chronicle.Replayed) :
    chronicle.Sound where
  replayed := hreplayed
  order := hcontext.nested.levels_mem
  levels := h.levels_eq
  domain := by rw [hcontext.domain, h.names_eq]
  conf := by rw [hcontext.conf, h.names_eq]
  names := by
    rw [hcontext.domain, hcontext.conf]
    exact List.forall_mem_append.mpr
      ⟨hcontext.nested.namesOf_valid _, hcontext.nested.namesOf_valid _⟩
  empty := hcontext.isEmpty_iff
  root := hcontext.depth_eq_zero_iff
  rules := by
    rw [standing_eq_held]
    exact (h 0).rules
  late := h.late_iff

end Chronicle

/-- Every context that a run of steps leads through is what its history tells, also inside guarded
bodies and after refused steps. Its three stacks are those of one list on which the history is
replayed. The levels that are open are those that were opened and not closed since, in an order in
which levels can stand. The paths are their names and the rules that hold are the rules added in
them, first to last. A mark shows in the level in which it was set, as long as that level is
innermost. -/
theorem contexts_tell_history (steps : List ContextStep) :
    let run := ContextStep.runAll [] 0 .root steps
    let chronicles := Chronicle.start.throughAll steps
    run.2.map (·.context) = chronicles.map (·.context) ∧
      run.1 = (Chronicle.start.last chronicles).context ∧
      ∀ chronicle ∈ Chronicle.start :: chronicles, chronicle.Sound := by
  intro run chronicles
  obtain ⟨hcontexts, hend⟩ := Chronicle.throughAll_run steps .start [] 0
  have hrecounts := Chronicle.recounts_kept.throughAll steps .start Chronicle.start_recounts
  have hcontext := Chronicle.wellFormed_kept.throughAll steps .start .root
  have hreplayed := Chronicle.replayed_kept.throughAll steps .start rfl
  refine ⟨hcontexts.symm, hend.symm, List.forall_mem_cons.mpr ⟨?_, ?_⟩⟩
  · exact Chronicle.start_recounts.sound .root rfl
  · intro chronicle hmem
    exact (hrecounts chronicle hmem).sound (hcontext chronicle hmem) (hreplayed chronicle hmem)

/-- A guarded body closes the level of its guard and leaves two others open. Its own closing then
takes the innermost of these, with its rules and its mark, and neither mark shows any more. -/
theorem contexts_tell_unbalanced_guard :
    let red : Rule := ⟨"Colors", .includes, "Red"⟩
    let loud : Rule := ⟨"Volume", .is, "Loud"⟩
    let steps : List ContextStep :=
      [.enter .domainGroup "G", .addRule red, .enter .conf "C",
        .guarded .domain "D"
          [.markCommitted, .leave, .enter .domain "E", .enter .conf "C", .addRule loud,
            .markCommitted]]
    let chronicle : Chronicle := Chronicle.start.last (Chronicle.start.throughAll steps)
    chronicle ∈ Chronicle.start :: Chronicle.start.throughAll steps ∧
      chronicle.history = [.opened .domainGroup "G", .ruled red, .opened .domain "D", .marked,
        .closed, .opened .domain "E", .opened .conf "C", .ruled loud, .marked, .closed] ∧
      chronicle.context.domainPath.segments = ["G", "E"] ∧
      chronicle.context.confPath.segments = [] ∧
      chronicle.context.flattenedRules.rules = [red] ∧
      ¬ ∃ offence, chronicle.context.ensureUncommitted "rule" = .error offence := by
  intro red loud steps chronicle
  have hmem : chronicle ∈ Chronicle.start :: Chronicle.start.throughAll steps := by decide
  have hsound := (contexts_tell_history steps).2.2 chronicle hmem
  refine ⟨hmem, by decide, ?_, ?_, ?_, ?_⟩
  · rw [hsound.domain]
    decide
  · rw [hsound.conf]
    decide
  · rw [hsound.rules]
    decide
  · rw [hsound.late]
    simp only [ContextEvent.staysInnermost_iff, ← ContextEvent.mem_heights_iff]
    decide

end SettingsLang
