import SettingsLang.Proofs.Declaration

/-!
What the open levels of a context look like from outside. Rules and marks come and go inside a
level; which levels are open, under which names, changes only by opening and closing. The three
stacks of a context stay in step, so that it can be looked at as one list of levels with their
names, to which opening adds an entry and from which closing takes one. Every open level was
checked when it was opened, so names are valid, each level stands where it may, and both paths are
valid too.
-/

namespace SettingsLang

theorem ite_some_eq_none {α : Type} {p : Prop} [Decidable p] {value : α} {rest : Option α} :
    (if p then some value else rest) = none ↔ ¬ p ∧ rest = none := by
  by_cases h : p <;> simp [h]

/-- What may be a name: a text that is not empty, without points and without white space. -/
theorem NameFault.find?_eq_none_iff {name : String} :
    find? name = none ↔
      name ≠ "" ∧ ∀ c ∈ name.toList, c ≠ '.' ∧ Text.isBlank c = false := by
  simp only [find?, ite_some_eq_none, List.isEmpty_iff, String.toList_eq_nil_iff,
    List.any_eq_true, beq_iff_eq]
  constructor
  · rintro ⟨hempty, hdot, hblank, -⟩
    refine ⟨hempty, fun c hmem => ⟨?_, ?_⟩⟩
    · rintro rfl
      exact hdot ⟨'.', hmem, rfl⟩
    · rw [← Bool.not_eq_true]
      exact fun hc => hblank ⟨c, hmem, hc⟩
  · rintro ⟨hempty, hall⟩
    refine ⟨hempty, ?_, ?_, trivial⟩
    · rintro ⟨c, hmem, hc⟩
      exact (hall c hmem).1 hc
    · rintro ⟨c, hmem, hc⟩
      rw [(hall c hmem).2] at hc
      cases hc

/-- A path that a command can show: it is not empty, and each of its names can be one. -/
def NamePath.Valid (path : NamePath) : Prop :=
  path.segments ≠ [] ∧ ∀ name ∈ path.segments, NameFault.find? name = none

namespace Context

/-- Levels with the names that closing them one after the other takes off the two paths. -/
def named : List Frame → NamePath → NamePath → List (Level × String)
  | [], _, _ => []
  | frame :: outer, domain, conf =>
    if frame.level.isDomainLevel then
      (frame.level, domain.pop.1.getD "") :: named outer domain.pop.2 conf
    else (frame.level, conf.pop.1.getD "") :: named outer domain conf.pop.2

/-- The three stacks as one list: the open levels and their names, innermost first. -/
def shape (context : Context) : List (Level × String) :=
  named context.frames context.domainPath context.confPath

/-- Each level has a name that can be one, and stands in a level where it may. -/
def Nested : List (Level × String) → Prop
  | [] => True
  | (level, name) :: outer =>
    NameFault.find? name = none ∧ level.allowedIn (outer.head?.map (·.1)) = true ∧ Nested outer

/-- The names of the levels of one kind, outermost first. -/
def namesOf (belongs : Level → Bool) (shape : List (Level × String)) : NamePath :=
  ⟨((shape.filter (belongs ·.1)).map (·.2)).reverse⟩

theorem namesOf_cons (belongs : Level → Bool) (level : Level) (name : String)
    (outer : List (Level × String)) :
    namesOf belongs ((level, name) :: outer) =
      if belongs level then (namesOf belongs outer).push name else namesOf belongs outer := by
  by_cases h : belongs level = true <;> simp [namesOf, NamePath.push, h]

theorem named_levels (frames : List Frame) (domain conf : NamePath) :
    (named frames domain conf).map (·.1) = frames.map (·.level) := by
  induction frames generalizing domain conf with
  | nil => rfl
  | cons frame outer ih =>
      unfold named
      split <;> simp [ih]

theorem shape_levels (context : Context) :
    context.shape.map (·.1) = context.frames.map (·.level) :=
  named_levels ..

theorem length_shape (context : Context) : context.shape.length = context.depth := by
  simpa [depth] using congrArg List.length context.shape_levels

theorem innermost_eq (context : Context) :
    context.innermost = context.shape.head?.map (·.1) := by
  rw [← List.head?_map, shape_levels, List.head?_map]
  rfl

theorem shape_inside (context : Context) (level : Level) (name : String) :
    (context.inside level name).shape = (level, name) :: context.shape := by
  unfold inside
  split <;> simp [shape, named, Frame.fresh, NamePath.pop_push, *]

theorem shape_leave (context : Context) : context.leave.shape = context.shape.tail := by
  rcases context with ⟨domain, conf, _ | ⟨frame, outer⟩⟩
  · rfl
  · by_cases h : frame.level.isDomainLevel = true <;> simp [leave, shape, named, h]

theorem shape_enter {context inner : Context} {level : Level} {name : String}
    (h : context.enter level name = .ok inner) :
    inner.shape = (level, name) :: context.shape := by
  obtain ⟨-, -, rfl⟩ := enter_eq_ok h
  exact context.shape_inside level name

/-- The same levels are open, and the paths are the same. -/
structure SamePlace (before after : Context) : Prop where
  shape : after.shape = before.shape
  domain : after.domainPath = before.domainPath
  conf : after.confPath = before.confPath

namespace SamePlace

theorem refl (context : Context) : SamePlace context context :=
  ⟨rfl, rfl, rfl⟩

theorem ofAddRule {context after : Context} {rule : Rule}
    (h : context.addRule rule = .ok after) : SamePlace context after := by
  obtain ⟨frame, outer, hframes, rfl⟩ := addRule_eq_ok h
  exact ⟨by simp [Context.shape, hframes, named], rfl, rfl⟩

theorem ofMarkCommitted (context : Context) : SamePlace context context.markCommitted := by
  rcases context with ⟨_, _, _ | ⟨frame, outer⟩⟩ <;> exact ⟨rfl, rfl, rfl⟩

theorem innermost {before after : Context} (h : SamePlace before after) :
    after.innermost = before.innermost := by
  rw [innermost_eq, innermost_eq, h.shape]

end SamePlace

/-- The paths are the names of the open levels, each level's on the path of its kind. -/
structure InStep (context : Context) : Prop where
  domain : context.domainPath = namesOf Level.isDomainLevel context.shape
  conf : context.confPath = namesOf (!·.isDomainLevel) context.shape

namespace InStep

theorem root : InStep .root :=
  ⟨rfl, rfl⟩

/-- The name goes to the path of the level's kind only. -/
theorem inside {context : Context} (h : context.InStep) (level : Level) (name : String) :
    (context.inside level name).InStep := by
  constructor <;> rw [shape_inside, namesOf_cons] <;> unfold Context.inside
  · rw [← h.domain]
    split <;> rfl
  · rw [← h.conf]
    cases level <;> rfl

theorem enter {context inner : Context} {level : Level} {name : String} (h : context.InStep)
    (henter : context.enter level name = .ok inner) : inner.InStep := by
  obtain ⟨-, -, rfl⟩ := enter_eq_ok henter
  exact h.inside level name

/-- The name that is taken off a path is that of the level which is closed. -/
theorem leave {context : Context} (h : context.InStep) : context.leave.InStep := by
  obtain ⟨hdomain, hconf⟩ := h
  rcases context with ⟨domain, conf, _ | ⟨frame, outer⟩⟩
  · exact ⟨hdomain, hconf⟩
  · cases hlevel : frame.level.isDomainLevel <;>
      simp only [Context.shape, named, hlevel, namesOf_cons, Bool.not_false, Bool.not_true,
        Bool.false_eq_true, if_true, if_false] at hdomain hconf
    · have hpop := congrArg (·.pop.2) hconf
      constructor
      · simpa [Context.leave, Context.shape, hlevel] using hdomain
      · simpa [Context.leave, Context.shape, hlevel, NamePath.pop_push] using hpop
    · have hpop := congrArg (·.pop.2) hdomain
      constructor
      · simpa [Context.leave, Context.shape, hlevel, NamePath.pop_push] using hpop
      · simpa [Context.leave, Context.shape, hlevel] using hconf

theorem ofSamePlace {before after : Context} (h : before.InStep) (hplace : SamePlace before after) :
    after.InStep where
  domain := by rw [hplace.domain, hplace.shape, h.domain]
  conf := by rw [hplace.conf, hplace.shape, h.conf]

end InStep

theorem innermost_enter {context inner : Context} {level : Level} {name : String}
    (h : context.enter level name = .ok inner) : inner.innermost = some level := by
  rw [innermost_eq, shape_enter h]
  rfl

theorem Nested.tail {shape : List (Level × String)} (h : Nested shape) : Nested shape.tail := by
  cases shape with
  | nil => exact h
  | cons opened outer => exact h.2.2

theorem Nested.names_valid {shape : List (Level × String)} (h : Nested shape) :
    ∀ opened ∈ shape, NameFault.find? opened.2 = none := by
  induction shape with
  | nil => simp
  | cons opened outer ih =>
      intro other hother
      rcases List.mem_cons.mp hother with rfl | houter
      · exact h.1
      · exact ih h.2.2 other houter

theorem Nested.namesOf_valid {shape : List (Level × String)} (h : Nested shape)
    (belongs : Level → Bool) :
    ∀ name ∈ (namesOf belongs shape).segments, NameFault.find? name = none := by
  intro name hname
  simp only [namesOf, List.mem_reverse, List.mem_map, List.mem_filter] at hname
  obtain ⟨opened, ⟨hmem, -⟩, rfl⟩ := hname
  exact h.names_valid opened hmem

/-- The innermost level lies in a domain: it is one, or it is open inside one. -/
def insideDomain (shape : List (Level × String)) : Bool :=
  shape.head?.any (·.1 ≠ .domainGroup)

/-- A level of configurations stands in a domain or in another such level. -/
theorem Nested.insideDomain_tail {level : Level} {name : String} {outer : List (Level × String)}
    (h : Nested ((level, name) :: outer)) (hlevel : level.isDomainLevel = false) :
    insideDomain outer = true := by
  have hplace := h.2.1
  rcases outer with _ | ⟨⟨around, _⟩, _⟩
  · cases level <;> simp_all [Level.allowedIn, Level.isDomainLevel]
  · cases level <;> cases around <;> simp_all [Level.allowedIn, Level.isDomainLevel, insideDomain]

/-- Only levels of configurations stand in a domain, and then they lie in it. -/
theorem Nested.insideDomain_of_tail {level : Level} {name : String}
    {outer : List (Level × String)} (h : Nested ((level, name) :: outer))
    (houter : insideDomain outer = true) :
    level.isDomainLevel = false ∧ insideDomain ((level, name) :: outer) = true := by
  have hplace := h.2.1
  rcases outer with _ | ⟨⟨around, _⟩, _⟩
  · simp [insideDomain] at houter
  · cases level <;> cases around <;> simp_all [Level.allowedIn, Level.isDomainLevel, insideDomain]

/-- Nothing stands in a configuration. -/
theorem Nested.outer_ne_conf {level : Level} {name : String} {outer : List (Level × String)}
    (h : Nested ((level, name) :: outer)) : outer.head?.map (·.1) ≠ some .conf := by
  intro hconf
  have hplace := h.2.1
  rw [hconf] at hplace
  cases level <;> simp [Level.allowedIn] at hplace

theorem Nested.domainPath_valid {shape : List (Level × String)} (h : Nested shape)
    (hinside : insideDomain shape = true) : (namesOf Level.isDomainLevel shape).Valid := by
  refine ⟨?_, h.namesOf_valid _⟩
  induction shape with
  | nil => simp [insideDomain] at hinside
  | cons opened outer ih =>
      obtain ⟨level, name⟩ := opened
      rw [namesOf_cons]
      by_cases hlevel : level.isDomainLevel = true
      · simp [hlevel, NamePath.push]
      · rw [if_neg hlevel]
        exact ih h.2.2 (h.insideDomain_tail (by simpa using hlevel))

theorem Nested.confPath_valid {level : Level} {name : String} {outer : List (Level × String)}
    (h : Nested ((level, name) :: outer)) (hlevel : level.isDomainLevel = false) :
    (namesOf (!·.isDomainLevel) ((level, name) :: outer)).Valid := by
  refine ⟨?_, h.namesOf_valid _⟩
  rw [namesOf_cons]
  simp [hlevel, NamePath.push]

/-- A context that opening and closing can lead to: its stacks are in step, and its levels stand
where they may, under names that can be names. -/
structure WellFormed (context : Context) : Prop extends InStep context where
  nested : Nested context.shape

namespace WellFormed

variable {context after : Context}

theorem root : WellFormed .root :=
  ⟨.root, trivial⟩

/-- Opening a level keeps the nesting, since both checks have been made. -/
theorem enter {level : Level} {name : String} (h : context.WellFormed)
    (henter : context.enter level name = .ok after) : after.WellFormed where
  toInStep := h.toInStep.enter henter
  nested := by
    obtain ⟨hname, hplace, -⟩ := enter_eq_ok henter
    rw [shape_enter henter]
    rw [innermost_eq] at hplace
    exact ⟨hname, hplace, h.nested⟩

theorem leave (h : context.WellFormed) : context.leave.WellFormed where
  toInStep := h.toInStep.leave
  nested := context.shape_leave ▸ h.nested.tail

theorem ofSamePlace (h : context.WellFormed) (hplace : SamePlace context after) :
    after.WellFormed where
  toInStep := h.toInStep.ofSamePlace hplace
  nested := hplace.shape ▸ h.nested

/-- In a configuration both paths are valid. -/
theorem paths_valid (h : context.WellFormed) (hconf : context.innermost = some .conf) :
    context.domainPath.Valid ∧ context.confPath.Valid := by
  have hnested := h.nested
  rw [innermost_eq] at hconf
  rw [h.domain, h.conf]
  rcases hopen : context.shape with _ | ⟨⟨level, name⟩, outer⟩
  · simp [hopen] at hconf
  · rw [hopen] at hconf hnested
    obtain rfl : level = .conf := by simpa using hconf
    exact ⟨hnested.domainPath_valid rfl, hnested.confPath_valid rfl⟩

end WellFormed

end Context

end SettingsLang
