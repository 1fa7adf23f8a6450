import SettingsLang.Proofs.OpenLevels
import SettingsLang.Proofs.Place

/-!
The context of an evaluation reflects the place that the evaluation has reached: its paths, rules,
innermost level and mark are those that are read off the blocks that came before. Opening a level
makes the context reflect the place inside it. Going past a block, with everything inside it,
keeps the context at its place, and only a rule or an assignment directly there shows.
-/

namespace SettingsLang

/-- Blocks of which none stands at an index inside a position, or at a later one, or inside a block
that does. -/
def Unreached (before : List Occurrence) (around : Position) (index : Nat) : Prop :=
  ∀ earlier ∈ before, ∀ place, index ≤ place → ¬ around ++ [place] <+: earlier.position

namespace Unreached

variable {before : List Occurrence} {around : Position} {index : Nat}

theorem start : Unreached [] [] 0 := by
  intro earlier hmem
  cases hmem

theorem not_below (h : Unreached before around index) :
    ∀ earlier ∈ before, ¬ around ++ [index] <+: earlier.position :=
  fun earlier hmem => h earlier hmem index (Nat.le_refl index)

theorem parent_ne (h : Unreached before around index) :
    ∀ earlier ∈ before, earlier.parent ≠ around ++ [index] := by
  intro earlier hmem heq
  apply h.not_below earlier hmem
  rw [← heq]
  exact List.dropLast_prefix earlier.position

/-- Once a block has been entered, nothing inside it has been reached. -/
theorem enter (h : Unreached before around index) (block : Block) :
    Unreached (before ++ [⟨around ++ [index], block⟩]) (around ++ [index]) 0 := by
  intro earlier hmem place _ hbelow
  rcases List.mem_append.mp hmem with hbefore | hself
  · exact h.not_below earlier hbefore ((List.prefix_append _ [place]).trans hbelow)
  · rw [List.mem_singleton.mp hself] at hbelow
    have hlength := hbelow.length_le
    rw [List.length_append, List.length_singleton] at hlength
    dsimp only at hlength
    omega

/-- Blocks at an index and inside it do not reach the next one. -/
theorem past (h : Unreached before around index) {passed : List Occurrence}
    (hpassed : ∀ occurrence ∈ passed, around ++ [index] <+: occurrence.position) :
    Unreached (before ++ passed) around (index + 1) := by
  intro earlier hmem place hle hbelow
  rcases List.mem_append.mp hmem with hbefore | hafter
  · exact h earlier hbefore place (by omega) hbelow
  · have hindex := Block.eq_of_prefix_siblings (hpassed earlier hafter) hbelow
    omega

end Unreached

/-- A context that is as the blocks before say it is inside the block at a position. -/
structure Reflects (before : List Occurrence) (inside : Position) (context : Context) : Prop where
  depth : context.depth = inside.length
  domain : context.domainPath = namesAround Level.isDomainLevel before inside
  conf : context.confPath = namesAround (!·.isDomainLevel) before inside
  level : context.innermost = levelAt? before inside
  rules : context.flattenedRules = ⟨rulesHolding before inside⟩
  mark : context.isCommitted = assignedIn before inside

namespace Reflects

variable {before : List Occurrence} {around : Position} {context : Context}

theorem root : Reflects [] [] .root where
  depth := rfl
  domain := rfl
  conf := rfl
  level := rfl
  rules := rfl
  mark := rfl

theorem describe (h : Reflects before around context) :
    context.describe = placeText before around := by
  cases hlevel : levelAt? before around <;>
    simp [Context.describe, placeText, h.level, hlevel, h.domain, h.conf]

theorem ne_root (h : Reflects before around context) (hlevel : context.innermost ≠ none) :
    around ≠ [] := by
  rintro rfl
  have hempty : context.frames = [] := List.length_eq_zero_iff.mp h.depth
  simp [Context.innermost, hempty] at hlevel

end Reflects

section Below

variable {around : Position} {index : Nat} {passed : List Occurrence}
  (hpassed : ∀ occurrence ∈ passed, around ++ [index] <+: occurrence.position)

include hpassed

theorem not_around_of_below : ∀ occurrence ∈ passed, ¬ occurrence.position <+: around := by
  intro occurrence hmem haround
  have hlength := ((hpassed occurrence hmem).trans haround).length_le
  rw [List.length_append, List.length_singleton] at hlength
  omega

theorem namesAround_past (belongs : Level → Bool) (before : List Occurrence) :
    namesAround belongs (before ++ passed) around = namesAround belongs before around := by
  have hnone : passed.filter (·.position.isPrefixOf around) = [] := by
    rw [List.filter_eq_nil_iff]
    intro occurrence hmem
    simpa using not_around_of_below hpassed occurrence hmem
  rw [namesAround, namesAround, List.filter_append, hnone, List.append_nil]

theorem levelAt?_past (before : List Occurrence) :
    levelAt? (before ++ passed) around = levelAt? before around := by
  have hnone : passed.find? (·.position == around) = none := by
    apply find?_position_eq_none
    intro occurrence hmem heq
    exact not_around_of_below hpassed occurrence hmem (heq ▸ List.prefix_refl _)
  rw [levelAt?, levelAt?, List.find?_append, hnone, Option.or_none]

end Below

theorem isPrefixOf_snoc {position around : Position} {index : Nat}
    (h : position ≠ around ++ [index]) :
    position.isPrefixOf (around ++ [index]) = position.isPrefixOf around := by
  rw [Bool.eq_iff_iff, List.isPrefixOf_iff_prefix, List.isPrefixOf_iff_prefix,
    List.prefix_concat_iff]
  exact or_iff_right h

/-- The names around a block and its own: the names around the place where it stands, and its own
at the end. -/
theorem namesAround_snoc {before : List Occurrence} {around : Position} {index : Nat}
    (hunreached : Unreached before around index) (belongs : Level → Bool) (block : Block) :
    namesAround belongs (before ++ [⟨around ++ [index], block⟩]) (around ++ [index]) =
      ⟨(namesAround belongs before around).segments ++ (block.nameOf? belongs).toList⟩ := by
  have hsame : before.filter (·.position.isPrefixOf (around ++ [index])) =
      before.filter (·.position.isPrefixOf around) := by
    apply List.filter_congr
    intro earlier hmem
    exact isPrefixOf_snoc (ne_of_not_around (hunreached.not_below earlier hmem))
  cases hname : block.nameOf? belongs <;> simp [namesAround, hsame, hname]

theorem rulesHolding_inside {before : List Occurrence} {around : Position} {index : Nat}
    (hunreached : Unreached before around index) :
    rulesHolding before (around ++ [index]) = rulesHolding before around := by
  have hsame : (before.filter fun earlier =>
        earlier.parent != [] && earlier.parent.isPrefixOf (around ++ [index])) =
      before.filter fun earlier =>
        earlier.parent != [] && earlier.parent.isPrefixOf around := by
    apply List.filter_congr
    intro earlier hmem
    rw [isPrefixOf_snoc (hunreached.parent_ne earlier hmem)]
  rw [rulesHolding, rulesHolding, hsame]

theorem assignedIn_inside {before : List Occurrence} {around : Position} {index : Nat}
    (hunreached : Unreached before around index) :
    assignedIn before (around ++ [index]) = false := by
  rw [assignedIn, List.any_eq_false]
  intro earlier hmem
  simp [hunreached.parent_ne earlier hmem]

section Directly

variable (block : Block) (around : Position) (index : Nat)

theorem Block.parent_not_around : ∀ occurrence ∈ occurrencesAll (around ++ [index]) 0 block.body,
    ¬ occurrence.parent <+: around := by
  intro occurrence hmem haround
  obtain ⟨place, -, rest, hrest⟩ :=
    prefix_of_mem_occurrencesAll block.body (around ++ [index]) 0 occurrence hmem
  have hparent : occurrence.parent = around ++ [index] ++ ([place] ++ rest).dropLast := by
    rw [Occurrence.parent, ← hrest, List.append_assoc, List.dropLast_append_of_ne_nil (by simp)]
  rw [hparent] at haround
  have hlength := haround.length_le
  simp only [List.length_append, List.length_singleton] at hlength
  omega

theorem Block.occurrences_eq (position : Position) :
    block.occurrences position = ⟨position, block⟩ :: occurrencesAll position 0 block.body := by
  cases block <;> simp [occurrences, occurrencesAll, body]

/-- Of a block and all inside it only a rule holds in the place where the block stands. -/
theorem rulesHolding_occurrences :
    rulesHolding (block.occurrences (around ++ [index])) around =
      if around = [] then [] else block.rule?.toList := by
  have hinside : (Block.occurrencesAll (around ++ [index]) 0 block.body).filter
      (fun earlier => earlier.parent != [] && earlier.parent.isPrefixOf around) = [] := by
    rw [List.filter_eq_nil_iff]
    intro occurrence hmem
    have hnot := Block.parent_not_around block around index occurrence hmem
    simp [hnot]
  rw [rulesHolding, block.occurrences_eq, List.filter_cons, hinside]
  by_cases hroot : around = [] <;> cases hrule : block.rule? <;>
    simp [Occurrence.parent, hroot, hrule]

theorem assignedIn_occurrences :
    assignedIn (block.occurrences (around ++ [index])) around = block.isSet := by
  have hinside : (Block.occurrencesAll (around ++ [index]) 0 block.body).any
      (fun earlier => earlier.parent == around && earlier.block.isSet) = false := by
    rw [List.any_eq_false]
    intro occurrence hmem
    have hnot : occurrence.parent ≠ around := by
      rintro rfl
      exact Block.parent_not_around block _ index occurrence hmem (List.prefix_refl _)
    simp [hnot]
  rw [assignedIn, block.occurrences_eq, List.any_cons, hinside]
  simp [Occurrence.parent]

end Directly

namespace Context

theorem domainPath_inside (context : Context) (level : Level) (name : String)
    (body : List Block) :
    (context.inside level name).domainPath = ⟨context.domainPath.segments ++
      ((Block.space level name body).nameOf? Level.isDomainLevel).toList⟩ := by
  cases level <;> simp [inside, Block.nameOf?, Level.isDomainLevel, NamePath.push]

theorem confPath_inside (context : Context) (level : Level) (name : String)
    (body : List Block) :
    (context.inside level name).confPath = ⟨context.confPath.segments ++
      ((Block.space level name body).nameOf? (!·.isDomainLevel)).toList⟩ := by
  cases level <;> simp [inside, Block.nameOf?, Level.isDomainLevel, NamePath.push]

end Context

namespace Reflects

variable {before : List Occurrence} {around : Position} {index : Nat} {context : Context}

/-- Inside a level that has just been opened there are no rules yet but those from around it. -/
theorem enter (h : Reflects before around context) (hunreached : Unreached before around index)
    (level : Level) (name : String) (body : List Block) :
    Reflects (before ++ [⟨around ++ [index], .space level name body⟩]) (around ++ [index])
      (context.inside level name) where
  depth := by
    have hdepth := h.depth
    simp_all [Context.depth]
  domain := by
    rw [namesAround_snoc hunreached, ← h.domain]
    exact context.domainPath_inside level name body
  conf := by
    rw [namesAround_snoc hunreached, ← h.conf]
    exact context.confPath_inside level name body
  level := by
    have hnone : before.find? (·.position == around ++ [index]) = none := by
      apply find?_position_eq_none
      intro earlier hmem
      exact ne_of_not_around (hunreached.not_below earlier hmem)
    simp [levelAt?, List.find?_append, hnone, Block.level?, Context.innermost, Frame.fresh]
  rules := by
    rw [context.flattenedRules_inside, h.rules, rulesHolding_append, rulesHolding_inside hunreached]
    simp [rulesHolding, Block.rule?]
  mark := by
    rw [assignedIn_append, assignedIn_inside hunreached]
    simp [assignedIn, Block.isSet]

/-- Past a block the context is as before it, with the rule or the mark that the block left. -/
theorem past (h : Reflects before around context) (block : Block) {after : Context}
    (hplace : context.SamePlace after)
    (hrules : after.flattenedRules.rules =
      context.flattenedRules.rules ++ if around = [] then [] else block.rule?.toList)
    (hmark : after.isCommitted = (context.isCommitted || block.isSet)) :
    Reflects (before ++ block.occurrences (around ++ [index])) around after := by
  have hbelow := block.prefix_of_mem_occurrences (around ++ [index])
  constructor
  · rw [← h.depth, ← after.length_shape, hplace.shape, context.length_shape]
  · rw [namesAround_past hbelow, ← h.domain, hplace.domain]
  · rw [namesAround_past hbelow, ← h.conf, hplace.conf]
  · rw [levelAt?_past hbelow, ← h.level, hplace.innermost]
  · have hbefore : context.flattenedRules.rules = rulesHolding before around :=
      congrArg RuleSet.rules h.rules
    rw [rulesHolding_append, rulesHolding_occurrences, ← hbefore, ← hrules]
  · rw [assignedIn_append, assignedIn_occurrences, ← h.mark, hmark]

end Reflects

end SettingsLang
