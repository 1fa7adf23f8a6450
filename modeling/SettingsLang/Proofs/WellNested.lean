import Mathlib.Data.List.Induction
import SettingsLang.Proofs.Meaning

/-!
Which descriptions are accepted, and why the others are not. The rules of the language are told
here block by block from the whole tree, without any evaluation. A description is accepted exactly
if all its blocks keep to them, and otherwise the failure is the offence of the first block that
does not.
-/

namespace SettingsLang

theorem Matcher.ofSymbol?_ne_none_iff {symbol : String} :
    ofSymbol? symbol ≠ none ↔ symbol ∈ ["is", "is_not", "includes", "excludes"] := by
  have hsymbols : ["is", "is_not", "includes", "excludes"] = all.map Matcher.symbol := rfl
  have hall (matcher : Matcher) : matcher ∈ all := by cases matcher <;> decide
  simp [hsymbols, Option.ne_none_iff_exists', ofSymbol?_eq_some_iff, hall]

theorem Level.allowedIn_iff {level : Level} {around : Option Level} :
    level.allowedIn around = true ↔
      (level = .domainGroup ∨ level = .domain → around = none ∨ around = some .domainGroup) ∧
      (level = .confGroup ∨ level = .conf → around = some .domain ∨ around = some .confGroup) := by
  cases level <;> simp [allowedIn]

namespace Description

/-- The rules of the language for one block of a description. -/
structure Permits (description : Description) (mode : CommitMode) (occurrence : Occurrence) :
    Prop where
  domain : ∀ level name body, occurrence.block = .space level name body →
    level = .domainGroup ∨ level = .domain →
    occurrence.parent = [] ∨
      levelAt? description.occurrences occurrence.parent = some .domainGroup
  conf : ∀ level name body, occurrence.block = .space level name body →
    level = .confGroup ∨ level = .conf →
    levelAt? description.occurrences occurrence.parent = some .domain ∨
      levelAt? description.occurrences occurrence.parent = some .confGroup
  name : ∀ level name body, occurrence.block = .space level name body →
    name ≠ "" ∧ ∀ c ∈ name.toList, c ≠ '.' ∧ Text.isBlank c = false
  rule : ∀ criterion symbol value, occurrence.block = .rule criterion symbol value →
    occurrence.parent ≠ [] ∧ symbol ∈ ["is", "is_not", "includes", "excludes"]
  set : ∀ parameter value, occurrence.block = .set parameter value →
    levelAt? description.occurrences occurrence.parent = some .conf
  supported : ∀ name, occurrence.block ≠ .component name ∧ occurrence.block ≠ .confType name
  once : mode = .once → ∀ criterion symbol value,
    occurrence.block = .rule criterion symbol value →
    levelAt? description.occurrences occurrence.parent = some .conf →
    ∀ sibling ∈ description.before occurrence.position, sibling.parent = occurrence.parent →
      sibling.block.isSet = false

/-- All blocks keep to the rules of the language. -/
def WellNested (description : Description) (mode : CommitMode) : Prop :=
  ∀ occurrence ∈ description.occurrences, description.Permits mode occurrence

variable {description : Description} {earlier later : List Occurrence} {occurrence : Occurrence}

theorem find?_position (h : description.occurrences = earlier ++ occurrence :: later) :
    description.occurrences.find? (·.position == occurrence.position) = some occurrence := by
  have hnone : earlier.find? (·.position == occurrence.position) = none := by
    apply find?_position_eq_none
    intro other hother
    exact ne_of_not_around ((not_prefix_of_later h).1 other hother)
  rw [h, List.find?_append, hnone]
  simp

/-- Only blocks at the root have no level around them. -/
theorem levelAt?_parent_eq_none_iff (h : occurrence ∈ description.occurrences) :
    levelAt? description.occurrences occurrence.parent = none ↔ occurrence.parent = [] := by
  constructor
  · intro hnone
    rcases Block.parent_of_mem_occurrencesAll description [] 0 occurrence h with
      hroot | ⟨outer, houter, hposition, level, name, body, hblock⟩
    · exact hroot
    · obtain ⟨before, after, hsplit⟩ := List.append_of_mem houter
      have hfound := find?_position hsplit
      rw [levelAt?, ← hposition, hfound] at hnone
      simp [hblock, Block.level?] at hnone
  · intro hroot
    rw [levelAt?, hroot]
    have hnone : description.occurrences.find? (·.position == []) = none := by
      apply find?_position_eq_none
      intro other hother
      exact position_ne_nil hother
    rw [hnone, Option.bind_none]

theorem permits_space {mode : CommitMode} {level : Level} {name : String} {body : List Block}
    (hmem : occurrence ∈ description.occurrences)
    (hblock : occurrence.block = .space level name body) :
    description.Permits mode occurrence ↔
      NameFault.find? name = none ∧
        level.allowedIn (levelAt? description.occurrences occurrence.parent) = true := by
  rw [Level.allowedIn_iff, NameFault.find?_eq_none_iff, levelAt?_parent_eq_none_iff hmem]
  constructor
  · intro h
    exact ⟨h.name level name body hblock, h.domain level name body hblock,
      h.conf level name body hblock⟩
  · rintro ⟨hname, hdomain, hconf⟩
    constructor <;> simp_all

theorem permits_rule {mode : CommitMode} {criterion symbol : String} {value : Scalar}
    (hmem : occurrence ∈ description.occurrences)
    (hblock : occurrence.block = .rule criterion symbol value) :
    description.Permits mode occurrence ↔
      Matcher.ofSymbol? symbol ≠ none ∧
        (mode = .once → levelAt? description.occurrences occurrence.parent = some .conf →
          assignedIn (description.before occurrence.position) occurrence.parent = false) ∧
        levelAt? description.occurrences occurrence.parent ≠ none := by
  have hroot : levelAt? description.occurrences occurrence.parent ≠ none ↔
      occurrence.parent ≠ [] :=
    not_congr (levelAt?_parent_eq_none_iff hmem)
  have hassigned : assignedIn (description.before occurrence.position) occurrence.parent = false ↔
      ∀ sibling ∈ description.before occurrence.position,
        sibling.parent = occurrence.parent → sibling.block.isSet = false := by
    simp [assignedIn]
  rw [Matcher.ofSymbol?_ne_none_iff, hassigned, hroot]
  constructor
  · intro h
    obtain ⟨hinside, hsymbol⟩ := h.rule criterion symbol value hblock
    exact ⟨hsymbol, fun hmode => h.once hmode criterion symbol value hblock, hinside⟩
  · rintro ⟨hsymbol, honce, hinside⟩
    constructor <;> simp_all

theorem permits_set {mode : CommitMode} {parameter : String} {value : Scalar}
    (hblock : occurrence.block = .set parameter value) :
    description.Permits mode occurrence ↔
      levelAt? description.occurrences occurrence.parent = some .conf := by
  constructor
  · intro h
    exact h.set parameter value hblock
  · intro hconf
    constructor <;> simp_all

theorem conf_of_assignedIn {mode : CommitMode}
    (h : description.occurrences = earlier ++ occurrence :: later)
    (hearlier : ∀ other ∈ earlier, description.Permits mode other)
    (hassigned : assignedIn (description.before occurrence.position) occurrence.parent = true) :
    levelAt? description.occurrences occurrence.parent = some .conf := by
  rw [before_eq h] at hassigned
  obtain ⟨sibling, hmem, hsibling⟩ := List.any_eq_true.mp hassigned
  rw [Bool.and_eq_true, beq_iff_eq] at hsibling
  obtain ⟨hparent, hset⟩ := hsibling
  have hpermits := hearlier sibling hmem
  rw [← hparent]
  cases hblock : sibling.block with
  | set parameter value => exact hpermits.set parameter value hblock
  | _ => simp [hblock, Block.isSet] at hset

/-- Where all blocks before it keep to the rules, a block has no offence if and only if it does.
An assignment before it then stands in a configuration, so a rule that comes too late does. -/
theorem offenceOf?_eq_none_iff {description : Description} {mode : CommitMode}
    (h : description.occurrences = earlier ++ occurrence :: later)
    (hearlier : ∀ other ∈ earlier, description.Permits mode other) :
    description.offenceOf? mode occurrence = none ↔ description.Permits mode occurrence := by
  have hmem : occurrence ∈ description.occurrences := by simp [h]
  cases hblock : occurrence.block with
  | space level name body =>
      rw [permits_space hmem hblock, offenceOf?, Occurrence.offence?, hblock]
      cases hname : NameFault.find? name <;> simp [hname]
  | rule criterion symbol value =>
      have hconf := conf_of_assignedIn h hearlier
      rw [permits_rule hmem hblock, offenceOf?, Occurrence.offence?, hblock]
      simp only [ite_some_eq_none, and_true, not_and, Bool.not_eq_true]
      refine and_congr_right fun _ => and_congr_left fun _ => ⟨fun hnot hmode _ => hnot hmode, ?_⟩
      intro hnot hmode
      cases hassigned : assignedIn (description.before occurrence.position) occurrence.parent with
      | false => rfl
      | true => rw [← hassigned, hnot hmode (hconf hassigned)]
  | set parameter value =>
      rw [permits_set hblock, offenceOf?, Occurrence.offence?, hblock]
      simp
  | component name =>
      rw [offenceOf?, Occurrence.offence?, hblock]
      simp only [reduceCtorEq, false_iff]
      exact fun hpermits => (hpermits.supported name).1 hblock
  | confType name =>
      rw [offenceOf?, Occurrence.offence?, hblock]
      simp only [reduceCtorEq, false_iff]
      exact fun hpermits => (hpermits.supported name).2 hblock

theorem offenceless_iff (mode : CommitMode) (earlier later : List Occurrence)
    (h : description.occurrences = earlier ++ later) :
    (∀ other ∈ earlier, description.offenceOf? mode other = none) ↔
      ∀ other ∈ earlier, description.Permits mode other := by
  induction earlier using List.reverseRecOn generalizing later with
  | nil => simp
  | append_singleton initial last ih =>
      have hsplit : description.occurrences = initial ++ last :: later := by simp [h]
      simp only [List.forall_mem_append, List.forall_mem_singleton]
      rw [ih (last :: later) hsplit]
      exact and_congr_right (offenceOf?_eq_none_iff hsplit)

end Description

/-- Evaluation accepts a description if and only if all its blocks keep to the rules of the
language. Otherwise it fails with the offence of the first block that does not, in document
order. -/
theorem evaluation_accepts_wellNested {σ : Type} [Sink σ] (hopen : Sink.RefusesNothing σ)
    (description : Description) (mode : CommitMode) (sink : σ) :
    let result := (description.evaluate mode sink).1
    (result = .ok () ↔ description.WellNested mode) ∧
      ∀ failure, result = .error failure ↔
        ∃ earlier occurrence later offence,
          description.occurrences = earlier ++ occurrence :: later ∧
          (∀ other ∈ earlier, description.Permits mode other) ∧
          ¬ description.Permits mode occurrence ∧
          description.offenceOf? mode occurrence = some offence ∧
          failure = .language offence := by
  intro result
  have hresult : result = description.verdict mode :=
    description.evaluate_result hopen mode sink
  rw [hresult]
  constructor
  · have hall := description.offenceless_iff mode description.occurrences [] (by simp)
    rw [description.verdict_eq_ok_iff, Description.WellNested, ← hall,
      Description.firstOffence?, List.findSome?_eq_none_iff]
  · intro failure
    rw [description.verdict_eq_error_iff]
    constructor
    · rintro ⟨offence, hfirst, rfl⟩
      obtain ⟨earlier, occurrence, later, hsplit, hoffence, hnone⟩ :=
        List.findSome?_eq_some_iff.mp hfirst
      have hearlier := (description.offenceless_iff mode earlier _ hsplit).mp hnone
      refine ⟨earlier, occurrence, later, offence, hsplit, hearlier, ?_, hoffence, rfl⟩
      rw [← description.offenceOf?_eq_none_iff hsplit hearlier, hoffence]
      simp
    · rintro ⟨earlier, occurrence, later, offence, hsplit, hearlier, -, hoffence, rfl⟩
      have hnone := (description.offenceless_iff mode earlier _ hsplit).mpr hearlier
      exact ⟨offence, List.findSome?_eq_some_iff.mpr
        ⟨earlier, occurrence, later, hsplit, hoffence, hnone⟩, rfl⟩

/-- A rule after an assignment is the first offence in mode `once`, also if a matcher further on is
unknown. The description without both is accepted. -/
theorem evaluation_refuses_late_rule :
    let description : Description :=
      [.space .domainGroup "Audio"
        [.space .domain "Volume"
          [.space .conf "Loud"
            [.set "gain" (.text "3"), .rule "Device" "is" (.text "Speaker")]],
          .rule "Mode" "like" (.text "Normal")]]
    let late : Offence :=
      .misplaced "rule" "after the first set inside conf 'Loud' of domain 'Audio.Volume'"
    let shorter : Description :=
      [.space .domain "Volume" [.space .conf "Loud" [.set "gain" (.text "3")]]]
    Sink.RefusesNothing CommandLog ∧ shorter.WellNested .once ∧
      ¬ description.WellNested .once ∧
      ∃ earlier occurrence later,
        description.occurrences = earlier ++ occurrence :: later ∧
        (∀ other ∈ earlier, description.Permits .once other) ∧
        ¬ description.Permits .once occurrence ∧
        description.offenceOf? .once occurrence = some late := by
  intro description late shorter
  obtain ⟨haccepted, -⟩ := evaluation_accepts_wellNested CommandLog.refusesNothing
    shorter .once CommandLog.empty
  obtain ⟨hrefused, hfirst⟩ := evaluation_accepts_wellNested CommandLog.refusesNothing
    description .once CommandLog.empty
  have hresult : (description.evaluate .once CommandLog.empty).1 = .error (.language late) := rfl
  refine ⟨CommandLog.refusesNothing, haccepted.mp rfl, ?_, ?_⟩
  · rw [← hrefused, hresult]
    exact nofun
  · obtain ⟨earlier, occurrence, later, offence, hsplit, hearlier, hnot, hoffence, heq⟩ :=
      (hfirst (.language late)).mp hresult
    cases heq
    exact ⟨earlier, occurrence, later, hsplit, hearlier, hnot, hoffence⟩

end SettingsLang
