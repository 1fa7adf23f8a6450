import Mathlib.Algebra.GroupWithZero.Nat
import SettingsLang.Proofs.Generating
import SettingsLang.Proofs.RulesFirst
import SettingsLang.Proofs.SendingOnce

/-!
How many commands a description makes, told from the tree alone. Domains and configurations send
one command each and assignments one or two: with the rules or without them. In mode `once` the
rules go with the first assignment of a body, so they are sent once for each body that has any.
-/

namespace SettingsLang

/-- Numbers that are counted as far as they are not zero are at most their sum, and are their sum
exactly if none is more than one. -/
theorem countP_pos_sum {α : Type} (f : α → Nat) (list : List α) :
    list.countP (fun entry => decide (0 < f entry)) ≤ (list.map f).sum ∧
      (list.countP (fun entry => decide (0 < f entry)) = (list.map f).sum ↔
        ∀ entry ∈ list, f entry ≤ 1) := by
  induction list with
  | nil => simp
  | cons entry rest ih =>
      obtain ⟨hle, hiff⟩ := ih
      rw [List.countP_cons, List.map_cons, List.sum_cons, List.forall_mem_cons, ← hiff]
      by_cases hentry : 0 < f entry
      · simp only [hentry, decide_true, if_true]
        omega
      · simp only [hentry, decide_false, Bool.false_eq_true, if_false]
        omega

namespace Block

def opens (level : Level) (block : Block) : Bool :=
  block.level? == some level

/-- A configuration with an assignment directly in it. -/
def isAssigning (block : Block) : Bool :=
  block.opens .conf && block.body.any (·.isSet)

mutual

theorem countP_occurrences (counts : Block → Bool) : ∀ (block : Block) (position : Position),
    (block.occurrences position).countP (counts ·.block) =
      [block].countP counts +
        ((block.occurrences position).map fun inside => inside.block.body.countP counts).sum
  | .space level name body, position => by
    rw [occurrences, List.countP_cons, List.map_cons, List.sum_cons,
      countP_occurrencesAll counts body position 0, List.countP_singleton, Block.body]
    dsimp only
    omega
  | .rule .., position
  | .set .., position
  | .component _, position
  | .confType _, position => by
    simp [occurrences, body, List.countP_cons]

/-- Blocks are counted body by body. -/
theorem countP_occurrencesAll (counts : Block → Bool) :
    ∀ (blocks : List Block) (around : Position) (index : Nat),
      (occurrencesAll around index blocks).countP (counts ·.block) =
        blocks.countP counts +
          ((occurrencesAll around index blocks).map fun inside =>
            inside.block.body.countP counts).sum
  | [], around, index => rfl
  | block :: rest, around, index => by
    have hblock : ([block] ++ rest).countP counts = [block].countP counts + rest.countP counts :=
      List.countP_append
    rw [List.singleton_append] at hblock
    rw [occurrencesAll, List.countP_append, List.map_append, List.sum_append, hblock,
      countP_occurrences counts block, countP_occurrencesAll counts rest]
    omega

end

end Block

/-- Whether an assignment goes with the rules. -/
def Occurrence.sendsRules (mode : CommitMode) (before : List Occurrence) (occurrence : Occurrence) :
    Bool :=
  occurrence.block.isSet && !(mode == .once && assignedIn before occurrence.parent)

/-- How often blocks that come after others send the rules. -/
def rulesSent (mode : CommitMode) (before : List Occurrence) : List Occurrence → Nat
  | [] => 0
  | occurrence :: later =>
    (occurrence.sendsRules mode before).toNat + rulesSent mode (before ++ [occurrence]) later

theorem rulesSent_append (mode : CommitMode) (before first second : List Occurrence) :
    rulesSent mode before (first ++ second) =
      rulesSent mode before first + rulesSent mode (before ++ first) second := by
  induction first generalizing before with
  | nil => simp [rulesSent]
  | cons occurrence rest ih =>
      rw [List.cons_append, rulesSent, rulesSent, ih (before ++ [occurrence]), List.append_assoc,
        List.singleton_append]
      omega

theorem Occurrence.length_commands (mode : CommitMode) (known before : List Occurrence)
    (occurrence : Occurrence) :
    (occurrence.commands mode known before).length =
      (occurrence.block.opens .domain).toNat + (occurrence.block.opens .conf).toNat +
        occurrence.block.isSet.toNat + (occurrence.sendsRules mode before).toNat := by
  rcases occurrence with ⟨position, block⟩
  cases block with
  | space level name body => cases level <;> rfl
  | set parameter value =>
      cases mode with
      | everySet => rfl
      | once =>
          cases hassigned : assignedIn before (⟨position, .set parameter value⟩ : Occurrence).parent
            <;> simp [commands, sendsRules, hassigned, Block.opens, Block.level?, Block.isSet]
  | rule criterion symbol value => rfl
  | component name => rfl
  | confType name => rfl

/-- The number of commands that accepted blocks stand for. -/
theorem length_meaning {mode : CommitMode} {before later : List Occurrence}
    (h : (meaning mode before later).1 = .ok ()) :
    (meaning mode before later).2.length =
      later.countP (·.block.opens .domain) + later.countP (·.block.opens .conf) +
        later.countP (·.block.isSet) + rulesSent mode before later := by
  induction later generalizing before with
  | nil => rfl
  | cons occurrence rest ih =>
      cases hoffence : occurrence.offence? mode before before with
      | some offence =>
          rw [meaning_offence hoffence] at h
          cases h
      | none =>
          rw [meaning_cons hoffence] at h ⊢
          have hfirst (counts : Occurrence → Bool) :
              (occurrence :: rest).countP counts =
                rest.countP counts + (counts occurrence).toNat := by
            rw [List.countP_cons]
            cases counts occurrence <;> rfl
          rw [List.length_append, ih h, occurrence.length_commands, hfirst, hfirst, hfirst,
            rulesSent]
          omega

theorem rulesSent_everySet (before later : List Occurrence) :
    rulesSent .everySet before later = later.countP (·.block.isSet) := by
  induction later generalizing before with
  | nil => rfl
  | cons occurrence rest ih =>
      rw [rulesSent, ih, List.countP_cons]
      cases hset : occurrence.block.isSet <;> simp [Occurrence.sendsRules, hset, Nat.add_comm]

mutual

theorem Block.rulesSent_occurrences : ∀ (block : Block) {before : List Occurrence}
    {around : Position} {index : Nat}, Unreached before around index →
    rulesSent .once before (block.occurrences (around ++ [index])) =
      (block.occurrences (around ++ [index])).countP (·.block.body.any (·.isSet)) +
        (block.isSet && !assignedIn before around).toNat
  | .space level name body, before, around, index, h => by
    have hspace : (Block.space level name body).isSet = false := rfl
    -- nothing has been assigned inside a level that is just entered
    have hfresh : assignedIn
        (before ++ [⟨around ++ [index], .space level name body⟩]) (around ++ [index]) = false := by
      rw [assignedIn_append, assignedIn_inside h]
      simp [assignedIn, Block.isSet]
    rw [occurrences, rulesSent, Block.rulesSent_occurrencesAll body (h.enter _), hfresh,
      List.countP_cons]
    cases hbody : body.any (·.isSet) <;>
      simp only [Occurrence.sendsRules, hspace, Block.body, hbody, Bool.false_and, Bool.true_and,
        Bool.not_false, Bool.toNat_true, Bool.toNat_false, Bool.false_eq_true, if_true, if_false,
        Nat.zero_add, Nat.add_zero]
  | .rule .., before, around, index, h
  | .set .., before, around, index, h
  | .component _, before, around, index, h
  | .confType _, before, around, index, h => by
    simp [occurrences, rulesSent, Occurrence.sendsRules, Block.isSet, Block.body]

/-- In mode `once` the rules are sent once for every body with an assignment, and for the siblings
themselves if they have the first assignment of their place. -/
theorem Block.rulesSent_occurrencesAll : ∀ (blocks : List Block) {before : List Occurrence}
    {around : Position} {index : Nat}, Unreached before around index →
    rulesSent .once before (occurrencesAll around index blocks) =
      (occurrencesAll around index blocks).countP (·.block.body.any (·.isSet)) +
        (blocks.any (·.isSet) && !assignedIn before around).toNat
  | [], before, around, index, h => rfl
  | block :: rest, before, around, index, h => by
    have hpast := h.past (block.prefix_of_mem_occurrences (around ++ [index]))
    rw [occurrencesAll, rulesSent_append, Block.rulesSent_occurrences block h,
      Block.rulesSent_occurrencesAll rest hpast, assignedIn_append, assignedIn_occurrences,
      List.countP_append, List.any_cons]
    cases block.isSet <;> cases assignedIn before around <;> simp <;> omega

end

namespace Description

/-- How many blocks of the whole tree are of a kind. -/
def tally (description : Description) (counts : Block → Bool) : Nat :=
  description.occurrences.countP (counts ·.block)

variable {description : Description} {mode : CommitMode}

theorem assigned_only_in_conf (h : description.WellNested mode) {outer : Occurrence}
    (houter : outer ∈ description.occurrences) (hset : outer.block.body.any (·.isSet) = true) :
    outer.block.opens .conf = true := by
  obtain ⟨block, hblock, hassigns⟩ := List.any_eq_true.mp hset
  rw [← children_eq houter] at hblock
  obtain ⟨child, hchild, rfl⟩ := List.mem_map.mp hblock
  obtain ⟨hmem, hparent⟩ := List.mem_filter.mp hchild
  obtain ⟨earlier, later, hsplit⟩ := List.append_of_mem houter
  have hlevel : levelAt? description.occurrences child.parent = outer.block.level? := by
    rw [eq_of_beq hparent, levelAt?, find?_position hsplit]
    rfl
  cases hcase : child.block with
  | set parameter value =>
      rw [Block.opens, ← hlevel, (h child hmem).set parameter value hcase]
      rfl
  | _ => simp [hcase, Block.isSet] at hassigns

theorem not_assigned_at_root (h : description.WellNested mode) :
    description.any (·.isSet) = false := by
  rw [List.any_eq_false]
  intro block hblock hassigns
  rw [← Block.siblings_eq description [] 0] at hblock
  obtain ⟨child, hchild, rfl⟩ := List.mem_map.mp hblock
  obtain ⟨hmem, hparent⟩ := List.mem_filter.mp hchild
  have hlevel := (levelAt?_parent_eq_none_iff hmem).mpr (eq_of_beq hparent)
  cases hcase : child.block with
  | set parameter value =>
      rw [(h child hmem).set parameter value hcase] at hlevel
      cases hlevel
  | _ => simp [hcase, Block.isSet] at hassigns

theorem isAssigning_eq (h : description.WellNested mode) {occurrence : Occurrence}
    (hmem : occurrence ∈ description.occurrences) :
    occurrence.block.isAssigning = occurrence.block.body.any (·.isSet) := by
  rw [Block.isAssigning]
  cases hset : occurrence.block.body.any (·.isSet) with
  | false => rw [Bool.and_false]
  | true => rw [assigned_only_in_conf h hmem hset, Bool.and_true]

theorem tally_isAssigning (h : description.WellNested mode) :
    description.tally (·.isAssigning) =
      description.occurrences.countP (·.block.body.any (·.isSet)) := by
  apply List.countP_congr
  intro occurrence hmem
  dsimp only
  rw [isAssigning_eq h hmem]

/-- There are at least as many assignments as configurations with some, and as many exactly if no
configuration has two. -/
theorem tally_isSet (h : description.WellNested mode) :
    description.tally (·.isAssigning) ≤ description.tally (·.isSet) ∧
      (description.tally (·.isAssigning) = description.tally (·.isSet) ↔
        ∀ occurrence ∈ description.occurrences, occurrence.block.opens .conf = true →
          occurrence.block.body.countP (·.isSet) ≤ 1) := by
  have hassigning : description.tally (·.isAssigning) = description.occurrences.countP
      fun occurrence => decide (0 < occurrence.block.body.countP (·.isSet)) := by
    rw [tally_isAssigning h]
    apply List.countP_congr
    intro occurrence hmem
    rw [decide_eq_true_iff, List.countP_pos_iff, List.any_eq_true]
  have hroot : description.countP (·.isSet) = 0 := by
    rw [List.countP_eq_zero]
    exact List.any_eq_false.mp (not_assigned_at_root h)
  have hsets : description.tally (·.isSet) =
      (description.occurrences.map fun occurrence =>
        occurrence.block.body.countP (·.isSet)).sum := by
    rw [tally, occurrences, Block.countP_occurrencesAll (·.isSet) description [] 0, hroot,
      Nat.zero_add]
  obtain ⟨hle, hiff⟩ := countP_pos_sum
    (fun occurrence : Occurrence => occurrence.block.body.countP (·.isSet)) description.occurrences
  rw [hassigning, hsets]
  refine ⟨hle, hiff.trans ⟨fun hall occurrence hmem _ => hall occurrence hmem, ?_⟩⟩
  intro hconfs occurrence hmem
  cases hopens : occurrence.block.opens .conf with
  | true => exact hconfs occurrence hmem hopens
  | false =>
      -- what is no configuration has no assignment directly in it
      have hnone : occurrence.block.body.countP (·.isSet) = 0 := by
        rw [List.countP_eq_zero]
        intro block hblock hset
        have hconf := assigned_only_in_conf h hmem (List.any_eq_true.mpr ⟨block, hblock, hset⟩)
        rw [hopens] at hconf
        cases hconf
      omega

theorem length_sent (h : description.WellNested mode) :
    (description.sent mode).length =
      description.tally (·.opens .domain) + description.tally (·.opens .conf) +
        description.tally (·.isSet) +
        description.tally (if mode = .once then (·.isAssigning) else (·.isSet)) := by
  have hok : (meaning mode [] description.occurrences).1 = .ok () := by
    rw [description.meaning_eq mode]
    exact verdict_eq_ok_iff_wellNested.mpr h
  rw [description.sent_eq, length_meaning hok]
  cases mode with
  | everySet =>
      rw [rulesSent_everySet]
      rfl
  | once =>
      have hrules := Block.rulesSent_occurrencesAll description Unreached.start
      rw [not_assigned_at_root h, Bool.false_and, Bool.toNat_false, Nat.add_zero] at hrules
      rw [if_pos rfl, tally_isAssigning h, occurrences, hrules]
      rfl

end Description

namespace Generation

variable {S : Type} [FileAccess (StateM S)] [Store S]

/-- Counting succeeds exactly if the description can be loaded and is accepted, and counts then the
commands that it sends. -/
theorem outcome_count_eq_ok_iff {store : S} {path : String} {mode : CommitMode} {number : Nat} :
    (outcome store (count path mode)).1 = .ok number ↔
      ∃ description, outcome store (load path) = (.ok description, store) ∧
        description.WellNested mode ∧ number = (description.sent mode).length := by
  have hstream {description : Description} {commands : List Command} :
      streamOf description mode = .ok commands ↔
        description.WellNested mode ∧ commands = description.sent mode := by
    have hresult := description.evaluate_result CommandLog.refusesNothing mode CommandLog.empty
    rw [← Description.verdict_eq_ok_iff_wellNested, ← hresult, streamOf, Description.sent]
    rcases description.evaluate mode CommandLog.empty with ⟨_ | _, session⟩
    · simp [Except.map]
    · simp [Except.map, eq_comm]
  rw [outcome_count, outcome_load]
  constructor
  · intro hcount
    obtain ⟨commands, hsent, rfl⟩ := map_eq_ok_iff.mp hcount
    obtain ⟨description, hload, hcommands⟩ := bind_eq_ok_iff.mp hsent
    obtain ⟨haccepted, rfl⟩ := hstream.mp hcommands
    exact ⟨description, by rw [hload], haccepted, rfl⟩
  · rintro ⟨description, hload, haccepted, rfl⟩
    obtain ⟨hdescribed, -⟩ := Prod.mk.inj hload
    have hsent : sent store path mode = .ok (description.sent mode) :=
      bind_eq_ok_iff.mpr ⟨description, hdescribed, hstream.mpr ⟨haccepted, rfl⟩⟩
    rw [hsent]
    rfl

/-- The number of commands is read off the tree. Domains and configurations count once. Assignments
count twice in mode `everySet`; in mode `once` they count once, and so does each configuration that
has any. So mode `once` never counts more, and counts the same exactly if no configuration has two
assignments. -/
theorem count_tallies_blocks (store : S) (path : String) :
    (∀ every, (outcome store (count path .everySet)).1 = .ok every →
      ∃ description, outcome store (load path) = (.ok description, store) ∧
        every = description.tally (·.opens .domain) + description.tally (·.opens .conf) +
          2 * description.tally (·.isSet)) ∧
    (∀ once, (outcome store (count path .once)).1 = .ok once →
      ∃ description, outcome store (load path) = (.ok description, store) ∧
        once = description.tally (·.opens .domain) + description.tally (·.opens .conf) +
          description.tally (·.isSet) + description.tally (·.isAssigning)) ∧
    ∀ every once, (outcome store (count path .everySet)).1 = .ok every →
      (outcome store (count path .once)).1 = .ok once →
      ∃ description, outcome store (load path) = (.ok description, store) ∧ once ≤ every ∧
        (once = every ↔ ∀ occurrence ∈ description.occurrences,
          occurrence.block.opens .conf = true →
            occurrence.block.body.countP (·.isSet) ≤ 1) := by
  have hevery {description : Description} (h : description.WellNested .everySet) :
      (description.sent .everySet).length =
        description.tally (·.opens .domain) + description.tally (·.opens .conf) +
          2 * description.tally (·.isSet) := by
    rw [Description.length_sent h, if_neg (by decide)]
    omega
  have honce {description : Description} (h : description.WellNested .once) :
      (description.sent .once).length =
        description.tally (·.opens .domain) + description.tally (·.opens .conf) +
          description.tally (·.isSet) + description.tally (·.isAssigning) := by
    rw [Description.length_sent h, if_pos rfl]
  refine ⟨?_, ?_, ?_⟩
  · intro every hcount
    obtain ⟨description, hload, haccepted, rfl⟩ := outcome_count_eq_ok_iff.mp hcount
    exact ⟨description, hload, hevery haccepted⟩
  · intro once hcount
    obtain ⟨description, hload, haccepted, rfl⟩ := outcome_count_eq_ok_iff.mp hcount
    exact ⟨description, hload, honce haccepted⟩
  · intro every once hcount hcount'
    obtain ⟨description, hload, haccepted, rfl⟩ := outcome_count_eq_ok_iff.mp hcount
    obtain ⟨other, hload', haccepted', rfl⟩ := outcome_count_eq_ok_iff.mp hcount'
    rw [hload] at hload'
    obtain ⟨rfl⟩ := hload'
    obtain ⟨hle, hiff⟩ := Description.tally_isSet haccepted
    refine ⟨description, hload, ?_, ?_⟩
    · rw [hevery haccepted, honce haccepted']
      omega
    · rw [hevery haccepted, honce haccepted', ← hiff]
      omega

/-- A domain and a configuration with two assignments make six commands, and five in mode
`once`. -/
theorem count_tallies_two_assignments :
    let files : MemoryFiles :=
      ⟨[("d.toml", "block=[['domain','D',[['conf','C',[['set','/p',1],['set','/q',2]]]]]]")],
        [], []⟩
    (outcome files (count "d.toml" .everySet)).1 = .ok 6 ∧
      (outcome files (count "d.toml" .once)).1 = .ok 5 ∧
      ∃ description, outcome files (load "d.toml") = (.ok description, files) ∧
        description.tally (·.opens .domain) + description.tally (·.opens .conf) +
          2 * description.tally (·.isSet) = 6 ∧
        description.tally (·.opens .domain) + description.tally (·.opens .conf) +
          description.tally (·.isSet) + description.tally (·.isAssigning) = 5 ∧
        ∃ occurrence ∈ description.occurrences, occurrence.block.opens .conf = true ∧
          1 < occurrence.block.body.countP (·.isSet) := by
  intro files
  have hcounts : (outcome files (count "d.toml" .everySet)).1 = .ok 6 ∧
      (outcome files (count "d.toml" .once)).1 = .ok 5 := by
    rw [outcome_count, outcome_count, sent, sent, described_single]
    decide +kernel
  obtain ⟨hevery, honce⟩ := hcounts
  obtain ⟨htally, htallyOnce, hcompared⟩ := count_tallies_blocks files "d.toml"
  obtain ⟨description, hload, hsix⟩ := htally 6 hevery
  obtain ⟨other, hother, hfive⟩ := htallyOnce 5 honce
  obtain ⟨another, hanother, -, hiff⟩ := hcompared 6 5 hevery honce
  rw [hload] at hother hanother
  obtain ⟨rfl⟩ := hother
  obtain ⟨rfl⟩ := hanother
  refine ⟨hevery, honce, description, hload, hsix.symm, hfive.symm, ?_⟩
  by_contra hnone
  have hall : ∀ occurrence ∈ description.occurrences, occurrence.block.opens .conf = true →
      occurrence.block.body.countP (·.isSet) ≤ 1 := by
    intro occurrence hmem hconf
    by_contra hmore
    exact hnone ⟨occurrence, hmem, hconf, by omega⟩
  have hsame := hiff.mpr hall
  omega

end Generation

end SettingsLang
