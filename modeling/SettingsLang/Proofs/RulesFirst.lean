import SettingsLang.Proofs.Children
import SettingsLang.Proofs.WellNested

/-!
What mode `once` asks of a description beyond what mode `everySet` does: in the body of each
configuration all rules come before all assignments. The rules of the language say this of a rule
and the siblings before it, position by position; here it is said of bodies.
-/

namespace SettingsLang

/-- An entry of a list and all entries before it are related exactly if the list is pairwise. -/
theorem pairwise_iff_forall_split {α : Type} {R : α → α → Prop} {list : List α} :
    list.Pairwise R ↔ ∀ earlier entry later, list = earlier ++ entry :: later →
      ∀ other ∈ earlier, R other entry := by
  constructor
  · rintro hpairwise earlier entry later rfl other hother
    exact (List.pairwise_append.mp hpairwise).2.2 other hother entry List.mem_cons_self
  · induction list using List.reverseRecOn with
    | nil => exact fun _ => List.Pairwise.nil
    | append_singleton initial last ih =>
        intro hsplit
        rw [List.pairwise_append]
        have hinitial : ∀ earlier entry later, initial = earlier ++ entry :: later →
            ∀ other ∈ earlier, R other entry := fun earlier entry later h =>
          hsplit earlier entry (later ++ [last]) (by simp [h])
        refine ⟨ih hinitial, List.pairwise_singleton _ _, ?_⟩
        intro other hother entry hentry
        rw [List.mem_singleton.mp hentry]
        exact hsplit initial last [] rfl other hother

namespace Block

def isRule : Block → Bool
  | .rule .. => true
  | _ => false

/-- No rule of a body comes after an assignment of the body. -/
def RulesFirst (body : List Block) : Prop :=
  body.Pairwise fun earlier later => earlier.isSet = true → later.isRule = false

theorem level?_eq_some_iff {block : Block} {level : Level} :
    block.level? = some level ↔ ∃ name body, block = .space level name body := by
  cases block <;> simp [level?]

theorem isRule_eq_true_iff {block : Block} :
    block.isRule = true ↔ ∃ criterion symbol value, block = .rule criterion symbol value := by
  cases block <;> simp [isRule]

end Block

namespace Description

variable {description : Description} {occurrence : Occurrence}

/-- The body of every configuration has its rules first. -/
def ConfsRulesFirst (description : Description) : Prop :=
  ∀ occurrence ∈ description.occurrences, ∀ name body,
    occurrence.block = .space .conf name body → Block.RulesFirst body

/-- A rule directly in a configuration has no assignment before it there. -/
def InTime (description : Description) (occurrence : Occurrence) : Prop :=
  ∀ criterion symbol value, occurrence.block = .rule criterion symbol value →
    levelAt? description.occurrences occurrence.parent = some .conf →
    ∀ sibling ∈ description.before occurrence.position, sibling.parent = occurrence.parent →
      sibling.block.isSet = false

theorem permits_once_iff :
    description.Permits .once occurrence ↔
      description.Permits .everySet occurrence ∧ description.InTime occurrence := by
  constructor
  · intro h
    exact ⟨⟨h.domain, h.conf, h.name, h.rule, h.set, h.supported, nofun⟩, h.once rfl⟩
  · rintro ⟨h, htime⟩
    exact ⟨h.domain, h.conf, h.name, h.rule, h.set, h.supported, fun _ => htime⟩

/-- The level at a position is the one that the block there opens. -/
theorem levelAt?_eq_some_iff {position : Position} {level : Level} :
    levelAt? description.occurrences position = some level ↔
      ∃ outer ∈ description.occurrences, outer.position = position ∧
        outer.block.level? = some level := by
  constructor
  · intro hlevel
    rw [levelAt?, Option.bind_eq_some_iff] at hlevel
    obtain ⟨outer, hfound, hblock⟩ := hlevel
    exact ⟨outer, List.mem_of_find?_eq_some hfound,
      by simpa using List.find?_some hfound, hblock⟩
  · rintro ⟨outer, houter, rfl, hblock⟩
    obtain ⟨before, after, hsplit⟩ := List.append_of_mem houter
    rw [levelAt?, find?_position hsplit]
    exact hblock

/-- The body of a block has its rules first if no child that is a rule has an assignment before it
among the children. -/
theorem rulesFirst_iff (h : occurrence ∈ description.occurrences) :
    Block.RulesFirst occurrence.block.body ↔
      ∀ earlier child later, description.occurrences = earlier ++ child :: later →
        child.parent = occurrence.position → child.block.isRule = true →
        ∀ sibling ∈ earlier, sibling.parent = occurrence.position →
          sibling.block.isSet = false := by
  rw [Block.RulesFirst, ← children_eq h, List.pairwise_map, List.pairwise_filter,
    pairwise_iff_forall_split]
  simp only [beq_iff_eq]
  constructor
  · intro hall earlier child later hsplit hchild hrule sibling hmem hsibling
    cases hset : sibling.block.isSet with
    | false => rfl
    | true =>
        have hnot := hall earlier child later hsplit sibling hmem hsibling hchild hset
        rw [hrule] at hnot
        cases hnot
  · intro hall earlier child later hsplit sibling hmem hsibling hchild hset
    cases hrule : child.block.isRule with
    | false => rfl
    | true =>
        have hnot := hall earlier child later hsplit hchild hrule sibling hmem hsibling
        rw [hset] at hnot
        cases hnot

theorem confsRulesFirst_iff :
    description.ConfsRulesFirst ↔
      ∀ occurrence ∈ description.occurrences, description.InTime occurrence := by
  constructor
  · intro hbodies child hmem criterion symbol value hblock hlevel
    obtain ⟨outer, houter, hposition, hconf⟩ := levelAt?_eq_some_iff.mp hlevel
    obtain ⟨name, body, hspace⟩ := Block.level?_eq_some_iff.mp hconf
    have hfirst := hbodies outer houter name body hspace
    obtain ⟨earlier, later, hsplit⟩ := List.append_of_mem hmem
    have hbody : outer.block.body = body := by rw [hspace, Block.body]
    rw [← hbody, rulesFirst_iff houter, hposition] at hfirst
    rw [before_eq hsplit]
    exact hfirst earlier child later hsplit rfl
      (Block.isRule_eq_true_iff.mpr ⟨criterion, symbol, value, hblock⟩)
  · intro htime outer houter name body hspace
    have hbody : outer.block.body = body := by rw [hspace, Block.body]
    rw [← hbody, rulesFirst_iff houter]
    intro earlier child later hsplit hparent hrule
    obtain ⟨criterion, symbol, value, hblock⟩ := Block.isRule_eq_true_iff.mp hrule
    have hlevel : levelAt? description.occurrences child.parent = some .conf :=
      levelAt?_eq_some_iff.mpr ⟨outer, houter, hparent.symm,
        Block.level?_eq_some_iff.mpr ⟨name, body, hspace⟩⟩
    have hsiblings := htime child (by simp [hsplit]) criterion symbol value hblock hlevel
    rwa [before_eq hsplit, hparent] at hsiblings

/-- What mode `once` accepts is what mode `everySet` accepts with the rules of each configuration
first. -/
theorem wellNested_once_iff :
    description.WellNested .once ↔
      description.WellNested .everySet ∧ description.ConfsRulesFirst := by
  simp only [WellNested, confsRulesFirst_iff, permits_once_iff]
  constructor
  · intro h
    exact ⟨fun other hother => (h other hother).1, fun other hother => (h other hother).2⟩
  · rintro ⟨hevery, htime⟩ other hother
    exact ⟨hevery other hother, htime other hother⟩

/-- A description is accepted exactly if it is well nested. -/
theorem verdict_eq_ok_iff_wellNested {mode : CommitMode} :
    description.verdict mode = .ok () ↔ description.WellNested mode := by
  have hall := description.offenceless_iff mode description.occurrences [] (by simp)
  rw [verdict_eq_ok_iff, WellNested, ← hall, firstOffence?, List.findSome?_eq_none_iff]

end Description

end SettingsLang
