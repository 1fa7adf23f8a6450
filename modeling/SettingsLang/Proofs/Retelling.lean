import SettingsLang.Proofs.Reflection

/-!
What blocks mean does not depend on what their positions are called, nor on levels that stand
aside. Of positions it is only asked which one is around which; of the blocks that come before, or
stand around, only their levels, names, rules and assignments. A level that has been closed again
is not around what follows, and its rules and assignments hold inside it only.
-/

namespace SettingsLang

/-- The block without what is inside it. -/
def Block.emptied : Block → Block
  | .space level name _ => .space level name []
  | block => block

namespace Block

@[simp]
theorem nameOf?_emptied (belongs : Level → Bool) (block : Block) :
    block.emptied.nameOf? belongs = block.nameOf? belongs := by
  cases block <;> rfl

@[simp]
theorem level?_emptied (block : Block) : block.emptied.level? = block.level? := by
  cases block <;> rfl

@[simp]
theorem rule?_emptied (block : Block) : block.emptied.rule? = block.rule? := by
  cases block <;> rfl

@[simp]
theorem isSet_emptied (block : Block) : block.emptied.isSet = block.isSet := by
  cases block <;> rfl

@[simp]
theorem emptied_emptied (block : Block) : block.emptied.emptied = block.emptied := by
  cases block <;> rfl

theorem rule?_of_level? {block : Block} (h : block.level? ≠ none) : block.rule? = none := by
  cases block <;> simp [level?, rule?] at h ⊢

theorem isSet_of_level? {block : Block} (h : block.level? ≠ none) : block.isSet = false := by
  cases block <;> simp [level?, isSet] at h ⊢

end Block

/-- Two lists of blocks say the same about two positions. -/
structure ToldAlike (known : List Occurrence) (inside : Position) (known' : List Occurrence)
    (inside' : Position) : Prop where
  names : ∀ belongs, namesAround belongs known inside = namesAround belongs known' inside'
  level : levelAt? known inside = levelAt? known' inside'
  rules : rulesHolding known inside = rulesHolding known' inside'
  assigned : assignedIn known inside = assignedIn known' inside'

section Alike

variable {before before' : List Occurrence} {occurrence occurrence' : Occurrence}

theorem ToldAlike.place {inside inside' : Position} (h : ToldAlike before inside before' inside') :
    placeText before inside = placeText before' inside' := by
  simp only [placeText, h.names, h.level]

theorem offence?_emptied (mode : CommitMode) (known : List Occurrence) (position : Position)
    (block : Block) :
    (⟨position, block.emptied⟩ : Occurrence).offence? mode known known =
      (⟨position, block⟩ : Occurrence).offence? mode known known := by
  cases block <;> rfl

theorem commands_emptied (mode : CommitMode) (known before : List Occurrence)
    (position : Position) (block : Block) :
    (⟨position, block.emptied⟩ : Occurrence).commands mode known before =
      (⟨position, block⟩ : Occurrence).commands mode known before := by
  cases block with
  | space level name body => cases level <;> rfl
  | rule criterion symbol value => rfl
  | set parameter value => rfl
  | component name => rfl
  | confType name => rfl

theorem offence?_alike (hblock : occurrence.block.emptied = occurrence'.block.emptied)
    (h : ToldAlike before occurrence.parent before' occurrence'.parent) (mode : CommitMode) :
    occurrence.offence? mode before before = occurrence'.offence? mode before' before' := by
  rcases occurrence with ⟨position, block⟩
  rcases occurrence' with ⟨position', block'⟩
  rw [← offence?_emptied mode before position, ← offence?_emptied mode before' position', ← hblock]
  simp only [Occurrence.parent] at h
  simp only [Occurrence.offence?, Occurrence.parent, h.level, h.assigned, h.place]
  rfl

theorem commands_alike (hblock : occurrence.block.emptied = occurrence'.block.emptied)
    (h : ToldAlike before occurrence.parent before' occurrence'.parent)
    {known known' : List Occurrence}
    (hself : ToldAlike known occurrence.position known' occurrence'.position)
    (mode : CommitMode) :
    occurrence.commands mode known before = occurrence'.commands mode known' before' := by
  rcases occurrence with ⟨position, block⟩
  rcases occurrence' with ⟨position', block'⟩
  rw [← commands_emptied mode known before position,
    ← commands_emptied mode known' before' position', ← hblock]
  simp only [Occurrence.parent] at h
  simp only [Occurrence.commands, Occurrence.parent, hself.names, h.assigned, h.rules]
  rfl

/-- Blocks mean the same if the first one is told the same and the others mean the same. -/
theorem meaning_cons_alike (hblock : occurrence.block.emptied = occurrence'.block.emptied)
    (h : ToldAlike before occurrence.parent before' occurrence'.parent)
    (hself : ToldAlike (before ++ [occurrence]) occurrence.position (before' ++ [occurrence'])
      occurrence'.position)
    {mode : CommitMode} {later later' : List Occurrence}
    (hlater : meaning mode (before ++ [occurrence]) later =
      meaning mode (before' ++ [occurrence']) later') :
    meaning mode before (occurrence :: later) = meaning mode before' (occurrence' :: later') := by
  have hoffence := offence?_alike hblock h mode
  cases hcase : occurrence'.offence? mode before' before' with
  | some offence =>
      rw [hcase] at hoffence
      rw [meaning_offence hoffence, meaning_offence hcase]
  | none =>
      rw [hcase] at hoffence
      rw [meaning_cons hoffence, meaning_cons hcase, hlater, commands_alike hblock h hself mode]

end Alike

/-- A map of positions that keeps parents and which position is around which. -/
structure Renames (rename : Position → Position) : Prop where
  parent : ∀ position, (rename position).dropLast = rename position.dropLast
  around : ∀ outer inner, rename outer <+: rename inner ↔ outer <+: inner

/-- The block without its body, at the position under its other name. -/
def Occurrence.renamed (rename : Position → Position) (occurrence : Occurrence) : Occurrence :=
  ⟨rename occurrence.position, occurrence.block.emptied⟩

namespace Renames

variable {rename : Position → Position}

theorem root (h : Renames rename) : rename [] = [] := by
  have hlength := congrArg List.length (h.parent [])
  rw [List.dropLast_nil, List.length_dropLast] at hlength
  apply List.length_eq_zero_iff.mp
  omega

theorem isPrefixOf_eq (h : Renames rename) (outer inner : Position) :
    (rename outer).isPrefixOf (rename inner) = outer.isPrefixOf inner := by
  rw [Bool.eq_iff_iff, List.isPrefixOf_iff_prefix, List.isPrefixOf_iff_prefix]
  exact h.around outer inner

theorem beq_eq (h : Renames rename) (first second : Position) :
    (rename first == rename second) = (first == second) := by
  rw [Bool.eq_iff_iff, beq_iff_eq, beq_iff_eq]
  constructor
  · intro heq
    have hto : first <+: second := (h.around first second).mp (heq ▸ List.prefix_refl _)
    have hfrom : second <+: first := (h.around second first).mp (heq ▸ List.prefix_refl _)
    exact hto.eq_of_length_le hfrom.length_le
  · exact congrArg rename

theorem parent_renamed (h : Renames rename) (occurrence : Occurrence) :
    (occurrence.renamed rename).parent = rename occurrence.parent :=
  h.parent occurrence.position

/-- The renamed blocks say about a position under its other name what the blocks say about it. -/
theorem toldAlike (h : Renames rename) (known : List Occurrence) (inside : Position) :
    ToldAlike known inside (known.map (·.renamed rename)) (rename inside) where
  names belongs := by
    simp only [namesAround, List.filter_map, List.filterMap_map, Function.comp_def,
      Occurrence.renamed, h.isPrefixOf_eq, Block.nameOf?_emptied]
  level := by
    simp only [levelAt?, List.find?_map, Function.comp_def, Occurrence.renamed, h.beq_eq]
    cases known.find? (·.position == inside) with
    | none => rfl
    | some outer => exact outer.block.level?_emptied.symm
  rules := by
    have hroot (position : Position) : (rename position != []) = (position != []) := by
      rw [bne, bne, ← h.beq_eq position [], h.root]
    simp only [rulesHolding, List.filter_map, List.filterMap_map, Function.comp_def,
      h.parent_renamed, hroot, h.isPrefixOf_eq]
    simp only [Occurrence.renamed, Block.rule?_emptied]
  assigned := by
    simp only [assignedIn, List.any_map, Function.comp_def, h.parent_renamed, h.beq_eq]
    simp only [Occurrence.renamed, Block.isSet_emptied]

end Renames

/-- Blocks mean the same under other positions. -/
theorem meaning_renamed {rename : Position → Position} (h : Renames rename) (mode : CommitMode)
    (before later : List Occurrence) :
    meaning mode (before.map (·.renamed rename)) (later.map (·.renamed rename)) =
      meaning mode before later := by
  induction later generalizing before with
  | nil => rfl
  | cons occurrence rest ih =>
      have hrest := ih (before ++ [occurrence])
      have hself := h.toldAlike (before ++ [occurrence]) occurrence.position
      have hparent := h.toldAlike before occurrence.parent
      rw [List.map_append, List.map_singleton] at hrest hself
      rw [← h.parent_renamed] at hparent
      rw [List.map_cons]
      exact (meaning_cons_alike occurrence.block.emptied_emptied.symm hparent hself hrest.symm).symm

mutual

/-- A block at another position is the same block with all inside it under other positions. -/
theorem Block.occurrences_renamed {rename : Position → Position} :
    ∀ (block : Block) {position other : Position},
      (∀ rest, rename (position ++ rest) = other ++ rest) →
      (block.occurrences position).map (·.renamed rename) =
        (block.occurrences other).map (·.renamed id)
  | .space level name body, position, other, h => by
    have hself : rename position = other := by simpa using h []
    rw [occurrences, occurrences, List.map_cons, List.map_cons, occurrencesAll_renamed body 0 h]
    simp only [Occurrence.renamed, hself, id]
  | .rule .., position, other, h
  | .set .., position, other, h
  | .component _, position, other, h
  | .confType _, position, other, h => by
    have hself : rename position = other := by simpa using h []
    simp only [occurrences, List.map_cons, List.map_nil, Occurrence.renamed, hself, id]

theorem Block.occurrencesAll_renamed {rename : Position → Position} :
    ∀ (blocks : List Block) (index : Nat) {around other : Position},
      (∀ rest, rename (around ++ rest) = other ++ rest) →
      (occurrencesAll around index blocks).map (·.renamed rename) =
        (occurrencesAll other index blocks).map (·.renamed id)
  | [], index, around, other, h => rfl
  | block :: rest, index, around, other, h => by
    have hblock (below : Position) :
        rename (around ++ [index] ++ below) = other ++ [index] ++ below := by
      rw [List.append_assoc, h, List.append_assoc]
    rw [occurrencesAll, occurrencesAll, List.map_append, List.map_append,
      occurrences_renamed block hblock, occurrencesAll_renamed rest (index + 1) h]

end

theorem prefix_parent {around position : Position} {place : Nat}
    (h : around ++ [place] <+: position) : around <+: position.dropLast := by
  obtain ⟨rest, rfl⟩ := h
  rw [List.append_assoc, List.dropLast_append_of_ne_nil (by simp)]
  exact List.prefix_append around _

section Aside

variable {block : Block} {place position : Position} {first second : List Occurrence}

/-- Of a level and all inside it only the level itself has its parent outside of it, and that is
neither a rule nor an assignment. -/
theorem inside_of_mem_occurrences (hlevel : block.level? ≠ none) (place : Position) :
    ∀ occurrence ∈ block.occurrences place,
      (occurrence.block.rule? = none ∧ occurrence.block.isSet = false) ∨
        place <+: occurrence.parent := by
  intro occurrence hmem
  rw [block.occurrences_eq] at hmem
  rcases List.mem_cons.mp hmem with rfl | hinside
  · exact Or.inl ⟨Block.rule?_of_level? hlevel, Block.isSet_of_level? hlevel⟩
  · obtain ⟨index, -, hindex⟩ :=
      Block.prefix_of_mem_occurrencesAll block.body place 0 occurrence hinside
    exact Or.inr (prefix_parent hindex)

/-- A level at another place says nothing about a position that is not inside it. -/
theorem toldAlike_aside (hlevel : block.level? ≠ none) (h : ¬ place <+: position) :
    ToldAlike (first ++ block.occurrences place ++ second) position (first ++ second) position := by
  have hnot : ∀ occurrence ∈ block.occurrences place, ¬ occurrence.position <+: position :=
    fun occurrence hmem haround =>
      h ((block.prefix_of_mem_occurrences place occurrence hmem).trans haround)
  have hinside := inside_of_mem_occurrences hlevel place
  constructor
  · intro belongs
    have hnone : (block.occurrences place).filter (·.position.isPrefixOf position) = [] := by
      rw [List.filter_eq_nil_iff]
      intro occurrence hmem
      simpa using hnot occurrence hmem
    simp only [namesAround, List.filter_append, hnone, List.append_nil]
  · have hnone : (block.occurrences place).find? (·.position == position) = none := by
      apply find?_position_eq_none
      intro occurrence hmem heq
      exact hnot occurrence hmem (heq ▸ List.prefix_refl _)
    simp only [levelAt?, List.find?_append, hnone, Option.or_none]
  · have hnone : rulesHolding (block.occurrences place) position = [] := by
      rw [rulesHolding, List.filterMap_eq_nil_iff]
      intro occurrence hmem
      obtain ⟨hpassed, haround⟩ := List.mem_filter.mp hmem
      rw [Bool.and_eq_true, List.isPrefixOf_iff_prefix] at haround
      rcases hinside occurrence hpassed with ⟨hrule, -⟩ | hparent
      · exact hrule
      · exact absurd (hparent.trans haround.2) h
    simp only [rulesHolding_append, hnone, List.append_nil]
  · have hnone : assignedIn (block.occurrences place) position = false := by
      rw [assignedIn, List.any_eq_false]
      intro occurrence hmem hassigned
      rw [Bool.and_eq_true, beq_iff_eq] at hassigned
      rcases hinside occurrence hmem with ⟨-, hset⟩ | hparent
      · rw [hset] at hassigned
        exact Bool.false_ne_true hassigned.2
      · exact h (hassigned.1 ▸ hparent)
    simp only [assignedIn_append, hnone, Bool.or_false]

/-- What is not inside a level means the same without it. -/
theorem meaning_aside (hlevel : block.level? ≠ none) (mode : CommitMode)
    (first second : List Occurrence) {later : List Occurrence}
    (h : ∀ occurrence ∈ later, ¬ place <+: occurrence.position) :
    meaning mode (first ++ block.occurrences place ++ second) later =
      meaning mode (first ++ second) later := by
  induction later generalizing second with
  | nil => rfl
  | cons occurrence rest ih =>
      obtain ⟨hoccurrence, hlater⟩ := List.forall_mem_cons.mp h
      have hparent : ¬ place <+: occurrence.parent := fun haround =>
        hoccurrence (haround.trans (List.dropLast_prefix occurrence.position))
      apply meaning_cons_alike rfl (toldAlike_aside hlevel hparent)
      · rw [List.append_assoc, List.append_assoc first second]
        exact toldAlike_aside hlevel hoccurrence
      · rw [List.append_assoc, List.append_assoc first second]
        exact ih _ hlater

end Aside

end SettingsLang
