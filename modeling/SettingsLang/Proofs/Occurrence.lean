import SettingsLang.Block

/-!
The blocks of a description with the positions where they stand. A position lists the index at
each depth, outermost first; the blocks are listed in document order, each before those inside it.
A block inside another one has the other's position as the start of its own, and no two blocks
have the same position.
-/

namespace SettingsLang

/-- Where a block stands: an index for each depth, outermost first. -/
abbrev Position := List Nat

/-- A block of a description and where it stands. -/
structure Occurrence where
  position : Position
  block : Block

/-- The position of the block directly around; at the root it is empty. -/
def Occurrence.parent (occurrence : Occurrence) : Position :=
  occurrence.position.dropLast

@[simp]
theorem Occurrence.parent_snoc (around : Position) (index : Nat) (block : Block) :
    (⟨around ++ [index], block⟩ : Occurrence).parent = around := by
  simp [parent]

theorem ne_of_not_around {around position : Position} (h : ¬ around <+: position) :
    position ≠ around := by
  rintro rfl
  exact h (List.prefix_refl position)

theorem find?_position_eq_none {known : List Occurrence} {position : Position}
    (h : ∀ occurrence ∈ known, occurrence.position ≠ position) :
    known.find? (·.position == position) = none := by
  rw [List.find?_eq_none]
  intro occurrence hmem heq
  exact h occurrence hmem (eq_of_beq heq)

namespace Block

mutual

/-- A block at a position and all blocks inside it, in document order. -/
def occurrences (position : Position) : Block → List Occurrence
  | .space level name body =>
    ⟨position, .space level name body⟩ :: occurrencesAll position 0 body
  | block => [⟨position, block⟩]

/-- Sibling blocks, the first of which has the given index, and all blocks inside them, in document
order. -/
def occurrencesAll (around : Position) (index : Nat) : List Block → List Occurrence
  | [] => []
  | block :: rest =>
    occurrences (around ++ [index]) block ++ occurrencesAll around (index + 1) rest

end

end Block

namespace Description

/-- All blocks of a description, in document order. -/
def occurrences (description : Description) : List Occurrence :=
  Block.occurrencesAll [] 0 description

/-- The blocks that come before a position in document order. -/
def before (description : Description) (position : Position) : List Occurrence :=
  description.occurrences.takeWhile (·.position != position)

end Description

namespace Block

mutual

theorem prefix_of_mem_occurrences : ∀ (block : Block) (position : Position),
    ∀ occurrence ∈ block.occurrences position, position <+: occurrence.position
  | .space level name body, position, occurrence, hmem => by
    rw [occurrences] at hmem
    rcases List.mem_cons.mp hmem with rfl | hinside
    · exact List.prefix_refl position
    · obtain ⟨index, -, hindex⟩ := prefix_of_mem_occurrencesAll body position 0 occurrence hinside
      exact (List.prefix_append position [index]).trans hindex
  | .rule .., position, occurrence, hmem
  | .set .., position, occurrence, hmem
  | .component _, position, occurrence, hmem
  | .confType _, position, occurrence, hmem => by
    simp only [occurrences, List.mem_singleton] at hmem
    subst hmem
    exact List.prefix_refl position

/-- Everything in a body stands at or below an index of the body. -/
theorem prefix_of_mem_occurrencesAll : ∀ (blocks : List Block) (around : Position) (index : Nat),
    ∀ occurrence ∈ occurrencesAll around index blocks,
      ∃ place, index ≤ place ∧ around ++ [place] <+: occurrence.position
  | [], around, index, occurrence, hmem => by
    simp [occurrencesAll] at hmem
  | block :: rest, around, index, occurrence, hmem => by
    rw [occurrencesAll] at hmem
    rcases List.mem_append.mp hmem with hfirst | hrest
    · exact ⟨index, Nat.le_refl index,
        prefix_of_mem_occurrences block (around ++ [index]) occurrence hfirst⟩
    · obtain ⟨place, hle, hprefix⟩ :=
        prefix_of_mem_occurrencesAll rest around (index + 1) occurrence hrest
      exact ⟨place, by omega, hprefix⟩

end

theorem eq_of_prefix_siblings {around position : Position} {first second : Nat}
    (hfirst : around ++ [first] <+: position) (hsecond : around ++ [second] <+: position) :
    first = second := by
  have hsame := List.prefix_of_prefix_length_le hfirst hsecond (by simp)
  have heq := hsame.eq_of_length (by simp)
  simpa using heq

theorem occurrencesAll_append (around : Position) (index : Nat) (first second : List Block) :
    occurrencesAll around index (first ++ second) =
      occurrencesAll around index first ++ occurrencesAll around (index + first.length) second := by
  induction first generalizing index with
  | nil => simp [occurrencesAll]
  | cons block rest ih =>
      have hindex : index + 1 + rest.length = index + (block :: rest).length := by
        rw [List.length_cons]
        omega
      rw [List.cons_append, occurrencesAll, occurrencesAll, ih (index + 1), List.append_assoc,
        hindex]

/-- Nothing in a body stands at or inside an index that the body does not have. -/
theorem not_below_of_mem_occurrencesAll {blocks : List Block} {around : Position}
    {index place : Nat} (hplace : place < index ∨ index + blocks.length ≤ place) :
    ∀ occurrence ∈ occurrencesAll around index blocks,
      ¬ around ++ [place] <+: occurrence.position := by
  induction blocks generalizing index with
  | nil => simp [occurrencesAll]
  | cons block rest ih =>
      rw [List.length_cons] at hplace
      rw [occurrencesAll]
      intro occurrence hmem hbelow
      rcases List.mem_append.mp hmem with hfirst | hrest
      · have hown := block.prefix_of_mem_occurrences (around ++ [index]) occurrence hfirst
        have heq := eq_of_prefix_siblings hown hbelow
        omega
      · exact ih (by omega) occurrence hrest hbelow

mutual

theorem occurrences_ordered : ∀ (block : Block) (position : Position),
    (block.occurrences position).Pairwise
      fun earlier later => ¬ later.position <+: earlier.position
  | .space level name body, position => by
    rw [occurrences, List.pairwise_cons]
    refine ⟨?_, occurrencesAll_ordered body position 0⟩
    intro inside hmem hbelow
    obtain ⟨index, -, hindex⟩ := prefix_of_mem_occurrencesAll body position 0 inside hmem
    have hlength := (hindex.trans hbelow).length_le
    rw [List.length_append, List.length_singleton] at hlength
    dsimp only at hlength
    omega
  | .rule .., position
  | .set .., position
  | .component _, position
  | .confType _, position => by
    simp only [occurrences]
    exact List.pairwise_singleton _ _

/-- What comes later in document order does not stand around what comes earlier. -/
theorem occurrencesAll_ordered : ∀ (blocks : List Block) (around : Position) (index : Nat),
    (occurrencesAll around index blocks).Pairwise
      fun earlier later => ¬ later.position <+: earlier.position
  | [], around, index => by
    rw [occurrencesAll]
    exact List.Pairwise.nil
  | block :: rest, around, index => by
    rw [occurrencesAll, List.pairwise_append]
    refine ⟨occurrences_ordered block (around ++ [index]),
      occurrencesAll_ordered rest around (index + 1), ?_⟩
    intro first hfirst second hsecond haround
    have hbelow := prefix_of_mem_occurrences block (around ++ [index]) first hfirst
    obtain ⟨other, hle, hother⟩ :=
      prefix_of_mem_occurrencesAll rest around (index + 1) second hsecond
    have hindex := eq_of_prefix_siblings hbelow (hother.trans haround)
    omega

end

mutual

theorem parent_of_mem_occurrences : ∀ (block : Block) (position : Position),
    ∀ occurrence ∈ block.occurrences position, occurrence.position = position ∨
      ∃ outer ∈ block.occurrences position, outer.position = occurrence.parent ∧
        ∃ level name body, outer.block = .space level name body
  | .space level name body, position, occurrence, hmem => by
    rw [occurrences] at hmem ⊢
    rcases List.mem_cons.mp hmem with rfl | hinside
    · exact Or.inl rfl
    · right
      rcases parent_of_mem_occurrencesAll body position 0 occurrence hinside with
        hparent | ⟨outer, houter, hposition, hspace⟩
      · exact ⟨_, List.mem_cons_self, hparent.symm, level, name, body, rfl⟩
      · exact ⟨outer, List.mem_cons_of_mem _ houter, hposition, hspace⟩
  | .rule .., position, occurrence, hmem
  | .set .., position, occurrence, hmem
  | .component _, position, occurrence, hmem
  | .confType _, position, occurrence, hmem => by
    simp only [occurrences, List.mem_singleton] at hmem
    exact Or.inl (by rw [hmem])

/-- A block stands directly in the place where its siblings do, or in one of the levels there. -/
theorem parent_of_mem_occurrencesAll : ∀ (blocks : List Block) (around : Position) (index : Nat),
    ∀ occurrence ∈ occurrencesAll around index blocks, occurrence.parent = around ∨
      ∃ outer ∈ occurrencesAll around index blocks, outer.position = occurrence.parent ∧
        ∃ level name body, outer.block = .space level name body
  | [], around, index, occurrence, hmem => by
    simp [occurrencesAll] at hmem
  | block :: rest, around, index, occurrence, hmem => by
    rw [occurrencesAll] at hmem ⊢
    rcases List.mem_append.mp hmem with hfirst | hrest
    · rcases parent_of_mem_occurrences block (around ++ [index]) occurrence hfirst with
        hself | ⟨outer, houter, hspace⟩
      · left
        rw [Occurrence.parent, hself, List.dropLast_concat]
      · exact Or.inr ⟨outer, List.mem_append_left _ houter, hspace⟩
    · rcases parent_of_mem_occurrencesAll rest around (index + 1) occurrence hrest with
        hparent | ⟨outer, houter, hspace⟩
      · exact Or.inl hparent
      · exact Or.inr ⟨outer, List.mem_append_right _ houter, hspace⟩

end

end Block

namespace Description

variable {description : Description} {earlier later : List Occurrence} {occurrence : Occurrence}

theorem position_ne_nil (h : occurrence ∈ description.occurrences) :
    occurrence.position ≠ [] := by
  obtain ⟨index, -, hindex⟩ := Block.prefix_of_mem_occurrencesAll description [] 0 occurrence h
  intro hempty
  simp [hempty] at hindex

theorem not_prefix_of_later (h : description.occurrences = earlier ++ occurrence :: later) :
    (∀ other ∈ earlier, ¬ occurrence.position <+: other.position) ∧
      ∀ other ∈ later, ¬ other.position <+: occurrence.position := by
  have hordered : description.occurrences.Pairwise
      fun earlier later => ¬ later.position <+: earlier.position :=
    Block.occurrencesAll_ordered description [] 0
  rw [h, List.pairwise_append, List.pairwise_cons] at hordered
  exact ⟨fun other hother => hordered.2.2 other hother occurrence List.mem_cons_self,
    hordered.2.1.1⟩

theorem before_eq (h : description.occurrences = earlier ++ occurrence :: later) :
    description.before occurrence.position = earlier := by
  rw [before, h, List.takeWhile_append_of_pos]
  · simp
  · intro other hother
    rw [bne_iff_ne]
    exact ne_of_not_around ((not_prefix_of_later h).1 other hother)

end Description

end SettingsLang
