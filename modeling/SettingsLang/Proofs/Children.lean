import SettingsLang.Proofs.Reflection

/-!
Bodies read off positions. The blocks whose parent is the position of a block are, in document
order, the body of that block. What is said of siblings by position can so be said of bodies.
-/

namespace SettingsLang

namespace Block

/-- Of a block and all inside it only the block itself has its place as parent. -/
theorem occurrences_filter_parent (block : Block) (around : Position) (index : Nat) :
    (block.occurrences (around ++ [index])).filter (·.parent == around) =
      [⟨around ++ [index], block⟩] := by
  have hinside : (occurrencesAll (around ++ [index]) 0 block.body).filter
      (·.parent == around) = [] := by
    rw [List.filter_eq_nil_iff]
    intro occurrence hmem heq
    apply parent_not_around block around index occurrence hmem
    exact eq_of_beq heq ▸ List.prefix_refl _
  rw [block.occurrences_eq, List.filter_cons, hinside]
  simp

/-- The blocks directly in the place of a list of siblings are these siblings. -/
theorem siblings_eq (blocks : List Block) (around : Position) (index : Nat) :
    ((occurrencesAll around index blocks).filter (·.parent == around)).map (·.block) =
      blocks := by
  induction blocks generalizing index with
  | nil => rfl
  | cons block rest ih =>
      rw [occurrencesAll, List.filter_append, List.map_append, ih (index + 1),
        occurrences_filter_parent]
      rfl

/-- Nothing at or inside one sibling has its parent at or inside another one. -/
theorem filter_parent_eq_nil {around position : Position} {index : Nat}
    {known : List Occurrence} (hbelow : around ++ [index] <+: position)
    (hknown : ∀ occurrence ∈ known, ∃ place, place ≠ index ∧
      around ++ [place] <+: occurrence.position) :
    known.filter (·.parent == position) = [] := by
  rw [List.filter_eq_nil_iff]
  intro occurrence hmem heq
  obtain ⟨place, hne, hplace⟩ := hknown occurrence hmem
  have hparent : position <+: occurrence.position :=
    eq_of_beq heq ▸ List.dropLast_prefix occurrence.position
  exact hne (eq_of_prefix_siblings hplace (hbelow.trans hparent))

mutual

theorem children_occurrences : ∀ (block : Block) (around : Position) (index : Nat),
    ∀ occurrence ∈ block.occurrences (around ++ [index]),
      ((block.occurrences (around ++ [index])).filter (·.parent == occurrence.position)).map
        (·.block) = occurrence.block.body
  | .space level name body, around, index, occurrence, hmem => by
    -- the block's own parent is around it, so the block is no child of itself or of one inside it
    have hself (position : Position) (hbelow : around ++ [index] <+: position) :
        around ≠ position := by
      rintro rfl
      have hlength := hbelow.length_le
      rw [List.length_append, List.length_singleton] at hlength
      omega
    rw [occurrences] at hmem ⊢
    rcases List.mem_cons.mp hmem with rfl | hinside
    · rw [List.filter_cons_of_neg (by simp [hself _ (List.prefix_refl _)])]
      exact siblings_eq body (around ++ [index]) 0
    · obtain ⟨place, -, hplace⟩ :=
        prefix_of_mem_occurrencesAll body (around ++ [index]) 0 occurrence hinside
      have hbelow := (List.prefix_append (around ++ [index]) [place]).trans hplace
      rw [List.filter_cons_of_neg (by simp [hself _ hbelow])]
      exact children_occurrencesAll body (around ++ [index]) 0 occurrence hinside
  | .rule .., around, index, occurrence, hmem
  | .set .., around, index, occurrence, hmem
  | .component _, around, index, occurrence, hmem
  | .confType _, around, index, occurrence, hmem => by
    simp only [occurrences, List.mem_singleton] at hmem ⊢
    subst hmem
    simp [body]

/-- The blocks directly inside a block are, in document order, its body. -/
theorem children_occurrencesAll : ∀ (blocks : List Block) (around : Position) (index : Nat),
    ∀ occurrence ∈ occurrencesAll around index blocks,
      ((occurrencesAll around index blocks).filter (·.parent == occurrence.position)).map
        (·.block) = occurrence.block.body
  | [], around, index, occurrence, hmem => by
    simp [occurrencesAll] at hmem
  | block :: rest, around, index, occurrence, hmem => by
    rw [occurrencesAll] at hmem ⊢
    rw [List.filter_append]
    rcases List.mem_append.mp hmem with hfirst | hrest
    · have hnone : (occurrencesAll around (index + 1) rest).filter
          (·.parent == occurrence.position) = [] := by
        refine filter_parent_eq_nil
          (block.prefix_of_mem_occurrences (around ++ [index]) occurrence hfirst) ?_
        intro other hother
        obtain ⟨place, hle, hplace⟩ :=
          prefix_of_mem_occurrencesAll rest around (index + 1) other hother
        exact ⟨place, by omega, hplace⟩
      rw [hnone, List.append_nil]
      exact children_occurrences block around index occurrence hfirst
    · obtain ⟨place, hle, hplace⟩ :=
        prefix_of_mem_occurrencesAll rest around (index + 1) occurrence hrest
      have hnone : (block.occurrences (around ++ [index])).filter
          (·.parent == occurrence.position) = [] := by
        refine filter_parent_eq_nil hplace ?_
        intro other hother
        exact ⟨index, by omega,
          block.prefix_of_mem_occurrences (around ++ [index]) other hother⟩
      rw [hnone, List.nil_append]
      exact children_occurrencesAll rest around (index + 1) occurrence hrest

end

end Block

/-- In a description, the blocks directly inside a block are its body. -/
theorem Description.children_eq {description : Description} {occurrence : Occurrence}
    (h : occurrence ∈ description.occurrences) :
    (description.occurrences.filter (·.parent == occurrence.position)).map (·.block) =
      occurrence.block.body :=
  Block.children_occurrencesAll description [] 0 occurrence h

end SettingsLang
