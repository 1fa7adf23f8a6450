import Mathlib.Data.List.Forall2
import SettingsLang.Block.Outline
import SettingsLang.Proofs.Occurrence
import SettingsLang.Proofs.Rendering

/-!
What an outline tells. Its lines are the headlines of the blocks in document order, each moved to
the right by four characters for each level of its depth. They tell the tree as well: what is
inside a block are the lines under it that begin with the block's own bar, and the first line
without it is the next block of the same body.
-/

namespace SettingsLang

/-- A tree of texts. -/
inductive LabelTree where
  | node (label : String) (inside : List LabelTree)

namespace Block

mutual

/-- The headline of a block, with the trees of the blocks inside it. -/
def labelTree : Block → LabelTree
  | .space level name body => .node (space level name []).headline (labelTrees body)
  | block => .node block.headline []

def labelTrees : List Block → List LabelTree
  | [] => []
  | block :: rest => labelTree block :: labelTrees rest

end

theorem labelTree_eq (block : Block) :
    block.labelTree = .node block.headline (labelTrees block.body) := by
  cases block <;> simp [labelTree, labelTrees, headline, body]

end Block

/-- Lists are equal in two parts if what marks the first part stops at the second one. -/
theorem append_inj_of_boundary {α : Type} {marks : α → Bool} {first second rest others : List α}
    (hfirst : ∀ entry ∈ first, marks entry = true) (hsecond : ∀ entry ∈ second, marks entry = true)
    (hrest : ∀ entry ∈ rest.head?, marks entry = false)
    (hothers : ∀ entry ∈ others.head?, marks entry = false)
    (h : first ++ rest = second ++ others) : first = second ∧ rest = others := by
  obtain ⟨hfirstTaken, hfirstDropped⟩ := takeWhile_of_stop hfirst hrest
  obtain ⟨hsecondTaken, hsecondDropped⟩ := takeWhile_of_stop hsecond hothers
  rw [← h] at hsecondTaken hsecondDropped
  exact ⟨hfirstTaken.symm.trans hsecondTaken, hfirstDropped.symm.trans hsecondDropped⟩

namespace Outline

theorem length_branch (last : Bool) : (branch last).length = 4 := by
  cases last <;> rfl

theorem length_bar (last : Bool) : (bar last).length = 4 := by
  cases last <;> rfl

theorem branch_injective : Function.Injective branch := by
  intro first second h
  cases first <;> cases second <;> first | rfl | exact absurd h (by decide)

theorem branch_ne_bar (first second : Bool) : branch first ≠ bar second := by
  cases first <;> cases second <;> decide

theorem lines_eq (margin : String) (last : Bool) (block : Block) :
    lines margin last block =
      (margin ++ branch last ++ block.headline) :: linesAll (margin ++ bar last) block.body := by
  cases block <;> simp [lines, linesAll, Block.body, Block.headline]

theorem linesAll_cons (margin : String) (block : Block) (rest : List Block) :
    linesAll margin (block :: rest) =
      (margin ++ branch rest.isEmpty ++ block.headline) ::
        (linesAll (margin ++ bar rest.isEmpty) block.body ++ linesAll margin rest) := by
  rw [linesAll, lines_eq, List.cons_append]

mutual

theorem margin_prefix_lines : ∀ (block : Block) (margin : String) (last : Bool),
    ∀ line ∈ lines margin last block, margin.toList <+: line.toList
  | .space level name body, margin, last, line, hmem => by
    rw [lines] at hmem
    rcases List.mem_cons.mp hmem with rfl | hinside
    · simp only [String.toList_append, List.append_assoc]
      exact List.prefix_append _ _
    · have hmargin := margin_prefix_linesAll body (margin ++ bar last) line hinside
      rw [String.toList_append] at hmargin
      exact (List.prefix_append _ _).trans hmargin
  | .rule .., margin, last, line, hmem
  | .set .., margin, last, line, hmem
  | .component _, margin, last, line, hmem
  | .confType _, margin, last, line, hmem => by
    simp only [lines, List.mem_singleton] at hmem
    subst hmem
    simp only [String.toList_append, List.append_assoc]
    exact List.prefix_append _ _

/-- Every line begins with the margin that is drawn for the blocks around it. -/
theorem margin_prefix_linesAll : ∀ (blocks : List Block) (margin : String),
    ∀ line ∈ linesAll margin blocks, margin.toList <+: line.toList
  | [], margin, line, hmem => by
    cases hmem
  | block :: rest, margin, line, hmem => by
    rw [linesAll] at hmem
    rcases List.mem_append.mp hmem with hfirst | hrest
    · exact margin_prefix_lines block margin rest.isEmpty line hfirst
    · exact margin_prefix_linesAll rest margin line hrest

end

/-- The first line of a body begins with a branch, where those inside its blocks have a bar. -/
theorem head_not_under_bar (margin : String) (last : Bool) (blocks : List Block) :
    ∀ line ∈ (linesAll margin blocks).head?,
      (margin ++ bar last).toList.isPrefixOf line.toList = false := by
  cases blocks with
  | nil => simp [linesAll]
  | cons block rest =>
      rw [linesAll_cons]
      rintro line ⟨⟩
      rw [Bool.eq_false_iff, Ne, List.isPrefixOf_iff_prefix]
      intro hbar
      simp only [String.toList_append, List.append_assoc] at hbar
      have hsame := List.prefix_of_prefix_length_le ((List.prefix_append_right_inj _).mp hbar)
        (List.prefix_append (branch rest.isEmpty).toList _)
        (by simp only [String.length_toList, length_bar, length_branch]; omega)
      have heq := hsame.eq_of_length
        (by simp only [String.length_toList, length_bar, length_branch])
      exact branch_ne_bar rest.isEmpty last (String.toList_inj.mp heq.symm)

/-- Two bodies with the same lines begin with blocks of the same headline that are the last ones of
their bodies or are not. The lines inside these two blocks are the same, and so are the lines of
the blocks that follow. -/
theorem linesAll_cons_inj {margin : String} {block other : Block} {rest others : List Block}
    (h : linesAll margin (block :: rest) = linesAll margin (other :: others)) :
    block.headline = other.headline ∧ rest.isEmpty = others.isEmpty ∧
      linesAll (margin ++ bar rest.isEmpty) block.body =
        linesAll (margin ++ bar rest.isEmpty) other.body ∧
      linesAll margin rest = linesAll margin others := by
  rw [linesAll_cons, linesAll_cons] at h
  obtain ⟨hline, hlater⟩ := List.cons.inj h
  rw [String.append_assoc, String.append_assoc, ← String.toList_inj] at hline
  simp only [String.toList_append, List.append_cancel_left_eq] at hline
  obtain ⟨hbranch, hheadline⟩ := List.append_inj hline
    (by simp only [String.length_toList, length_branch])
  have hlast : rest.isEmpty = others.isEmpty := branch_injective (String.toList_inj.mp hbranch)
  rw [← hlast] at hlater
  have hunder (body : List Block) : ∀ line ∈ linesAll (margin ++ bar rest.isEmpty) body,
      (margin ++ bar rest.isEmpty).toList.isPrefixOf line.toList = true :=
    fun line hmem => List.isPrefixOf_iff_prefix.mpr (margin_prefix_linesAll body _ line hmem)
  obtain ⟨hinside, hrest⟩ := append_inj_of_boundary (hunder block.body) (hunder other.body)
    (head_not_under_bar margin rest.isEmpty rest) (head_not_under_bar margin rest.isEmpty others)
    hlater
  exact ⟨String.toList_inj.mp hheadline, hlast, hinside, hrest⟩

theorem linesAll_eq_nil_iff {margin : String} {blocks : List Block} :
    linesAll margin blocks = [] ↔ blocks = [] := by
  cases blocks with
  | nil => simp [linesAll]
  | cons block rest => simp [linesAll_cons]

mutual

theorem labelTrees_body_of_linesAll : ∀ (block : Block) {other : Block} {margin : String},
    linesAll margin block.body = linesAll margin other.body →
    Block.labelTrees block.body = Block.labelTrees other.body
  | .space level name body, other, margin, h => labelTrees_of_linesAll body h
  | .rule .., other, margin, h
  | .set .., other, margin, h
  | .component _, other, margin, h
  | .confType _, other, margin, h => by
    have hnone : other.body = [] := linesAll_eq_nil_iff.mp (h.symm.trans rfl)
    rw [hnone]
    rfl

/-- Bodies with the same lines under the same margin have the same trees of headlines. -/
theorem labelTrees_of_linesAll : ∀ (blocks : List Block) {others : List Block} {margin : String},
    linesAll margin blocks = linesAll margin others →
    Block.labelTrees blocks = Block.labelTrees others
  | [], others, margin, h => by
    rw [linesAll_eq_nil_iff.mp (h.symm.trans rfl)]
  | block :: rest, [], margin, h => by
    cases linesAll_eq_nil_iff.mp (h.trans rfl)
  | block :: rest, other :: others, margin, h => by
    obtain ⟨hheadline, -, hinside, hrest⟩ := linesAll_cons_inj h
    rw [Block.labelTrees, Block.labelTrees, block.labelTree_eq, other.labelTree_eq, hheadline,
      labelTrees_body_of_linesAll block hinside, labelTrees_of_linesAll rest hrest]

end

end Outline

/-- A line shows a block: a margin of four characters for each level of its depth, and the
headline. -/
def Occurrence.ShownAs (occurrence : Occurrence) (line : String) : Prop :=
  ∃ margin : String, margin.length = 4 * occurrence.position.length ∧ '\n' ∉ margin.toList ∧
    line = margin ++ occurrence.block.headline

/-- Without newlines in the headlines there are none in the lines. -/
theorem lines_lack_of_shown {occurrences : List Occurrence} {lines : List String}
    (hshown : List.Forall₂ Occurrence.ShownAs occurrences lines)
    (h : Lacks '\n' (occurrences.map (·.block.headline))) : Lacks '\n' lines := by
  induction hshown with
  | nil => exact h
  | cons hline hlater ih =>
      obtain ⟨hheadline, hrest⟩ := List.forall_mem_cons.mp h
      obtain ⟨margin, -, hbreak, rfl⟩ := hline
      refine List.forall_mem_cons.mpr ⟨?_, ih hrest⟩
      rw [String.toList_append, List.mem_append, not_or]
      exact ⟨hbreak, hheadline⟩

namespace Outline

theorem not_mem_branch (last : Bool) : '\n' ∉ (branch last).toList := by
  cases last <;> decide

theorem not_mem_bar (last : Bool) : '\n' ∉ (bar last).toList := by
  cases last <;> decide

/-- A block is shown in the line with its headline after the margin and a branch. -/
theorem shownAs_branch {around : Position} {margin : String}
    (hmargin : margin.length = 4 * around.length) (hbreak : '\n' ∉ margin.toList) (index : Nat)
    (block : Block) (last : Bool) :
    (⟨around ++ [index], block⟩ : Occurrence).ShownAs
      (margin ++ branch last ++ block.headline) := by
  refine ⟨margin ++ branch last, ?_, ?_, rfl⟩
  · rw [String.length_append, hmargin, length_branch, List.length_append, List.length_singleton]
    omega
  · rw [String.toList_append, List.mem_append, not_or]
    exact ⟨hbreak, not_mem_branch last⟩

mutual

theorem lines_shown : ∀ (block : Block) {around : Position} {margin : String},
    margin.length = 4 * around.length → '\n' ∉ margin.toList → ∀ (index : Nat) (last : Bool),
    List.Forall₂ Occurrence.ShownAs (block.occurrences (around ++ [index]))
      (lines margin last block)
  | .space level name body, around, margin, hmargin, hbreak, index, last => by
    rw [Block.occurrences, lines]
    refine .cons (shownAs_branch hmargin hbreak index (.space level name body) last) ?_
    apply linesAll_shown body
    · rw [String.length_append, hmargin, length_bar, List.length_append, List.length_singleton]
      omega
    · rw [String.toList_append, List.mem_append, not_or]
      exact ⟨hbreak, not_mem_bar last⟩
  | .rule criterion symbol value, around, margin, hmargin, hbreak, index, last =>
    .cons (shownAs_branch hmargin hbreak index (.rule criterion symbol value) last) .nil
  | .set parameter value, around, margin, hmargin, hbreak, index, last =>
    .cons (shownAs_branch hmargin hbreak index (.set parameter value) last) .nil
  | .component name, around, margin, hmargin, hbreak, index, last =>
    .cons (shownAs_branch hmargin hbreak index (.component name) last) .nil
  | .confType name, around, margin, hmargin, hbreak, index, last =>
    .cons (shownAs_branch hmargin hbreak index (.confType name) last) .nil

/-- The lines show the blocks in document order, one line for each. -/
theorem linesAll_shown : ∀ (blocks : List Block) {around : Position} {margin : String},
    margin.length = 4 * around.length → '\n' ∉ margin.toList → ∀ index : Nat,
    List.Forall₂ Occurrence.ShownAs (Block.occurrencesAll around index blocks)
      (linesAll margin blocks)
  | [], around, margin, hmargin, hbreak, index => .nil
  | block :: rest, around, margin, hmargin, hbreak, index => by
    rw [Block.occurrencesAll, linesAll]
    exact List.rel_append (lines_shown block hmargin hbreak index rest.isEmpty)
      (linesAll_shown rest hmargin hbreak (index + 1))

end

end Outline

namespace Description

/-- The headlines of all blocks of a description, in document order. -/
def headlines (description : Description) : List String :=
  description.occurrences.map (·.block.headline)

theorem lines_shown (description : Description) :
    List.Forall₂ Occurrence.ShownAs description.occurrences (Outline.linesAll "" description) :=
  Outline.linesAll_shown description rfl List.not_mem_nil 0

theorem pieces_outline {description : Description} {root : String}
    (h : Lacks '\n' (root :: description.headlines)) :
    pieces '\n' (description.outline root) =
      (root :: Outline.linesAll "" description).map String.toList ++ [[]] := by
  obtain ⟨hroot, hheadlines⟩ := List.forall_mem_cons.mp h
  have hlines := lines_lack_of_shown description.lines_shown hheadlines
  exact pieces_joinLines (List.forall_mem_cons.mpr ⟨hroot, hlines⟩)

end Description

/-- The outline of a description has a line for its root and then one for each block, in document
order, and it tells the tree: descriptions with the same outline have the same root and the same
tree of headlines. No headline and no root has a newline here, or lines could not be told apart. -/
theorem outline_shows_tree {description : Description} {root : String}
    (h : Lacks '\n' (root :: description.headlines)) :
    (∃ lines, pieces '\n' (description.outline root) =
        (root :: lines).map String.toList ++ [[]] ∧
      List.Forall₂ Occurrence.ShownAs description.occurrences lines) ∧
    ∀ (other : Description) (label : String), Lacks '\n' (label :: other.headlines) →
      description.outline root = other.outline label →
      root = label ∧ Block.labelTrees description = Block.labelTrees other := by
  refine ⟨⟨_, Description.pieces_outline h, description.lines_shown⟩, ?_⟩
  intro other label hother hsame
  have hpieces := congrArg (pieces '\n') hsame
  rw [Description.pieces_outline h, Description.pieces_outline hother] at hpieces
  have hlines := eq_of_map_toList_eq (List.append_cancel_right hpieces)
  obtain ⟨hroot, hblocks⟩ := List.cons.inj hlines
  exact ⟨hroot, Outline.labelTrees_of_linesAll description hblocks⟩

/-- A boolean and the text of it are shown alike, and the trees of headlines are the same. -/
theorem mute_outline_shows_tree :
    let description : Description :=
      [.space .domain "Volume" [.space .conf "Mute" [.set "mute" (.boolean true)]], .component "x"]
    let other : Description :=
      [.space .domain "Volume" [.space .conf "Mute" [.set "mute" (.text "true")]], .component "x"]
    Lacks '\n' ("settings" :: description.headlines) ∧ Lacks '\n' ("settings" :: other.headlines) ∧
      description.outline "settings" = other.outline "settings" ∧
      (∃ lines : List String, lines.length = 4 ∧
        pieces '\n' (description.outline "settings") =
          ("settings" :: lines).map String.toList ++ [[]]) ∧
      Block.labelTrees description = Block.labelTrees other := by
  intro description other
  have hlacks : Lacks '\n' ("settings" :: description.headlines) := by decide
  have hother : Lacks '\n' ("settings" :: other.headlines) := by decide
  have hsame : description.outline "settings" = other.outline "settings" := rfl
  obtain ⟨⟨lines, hpieces, hshown⟩, htells⟩ := outline_shows_tree hlacks
  exact ⟨hlacks, hother, hsame, ⟨lines, hshown.length_eq.symm, hpieces⟩,
    (htells other "settings" hother hsame).2⟩

end SettingsLang
