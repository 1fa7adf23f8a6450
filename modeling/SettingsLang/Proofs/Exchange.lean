import SettingsLang.Proofs.Retelling
import SettingsLang.Proofs.SendingOnce

/-!
Levels that follow one another in a body are independent. With two of them exchanged, the blocks of
the description are the same ones under other positions, those of the two levels in the other
order. Neither level says anything about what is outside of it, so all blocks mean what they meant,
and the commands of the two levels are exchanged with them.
-/

namespace SettingsLang

/-- The same blocks but for two that follow one another and are exchanged: in the body of the block
at a position, or at the root, from an index on. -/
inductive Exchanged (first second : Block) : Position → Nat → List Block → List Block → Prop
  | here (earlier later : List Block) :
    Exchanged first second [] earlier.length (earlier ++ first :: second :: later)
      (earlier ++ second :: first :: later)
  | inside (earlier later : List Block) (level : Level) (name : String) {around : Position}
    {index : Nat} {body exchanged : List Block}
    (h : Exchanged first second around index body exchanged) :
    Exchanged first second (earlier.length :: around) index
      (earlier ++ .space level name body :: later)
      (earlier ++ .space level name exchanged :: later)

/-- A position that is not at or inside one of two siblings. -/
def Apart (around : Position) (index : Nat) (position : Position) : Prop :=
  ¬ around ++ [index] <+: position ∧ ¬ around ++ [index + 1] <+: position

/-- Where a position is when two siblings have been exchanged. -/
def exchangedPosition (around : Position) (index : Nat) (position : Position) : Position :=
  if (around ++ [index]).isPrefixOf position then
    around ++ [index + 1] ++ position.drop (around.length + 1)
  else if (around ++ [index + 1]).isPrefixOf position then
    around ++ [index] ++ position.drop (around.length + 1)
  else position

theorem Apart.of_around {around position : Position} (h : position <+: around) (index : Nat) :
    Apart around index position := by
  have hnot (place : Nat) : ¬ around ++ [place] <+: position := by
    intro hbelow
    have hlength := (hbelow.trans h).length_le
    rw [List.length_append, List.length_singleton] at hlength
    omega
  exact ⟨hnot index, hnot (index + 1)⟩

theorem Apart.of_not_below {outer position : Position} (h : ¬ outer <+: position)
    (around : Position) (index : Nat) : Apart (outer ++ around) index position := by
  have hnot (place : Nat) : ¬ outer ++ around ++ [place] <+: position := by
    intro hbelow
    apply h
    rw [List.append_assoc] at hbelow
    exact (List.prefix_append outer _).trans hbelow
  exact ⟨hnot index, hnot (index + 1)⟩

section Positions

variable (around : Position) (index : Nat)

theorem drop_below (place : Nat) (rest : Position) :
    (around ++ [place] ++ rest).drop (around.length + 1) = rest := by
  rw [List.append_assoc, List.drop_append]
  simp

@[simp]
theorem exchangedPosition_first (rest : Position) :
    exchangedPosition around index (around ++ [index] ++ rest) = around ++ [index + 1] ++ rest := by
  have hfirst : (around ++ [index]).isPrefixOf (around ++ [index] ++ rest) = true :=
    List.isPrefixOf_iff_prefix.mpr (List.prefix_append _ rest)
  rw [exchangedPosition, if_pos hfirst, drop_below]

@[simp]
theorem exchangedPosition_second (rest : Position) :
    exchangedPosition around index (around ++ [index + 1] ++ rest) = around ++ [index] ++ rest := by
  have hsecond : around ++ [index + 1] <+: around ++ [index + 1] ++ rest :=
    List.prefix_append _ rest
  have hfirst : ¬ (around ++ [index]).isPrefixOf (around ++ [index + 1] ++ rest) = true := by
    intro hprefix
    have heq := Block.eq_of_prefix_siblings (List.isPrefixOf_iff_prefix.mp hprefix) hsecond
    omega
  rw [exchangedPosition, if_neg hfirst, if_pos (List.isPrefixOf_iff_prefix.mpr hsecond), drop_below]

theorem exchangedPosition_apart {position : Position} (h : Apart around index position) :
    exchangedPosition around index position = position := by
  have hfirst := h.1
  have hsecond := h.2
  rw [← List.isPrefixOf_iff_prefix] at hfirst hsecond
  rw [exchangedPosition, if_neg hfirst, if_neg hsecond]

theorem position_cases (position : Position) :
    (∃ rest, position = around ++ [index] ++ rest) ∨
      (∃ rest, position = around ++ [index + 1] ++ rest) ∨ Apart around index position := by
  by_cases hfirst : around ++ [index] <+: position
  · obtain ⟨rest, rfl⟩ := hfirst
    exact Or.inl ⟨rest, rfl⟩
  by_cases hsecond : around ++ [index + 1] <+: position
  · obtain ⟨rest, rfl⟩ := hsecond
    exact Or.inr (Or.inl ⟨rest, rfl⟩)
  · exact Or.inr (Or.inr ⟨hfirst, hsecond⟩)

theorem exchangedPosition_twice (position : Position) :
    exchangedPosition around index (exchangedPosition around index position) = position := by
  rcases position_cases around index position with ⟨rest, rfl⟩ | ⟨rest, rfl⟩ | hapart
  · rw [exchangedPosition_first, exchangedPosition_second]
  · rw [exchangedPosition_second, exchangedPosition_first]
  · rw [exchangedPosition_apart around index hapart, exchangedPosition_apart around index hapart]

/-- What is around a sibling and not the sibling is around each other one. -/
theorem prefix_sibling {outer rest : Position} {place : Nat}
    (h : outer <+: around ++ [place] ++ rest) (hnot : ¬ around ++ [place] <+: outer) (other : Nat)
    (rest' : Position) : outer <+: around ++ [other] ++ rest' := by
  have hcases := List.prefix_or_prefix_of_prefix h (List.prefix_append (around ++ [place]) rest)
  have hsibling := hcases.resolve_right hnot
  rw [List.prefix_concat_iff] at hsibling
  rcases hsibling with rfl | haround
  · exact absurd (List.prefix_refl _) hnot
  · rw [List.append_assoc]
    exact haround.trans (List.prefix_append around _)

theorem exchangedPosition_mono {outer inner : Position} (h : outer <+: inner) :
    exchangedPosition around index outer <+: exchangedPosition around index inner := by
  rcases position_cases around index outer with ⟨rest, rfl⟩ | ⟨rest, rfl⟩ | hapart
  · obtain ⟨more, rfl⟩ := h
    rw [List.append_assoc _ rest, exchangedPosition_first, exchangedPosition_first,
      ← List.append_assoc]
    exact List.prefix_append _ more
  · obtain ⟨more, rfl⟩ := h
    rw [List.append_assoc _ rest, exchangedPosition_second, exchangedPosition_second,
      ← List.append_assoc]
    exact List.prefix_append _ more
  · rw [exchangedPosition_apart around index hapart]
    rcases position_cases around index inner with ⟨rest, rfl⟩ | ⟨rest, rfl⟩ | hinner
    · rw [exchangedPosition_first]
      exact prefix_sibling around h hapart.1 (index + 1) rest
    · rw [exchangedPosition_second]
      exact prefix_sibling around h hapart.2 index rest
    · rw [exchangedPosition_apart around index hinner]
      exact h

/-- A sibling that is moved with all inside it keeps its parent, and so does what is inside it. -/
theorem dropLast_moved {rename : Position → Position} {place other : Nat}
    (hmoved : ∀ rest, rename (around ++ [place] ++ rest) = around ++ [other] ++ rest)
    (haround : rename around = around) (rest : Position) :
    (rename (around ++ [place] ++ rest)).dropLast = rename (around ++ [place] ++ rest).dropLast := by
  rw [hmoved]
  by_cases hrest : rest = []
  · simp [hrest, haround]
  · rw [List.dropLast_append_of_ne_nil hrest, List.dropLast_append_of_ne_nil hrest, hmoved]

theorem exchangedPosition_renames : Renames (exchangedPosition around index) where
  around outer inner := by
    constructor
    · intro h
      have hback := exchangedPosition_mono around index h
      rwa [exchangedPosition_twice, exchangedPosition_twice] at hback
    · exact exchangedPosition_mono around index
  parent position := by
    have haround := exchangedPosition_apart around index
      (Apart.of_around (List.prefix_refl around) index)
    rcases position_cases around index position with ⟨rest, rfl⟩ | ⟨rest, rfl⟩ | hapart
    · exact dropLast_moved around (exchangedPosition_first around index) haround rest
    · exact dropLast_moved around (exchangedPosition_second around index) haround rest
    · have hparent : Apart around index position.dropLast :=
        ⟨fun h => hapart.1 (h.trans (List.dropLast_prefix position)),
          fun h => hapart.2 (h.trans (List.dropLast_prefix position))⟩
      rw [exchangedPosition_apart around index hapart, exchangedPosition_apart around index hparent]

end Positions

/-- The positions of the blocks of two exchanged siblings are exchanged, and the other blocks are
the same but for what is inside them. -/
theorem Exchanged.occurrences {first second : Block} {around : Position} {index : Nat}
    {blocks exchanged : List Block} (h : Exchanged first second around index blocks exchanged)
    (base : Position) :
    let place := base ++ around ++ [index]
    let next := base ++ around ++ [index + 1]
    ∃ front back front' back',
      Block.occurrencesAll base 0 blocks =
        front ++ first.occurrences place ++ second.occurrences next ++ back ∧
      Block.occurrencesAll base 0 exchanged =
        front' ++ second.occurrences place ++ first.occurrences next ++ back' ∧
      front.map (·.renamed id) = front'.map (·.renamed id) ∧
      back.map (·.renamed id) = back'.map (·.renamed id) ∧
      ∀ occurrence ∈ front ++ back, Apart (base ++ around) index occurrence.position := by
  induction h generalizing base with
  | here earlier later =>
      refine ⟨Block.occurrencesAll base 0 earlier,
        Block.occurrencesAll base (earlier.length + 2) later, Block.occurrencesAll base 0 earlier,
        Block.occurrencesAll base (earlier.length + 2) later, ?_, ?_, rfl, rfl, ?_⟩
      · simp [Block.occurrencesAll_append, Block.occurrencesAll]
      · simp [Block.occurrencesAll_append, Block.occurrencesAll]
      · rw [List.append_nil]
        intro occurrence hmem
        rcases List.mem_append.mp hmem with hfront | hback
        · constructor
          · exact Block.not_below_of_mem_occurrencesAll (by omega) occurrence hfront
          · exact Block.not_below_of_mem_occurrencesAll (by omega) occurrence hfront
        · constructor
          · exact Block.not_below_of_mem_occurrencesAll (by omega) occurrence hback
          · exact Block.not_below_of_mem_occurrencesAll (by omega) occurrence hback
  | inside earlier later level name hbody ih =>
      rename_i around index body exchanged
      obtain ⟨front, back, front', back', hblocks, hexchanged, hfront, hback, hapart⟩ :=
        ih (base ++ [earlier.length])
      have hbase : base ++ [earlier.length] ++ around = base ++ earlier.length :: around := by simp
      rw [hbase] at hblocks hexchanged hapart
      refine ⟨Block.occurrencesAll base 0 earlier ++
          ⟨base ++ [earlier.length], .space level name body⟩ :: front,
        back ++ Block.occurrencesAll base (earlier.length + 1) later,
        Block.occurrencesAll base 0 earlier ++
          ⟨base ++ [earlier.length], .space level name exchanged⟩ :: front',
        back' ++ Block.occurrencesAll base (earlier.length + 1) later, ?_, ?_, ?_, ?_, ?_⟩
      · simp [Block.occurrencesAll_append, Block.occurrencesAll, Block.occurrences, hblocks]
      · simp [Block.occurrencesAll_append, Block.occurrencesAll, Block.occurrences, hexchanged]
      · simp only [List.map_append, List.map_cons, hfront]
        rfl
      · rw [List.map_append, List.map_append, hback]
      · intro occurrence hmem
        simp only [List.mem_append, List.mem_cons] at hmem hapart
        rcases hmem with (hearlier | rfl | hfront) | hback | hlater
        · rw [← hbase]
          apply Apart.of_not_below
          exact Block.not_below_of_mem_occurrencesAll (by omega) occurrence hearlier
        · rw [← hbase]
          exact .of_around (List.prefix_append _ _) index
        · exact hapart occurrence (Or.inl hfront)
        · exact hapart occurrence (Or.inr hback)
        · rw [← hbase]
          apply Apart.of_not_below
          exact Block.not_below_of_mem_occurrencesAll (by omega) occurrence hlater

/-- A block means the same with and without a level before it in the same body. -/
theorem meaning_sibling {first : Block} (hfirst : first.level? ≠ none) (second : Block)
    (mode : CommitMode) {place other : Nat} (hne : place ≠ other) (around : Position)
    (front : List Occurrence) :
    meaning mode (front ++ first.occurrences (around ++ [place]))
        (second.occurrences (around ++ [other])) =
      meaning mode front (second.occurrences (around ++ [other])) := by
  have haside : ∀ occurrence ∈ second.occurrences (around ++ [other]),
      ¬ around ++ [place] <+: occurrence.position := by
    intro occurrence hmem hbelow
    apply hne
    exact Block.eq_of_prefix_siblings hbelow
      (second.prefix_of_mem_occurrences (around ++ [other]) occurrence hmem)
  have hwithout := meaning_aside hfirst mode front [] haside
  rwa [List.append_nil, List.append_nil] at hwithout

/-- Two sibling levels and what is inside neither of them each mean what they mean after the blocks
before the two. -/
theorem meaning_siblings_iff {first second : Block} (hfirst : first.level? ≠ none)
    (hsecond : second.level? ≠ none) {mode : CommitMode} {around : Position} {place other : Nat}
    (hne : place ≠ other) {front back : List Occurrence}
    (hback : ∀ occurrence ∈ back, ¬ around ++ [place] <+: occurrence.position ∧
      ¬ around ++ [other] <+: occurrence.position) {commands : List Command} :
    let left := first.occurrences (around ++ [place])
    let right := second.occurrences (around ++ [other])
    meaning mode [] (front ++ left ++ right ++ back) = (.ok (), commands) ↔
      ∃ sent sentLeft sentRight after,
        meaning mode [] front = (.ok (), sent) ∧ meaning mode front left = (.ok (), sentLeft) ∧
        meaning mode front right = (.ok (), sentRight) ∧
        meaning mode front back = (.ok (), after) ∧
        commands = sent ++ sentLeft ++ sentRight ++ after := by
  intro left right
  have hright := meaning_sibling hfirst second mode hne around front
  have hafter : meaning mode (front ++ left ++ right) back = meaning mode front back := by
    have hwithoutRight := meaning_aside hsecond mode (front ++ left) []
      fun occurrence hmem => (hback occurrence hmem).2
    have hwithoutLeft := meaning_aside hfirst mode front []
      fun occurrence hmem => (hback occurrence hmem).1
    rw [List.append_nil, List.append_nil] at hwithoutLeft hwithoutRight
    exact hwithoutRight.trans hwithoutLeft
  simp only [meaning_append_eq_ok_iff, List.nil_append, left, right, hright, hafter]
  constructor
  · rintro ⟨_, after, ⟨_, sentRight, ⟨sent, sentLeft, h, hl, rfl⟩, hr, rfl⟩, ha, rfl⟩
    exact ⟨sent, sentLeft, sentRight, after, h, hl, hr, ha, rfl⟩
  · rintro ⟨sent, sentLeft, sentRight, after, h, hl, hr, ha, rfl⟩
    exact ⟨_, after, ⟨_, sentRight, ⟨sent, sentLeft, h, hl, rfl⟩, hr, rfl⟩, ha, rfl⟩

/-- A description with two siblings exchanged means what the original one means with the blocks of
the two in the other order. -/
theorem Exchanged.meaning_eq {first second : Block} {around : Position} {index : Nat}
    {description exchanged : Description}
    (h : Exchanged first second around index description exchanged) (mode : CommitMode) :
    let left := first.occurrences (around ++ [index])
    let right := second.occurrences (around ++ [index + 1])
    ∃ front back, description.occurrences = front ++ left ++ right ++ back ∧
      (∀ occurrence ∈ back, Apart around index occurrence.position) ∧
      meaning mode [] exchanged.occurrences =
        meaning mode [] (front ++ right ++ left ++ back) := by
  intro left right
  obtain ⟨front, back, front', back', hblocks, hexchange, hfront, hback, hapart⟩ :=
    h.occurrences []
  rw [List.nil_append] at hblocks hexchange hapart
  obtain ⟨hapartFront, hapartBack⟩ := List.forall_mem_append.mp hapart
  refine ⟨front, back, hblocks, hapartBack, ?_⟩
  -- blocks that are at neither of the siblings keep their positions
  have hkept {kept shown : List Occurrence}
      (hsame : kept.map (·.renamed id) = shown.map (·.renamed id))
      (hapart : ∀ occurrence ∈ kept, Apart around index occurrence.position) :
      shown.map (·.renamed (exchangedPosition around index)) = kept.map (·.renamed id) := by
    calc shown.map (·.renamed (exchangedPosition around index))
        = (shown.map (·.renamed id)).map (·.renamed (exchangedPosition around index)) := by
          simp [Occurrence.renamed]
      _ = (kept.map (·.renamed id)).map (·.renamed (exchangedPosition around index)) := by
          rw [hsame]
      _ = kept.map (·.renamed (exchangedPosition around index)) := by
          simp [Occurrence.renamed]
      _ = kept.map (·.renamed id) := by
          apply List.map_congr_left
          intro occurrence hmem
          have hsame := exchangedPosition_apart around index (hapart occurrence hmem)
          simp only [Occurrence.renamed, hsame, id]
  have hall : exchanged.occurrences.map (·.renamed (exchangedPosition around index)) =
      (front ++ right ++ left ++ back).map (·.renamed id) := by
    rw [Description.occurrences, hexchange]
    simp only [List.map_append, hkept hfront hapartFront, hkept hback hapartBack,
      Block.occurrences_renamed second (exchangedPosition_first around index),
      Block.occurrences_renamed first (exchangedPosition_second around index), left, right]
  have hid : Renames id := ⟨fun _ => rfl, fun _ _ => Iff.rfl⟩
  calc meaning mode [] exchanged.occurrences
      = meaning mode [] (exchanged.occurrences.map
          (·.renamed (exchangedPosition around index))) :=
        (meaning_renamed (exchangedPosition_renames around index) mode [] _).symm
    _ = meaning mode [] ((front ++ right ++ left ++ back).map (·.renamed id)) := by
        rw [hall]
    _ = meaning mode [] (front ++ right ++ left ++ back) := meaning_renamed hid mode [] _

/-- Two levels that follow one another, in a body or at the root, can be exchanged in a description
that is accepted. The other one is accepted too, and its commands are the same ones but for those
of the two levels, which are exchanged. -/
theorem adjacent_levels_exchange {σ : Type} [Sink σ] (hopen : Sink.RefusesNothing σ)
    {first second : Block} (hfirst : first.level? ≠ none) (hsecond : second.level? ≠ none)
    {around : Position} {index : Nat} {description exchanged : Description}
    (hexchanged : Exchanged first second around index description exchanged) {mode : CommitMode}
    {sink : σ} (hok : (description.evaluate mode sink).1 = .ok ()) :
    let place := around ++ [index]
    let next := around ++ [index + 1]
    let sentBefore := (description.before place).flatMap (description.commandsOf mode)
    let sentFirst := (first.occurrences place).flatMap (description.commandsOf mode)
    let sentSecond := (second.occurrences next).flatMap (description.commandsOf mode)
    (exchanged.evaluate mode sink).1 = .ok () ∧
      ∃ sentAfter,
        description.sent mode = sentBefore ++ sentFirst ++ sentSecond ++ sentAfter ∧
        exchanged.sent mode = sentBefore ++ sentSecond ++ sentFirst ++ sentAfter ∧
        (description.sent mode).foldlM Sink.accept sink =
          .ok (description.evaluate mode sink).2.sink ∧
        (exchanged.sent mode).foldlM Sink.accept sink =
          .ok (exchanged.evaluate mode sink).2.sink := by
  intro place next sentBefore sentFirst sentSecond
  have hne : index ≠ index + 1 := by omega
  obtain ⟨front, back, hsplit, hapart, hmeaning⟩ := hexchanged.meaning_eq mode
  have haccepted := (Description.meaning_eq_ok_iff hopen sink).mpr ⟨hok, rfl⟩
  rw [hsplit] at haccepted
  obtain ⟨sent, sentLeft, sentRight, sentAfter, hfront, hleft, hright, hback, hsent⟩ :=
    (meaning_siblings_iff hfirst hsecond hne hapart).mp haccepted
  have hexchangedBack : ∀ occurrence ∈ back, ¬ next <+: occurrence.position ∧
      ¬ place <+: occurrence.position :=
    fun occurrence hmem => (hapart occurrence hmem).symm
  have hother := (meaning_siblings_iff hsecond hfirst hne.symm hexchangedBack).mpr
    ⟨sent, sentRight, sentLeft, sentAfter, hfront, hright, hleft, hback, rfl⟩
  rw [← hmeaning] at hother
  obtain ⟨hok', hsent'⟩ := (Description.meaning_eq_ok_iff hopen sink).mp hother
  -- the commands of the parts are those that the original description says
  have hbefore : sent = sentBefore := by
    have hplace : description.before place = front := by
      rw [first.occurrences_eq, List.append_assoc, List.append_assoc, List.cons_append] at hsplit
      exact Description.before_eq hsplit
    rw [List.append_assoc, List.append_assoc, ← List.nil_append front] at hsplit
    rw [Description.commandsOf_of_meaning hsplit hfront, ← hplace]
  have hfirstSent : sentLeft = sentFirst := by
    rw [List.append_assoc] at hsplit
    exact Description.commandsOf_of_meaning hsplit hleft
  have hsecondSent : sentRight = sentSecond := by
    rw [← meaning_sibling hfirst second mode hne around front] at hright
    exact Description.commandsOf_of_meaning hsplit hright
  rw [hbefore, hfirstSent, hsecondSent] at hsent hsent'
  exact ⟨hok', sentAfter, hsent, hsent', description.sent_accepted hopen mode sink,
    exchanged.sent_accepted hopen mode sink⟩

/-- Two domains of a group are exchanged. The rule of the group reaches both, and the rule of one of
them stays in it. -/
theorem volume_exchanged_with_balance :
    let volume : Block := .space .domain "Volume"
      [.space .conf "Loud" [.rule "Device" "is" (.text "Speaker"), .set "gain" (.text "3")]]
    let balance : Block := .space .domain "Balance" [.space .conf "Loud" [.set "pan" (.text "0")]]
    let mode : Block := .rule "Mode" "is" (.text "Normal")
    let description : Description := [.space .domainGroup "Audio" [mode, volume, balance]]
    let exchanged : Description := [.space .domainGroup "Audio" [mode, balance, volume]]
    let loud : NamePath := ⟨["Loud"]⟩
    let volumeSent : List Command :=
      [.createDomain ⟨["Audio", "Volume"]⟩, .createConfiguration ⟨["Audio", "Volume"]⟩ loud,
        .setRule ⟨["Audio", "Volume"]⟩ loud
          ⟨[⟨"Mode", .is, "Normal"⟩, ⟨"Device", .is, "Speaker"⟩]⟩,
        .setParameter ⟨["Audio", "Volume"]⟩ loud "gain" "3"]
    let balanceSent : List Command :=
      [.createDomain ⟨["Audio", "Balance"]⟩, .createConfiguration ⟨["Audio", "Balance"]⟩ loud,
        .setRule ⟨["Audio", "Balance"]⟩ loud ⟨[⟨"Mode", .is, "Normal"⟩]⟩,
        .setParameter ⟨["Audio", "Balance"]⟩ loud "pan" "0"]
    Sink.RefusesNothing CommandLog ∧ volume.level? ≠ none ∧ balance.level? ≠ none ∧
      Exchanged volume balance [0] 1 description exchanged ∧
      (description.evaluate .once CommandLog.empty).1 = .ok () ∧
      (exchanged.evaluate .once CommandLog.empty).1 = .ok () ∧
      description.sent .once = volumeSent ++ balanceSent ∧
      exchanged.sent .once = balanceSent ++ volumeSent := by
  intro volume balance mode description exchanged loud volumeSent balanceSent
  have hvolume : volume.level? ≠ none := Option.some_ne_none _
  have hbalance : balance.level? ≠ none := Option.some_ne_none _
  have hexchanged : Exchanged volume balance [0] 1 description exchanged :=
    .inside [] [] .domainGroup "Audio" (.here [mode] [])
  have hmeaning : meaning .once [] description.occurrences =
      (.ok (), volumeSent ++ balanceSent) := rfl
  obtain ⟨hok, hall⟩ :=
    (Description.meaning_eq_ok_iff CommandLog.refusesNothing CommandLog.empty).mp hmeaning
  obtain ⟨hok', sentAfter, hsent, hsent', -⟩ := adjacent_levels_exchange CommandLog.refusesNothing
    hvolume hbalance hexchanged hok
  have hbefore : (description.before [0, 1]).flatMap (description.commandsOf .once) = [] := by
    decide
  have hfirst : (volume.occurrences [0, 1]).flatMap (description.commandsOf .once) =
      volumeSent := by
    decide
  have hsecond : (balance.occurrences [0, 2]).flatMap (description.commandsOf .once) =
      balanceSent := by
    decide
  have hafter : sentAfter = [] := by
    simpa [hall, hbefore, hfirst, hsecond] using hsent
  refine ⟨CommandLog.refusesNothing, hvolume, hbalance, hexchanged, hok, hok', hall, ?_⟩
  simpa [hbefore, hfirst, hsecond, hafter] using hsent'

end SettingsLang
