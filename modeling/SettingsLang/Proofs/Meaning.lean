import Mathlib.Data.List.TakeWhile
import SettingsLang.Proofs.Simulation

/-!
The meaning of a description, told from the whole tree: what stands around a block, which rules come
before it, and whether an earlier sibling is an assignment. Evaluation sends exactly the commands
that the blocks stand for, in document order, up to the first block with an offence.
-/

namespace SettingsLang

namespace Description

/-- The commands that a block of a description stands for. -/
def commandsOf (description : Description) (mode : CommitMode) (occurrence : Occurrence) :
    List Command :=
  occurrence.commands mode description.occurrences (description.before occurrence.position)

/-- The offence of a block of a description, if it has one. -/
def offenceOf? (description : Description) (mode : CommitMode) (occurrence : Occurrence) :
    Option Offence :=
  occurrence.offence? mode description.occurrences (description.before occurrence.position)

/-- The blocks before the first one with an offence; all blocks if there is none. -/
def faultless (description : Description) (mode : CommitMode) : List Occurrence :=
  description.occurrences.takeWhile fun occurrence =>
    (description.offenceOf? mode occurrence).isNone

/-- The offence of the first block that has one. -/
def firstOffence? (description : Description) (mode : CommitMode) : Option Offence :=
  description.occurrences.findSome? (description.offenceOf? mode)

/-- How a description ends that sends its commands to a sink that refuses none. -/
def verdict (description : Description) (mode : CommitMode) : Except Failure Unit :=
  match description.firstOffence? mode with
  | none => .ok ()
  | some offence => .error (.language offence)

section Known

variable {description : Description} {earlier later : List Occurrence} {occurrence : Occurrence}
  (h : description.occurrences = earlier ++ occurrence :: later)

include h

theorem not_around_parent : ∀ other ∈ occurrence :: later,
    ¬ other.position <+: occurrence.parent := by
  intro other hmem hparent
  rcases List.mem_cons.mp hmem with rfl | hlater
  · have hbelow : other ∈ description.occurrences := by simp [h]
    have hpositive := List.length_pos_iff.mpr (position_ne_nil hbelow)
    have hlength := hparent.length_le
    rw [Occurrence.parent, List.length_dropLast] at hlength
    omega
  · exact (not_prefix_of_later h).2 other hlater
      (hparent.trans (List.dropLast_prefix occurrence.position))

theorem namesAround_self (belongs : Level → Bool) :
    namesAround belongs description.occurrences occurrence.position =
      namesAround belongs (earlier ++ [occurrence]) occurrence.position := by
  have hnone : later.filter (·.position.isPrefixOf occurrence.position) = [] := by
    rw [List.filter_eq_nil_iff]
    intro other hother
    simpa using (not_prefix_of_later h).2 other hother
  have hsplit : description.occurrences = earlier ++ [occurrence] ++ later := by simp [h]
  rw [hsplit, namesAround, namesAround, List.filter_append, hnone, List.append_nil]

theorem namesAround_parent (belongs : Level → Bool) :
    namesAround belongs description.occurrences occurrence.parent =
      namesAround belongs earlier occurrence.parent := by
  have hnone : (occurrence :: later).filter (·.position.isPrefixOf occurrence.parent) = [] := by
    rw [List.filter_eq_nil_iff]
    intro other hother
    simpa using not_around_parent h other hother
  rw [h, namesAround, namesAround, List.filter_append, hnone, List.append_nil]

theorem levelAt?_parent :
    levelAt? description.occurrences occurrence.parent =
      levelAt? earlier occurrence.parent := by
  have hnone : (occurrence :: later).find? (·.position == occurrence.parent) = none := by
    apply find?_position_eq_none
    intro other hother heq
    exact not_around_parent h other hother (heq ▸ List.prefix_refl _)
  rw [h, levelAt?, levelAt?, List.find?_append, hnone, Option.or_none]

theorem placeText_parent :
    placeText description.occurrences occurrence.parent =
      placeText earlier occurrence.parent := by
  rw [placeText, placeText, levelAt?_parent h, namesAround_parent h, namesAround_parent h]

/-- The whole tree says about a block's commands what the blocks up to it say. -/
theorem commandsOf_eq (mode : CommitMode) :
    description.commandsOf mode occurrence =
      occurrence.commands mode (earlier ++ [occurrence]) earlier := by
  rw [commandsOf, before_eq h]
  simp only [Occurrence.commands, namesAround_self h]

theorem offenceOf?_eq (mode : CommitMode) :
    description.offenceOf? mode occurrence = occurrence.offence? mode earlier earlier := by
  rw [offenceOf?, before_eq h, Occurrence.offence?, Occurrence.offence?, levelAt?_parent h,
    placeText_parent h]

end Known

theorem meaning_suffix (description : Description) (mode : CommitMode) :
    ∀ (rest earlier : List Occurrence), description.occurrences = earlier ++ rest →
      meaning mode earlier rest =
        (match rest.findSome? (description.offenceOf? mode) with
          | none => .ok ()
          | some offence => .error (.language offence),
        (rest.takeWhile fun occurrence =>
          (description.offenceOf? mode occurrence).isNone).flatMap
            (description.commandsOf mode)) := by
  intro rest
  induction rest with
  | nil =>
      intro earlier _
      rfl
  | cons occurrence later ih =>
      intro earlier h
      have hoffence := offenceOf?_eq h mode
      cases hcase : occurrence.offence? mode earlier earlier with
      | some offence =>
          rw [hcase] at hoffence
          rw [meaning_offence hcase]
          simp [hoffence]
      | none =>
          rw [hcase] at hoffence
          have hlater := ih (earlier ++ [occurrence]) (by simp [h])
          rw [meaning_cons hcase, hlater, ← commandsOf_eq h mode]
          simp [hoffence]

theorem meaning_eq (description : Description) (mode : CommitMode) :
    meaning mode [] description.occurrences =
      (description.verdict mode,
        (description.faultless mode).flatMap (description.commandsOf mode)) :=
  description.meaning_suffix mode description.occurrences [] rfl

/-- What blocks of a description mean in their place are the commands that they stand for. -/
theorem commandsOf_of_meaning {description : Description} {mode : CommitMode}
    {earlier passed later : List Occurrence} {commands : List Command}
    (hsplit : description.occurrences = earlier ++ passed ++ later)
    (h : meaning mode earlier passed = (.ok (), commands)) :
    commands = passed.flatMap (description.commandsOf mode) := by
  induction passed generalizing earlier commands with
  | nil =>
      cases h
      rfl
  | cons occurrence rest ih =>
      have hoccurrence : description.occurrences = earlier ++ occurrence :: (rest ++ later) := by
        simpa using hsplit
      cases hoffence : occurrence.offence? mode earlier earlier with
      | some offence =>
          rw [meaning_offence hoffence] at h
          cases h
      | none =>
          rw [meaning_cons hoffence] at h
          obtain ⟨hresult, rfl⟩ := Prod.mk.inj h
          have hlater : description.occurrences = earlier ++ [occurrence] ++ rest ++ later := by
            simpa using hsplit
          have hrest := ih hlater (Prod.ext hresult rfl)
          rw [List.flatMap_cons, ← hrest, commandsOf_eq hoccurrence mode]

theorem faultless_eq_iff (description : Description) (mode : CommitMode) :
    description.faultless mode = description.occurrences ↔
      description.firstOffence? mode = none := by
  rw [faultless, firstOffence?, List.takeWhile_eq_self_iff, List.findSome?_eq_none_iff]
  simp only [Option.isNone_iff_eq_none]

theorem verdict_eq_ok_iff (description : Description) (mode : CommitMode) :
    description.verdict mode = .ok () ↔ description.firstOffence? mode = none := by
  rw [verdict]
  cases description.firstOffence? mode <;> simp

theorem verdict_eq_error_iff (description : Description) (mode : CommitMode)
    (failure : Failure) :
    description.verdict mode = .error failure ↔
      ∃ offence, description.firstOffence? mode = some offence ∧
        failure = .language offence := by
  rw [verdict]
  cases description.firstOffence? mode <;> simp [eq_comm]

variable {σ : Type} [Sink σ]

/-- How an evaluation ends depends on the first block with an offence only. -/
theorem evaluate_result (hopen : Sink.RefusesNothing σ) (description : Description)
    (mode : CommitMode) (sink : σ) :
    (description.evaluate mode sink).1 = description.verdict mode := by
  have hresult := (description.evaluate_meant hopen mode sink).result
  rwa [Session.start, description.meaning_eq mode] at hresult

/-- What an evaluation sends are the commands of the blocks before that one. -/
theorem evaluate_sent (hopen : Sink.RefusesNothing σ) (description : Description)
    (mode : CommitMode) (sink : σ) :
    ((description.faultless mode).flatMap (description.commandsOf mode)).foldlM Sink.accept sink =
      .ok (description.evaluate mode sink).2.sink := by
  have hsent := (description.evaluate_meant hopen mode sink).sent
  rwa [Session.start, description.meaning_eq mode] at hsent

end Description

theorem CommandLog.foldlM_accept (commands : List Command) (log : CommandLog) :
    commands.foldlM Sink.accept log = .ok ⟨log.commands ++ commands.toArray⟩ := by
  induction commands generalizing log with
  | nil => simp [pure, Except.pure]
  | cons command rest ih =>
      have hrest := ih ⟨log.commands.push command⟩
      rw [List.foldlM_cons]
      refine hrest.trans ?_
      simp

/-- Evaluation sends what the blocks stand for, one after the other in document order, up to the
first block with an offence. Every path, rule and value in the commands is told from where the
blocks stand in the tree, and all blocks count exactly if the evaluation succeeds. -/
theorem evaluation_sends_meaning {σ : Type} [Sink σ] (hopen : Sink.RefusesNothing σ)
    (description : Description) (mode : CommitMode) (sink : σ) :
    let commands := (description.faultless mode).flatMap (description.commandsOf mode)
    commands.foldlM Sink.accept sink = .ok (description.evaluate mode sink).2.sink ∧
      (description.evaluate mode CommandLog.empty).2.sink.commands.toList = commands ∧
      ((description.evaluate mode sink).1 = .ok () ↔
        description.faultless mode = description.occurrences) := by
  intro commands
  refine ⟨description.evaluate_sent hopen mode sink, ?_, ?_⟩
  · have hsent := description.evaluate_sent CommandLog.refusesNothing mode CommandLog.empty
    rw [CommandLog.foldlM_accept, Except.ok.injEq] at hsent
    rw [← hsent]
    simp [CommandLog.empty, commands]
  · rw [description.evaluate_result hopen mode sink, description.verdict_eq_ok_iff,
      description.faultless_eq_iff]

/-- Two rules at different depths go with the first assignment only, and an unsupported block at
the end fails after everything else has been sent. -/
theorem evaluation_sends_volume :
    let description : Description :=
      [.space .domainGroup "Audio"
        [.rule "Mode" "is" (.text "Normal"),
          .space .domain "Volume"
            [.space .conf "Loud"
              [.rule "Device" "includes" (.text "Speaker"), .set "gain" (.text "3"),
                .set "mute" (.boolean false)]]],
        .component "Mixer"]
    let domain : NamePath := ⟨["Audio", "Volume"]⟩
    let conf : NamePath := ⟨["Loud"]⟩
    Sink.RefusesNothing CommandLog ∧
      (description.evaluate .once CommandLog.empty).2.sink.commands.toList =
        [.createDomain domain, .createConfiguration domain conf,
          .setRule domain conf
            ⟨[⟨"Mode", .is, "Normal"⟩, ⟨"Device", .includes, "Speaker"⟩]⟩,
          .setParameter domain conf "gain" "3", .setParameter domain conf "mute" "false"] ∧
      (description.evaluate .once CommandLog.empty).1 ≠ .ok () := by
  intro description domain conf
  obtain ⟨-, hlog, hok⟩ :=
    evaluation_sends_meaning CommandLog.refusesNothing description .once CommandLog.empty
  refine ⟨CommandLog.refusesNothing, ?_, ?_⟩
  · rw [hlog]
    decide
  · intro hsuccess
    have hlength := congrArg List.length (hok.mp hsuccess)
    revert hlength
    decide

end SettingsLang
