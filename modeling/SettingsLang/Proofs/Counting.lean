import SettingsLang.Proofs.Generating

/-!
How many lines are written. Every command is a line with a newline after it, so the lines are
counted by the newlines, and a text with newlines of its own makes more than one line of its
command. Paths have none; criteria, the values of rules, parameters and their values may have some.
-/

namespace SettingsLang

/-- The number of newlines in a text. -/
def breaks (text : String) : Nat :=
  text.toList.count '\n'

theorem breaks_append (first second : String) :
    breaks (first ++ second) = breaks first + breaks second := by
  simp [breaks]

theorem breaks_eq_zero_iff {text : String} : breaks text = 0 ↔ '\n' ∉ text.toList :=
  List.count_eq_zero

theorem breaks_join_append (first second : List String) :
    breaks (String.join (first ++ second)) =
      breaks (String.join first) + breaks (String.join second) := by
  rw [String.join_append, breaks_append]

theorem breaks_join_cons (text : String) (rest : List String) :
    breaks (String.join (text :: rest)) = breaks text + breaks (String.join rest) := by
  rw [String.join_cons, breaks_append]

theorem breaks_intercalate {mark : String} (hmark : breaks mark = 0) (texts : List String) :
    breaks (mark.intercalate texts) = breaks (String.join texts) := by
  induction texts with
  | nil => rfl
  | cons text rest ih =>
      cases rest with
      | nil => simp
      | cons next others =>
          rw [String.intercalate_cons_cons, breaks_append, breaks_append, hmark, ih,
            breaks_join_cons text]
          rfl

/-- Texts have the newlines of what they are made from, if each one has. -/
theorem breaks_map_eq_flatMap {α : Type} {parts : List α} {text : α → String}
    {words : α → List String}
    (h : ∀ part ∈ parts, breaks (text part) = breaks (String.join (words part))) :
    breaks (String.join (parts.map text)) = breaks (String.join (parts.flatMap words)) := by
  induction parts with
  | nil => rfl
  | cons part rest ih =>
      obtain ⟨hpart, hrest⟩ := List.forall_mem_cons.mp h
      rw [List.map_cons, List.flatMap_cons, breaks_join_cons, breaks_join_append, hpart, ih hrest]

theorem breaks_join_eq_zero_iff {texts : List String} :
    breaks (String.join texts) = 0 ↔ Lacks '\n' texts := by
  induction texts with
  | nil => simp [Lacks, breaks]
  | cons text rest ih =>
      rw [breaks_join_cons, Nat.add_eq_zero_iff, ih, breaks_eq_zero_iff, Lacks, Lacks,
        List.forall_mem_cons]

theorem Rule.breaks_render (rule : Rule) :
    breaks rule.render = breaks (String.join rule.words) := by
  have hlabel : breaks rule.matcher.label = 0 :=
    breaks_eq_zero_iff.mpr (rule.matcher.not_mem_label (by decide))
  have hspace : breaks " " = 0 := by decide
  simp [Rule.render, words, breaks_append, hlabel, hspace]

theorem RuleSet.breaks_render (set : RuleSet) :
    breaks set.render = breaks (String.join set.words) := by
  have hopen : breaks "All\x7b " = 0 := by decide
  have hclose : breaks " \x7d" = 0 := by decide
  have hrules : breaks (String.join (set.rules.map Rule.render)) =
      breaks (String.join set.words) :=
    breaks_map_eq_flatMap fun rule _ => rule.breaks_render
  rw [render, breaks_append, breaks_append, hopen, hclose, breaks_intercalate (by decide), hrules]
  omega

namespace Command

/-- The newlines in the text of a command are those in the texts from its description. -/
theorem PathsValid.breaks_render {command : Command} (h : command.PathsValid) :
    breaks command.render = breaks (String.join command.texts) := by
  have hkeyword : breaks command.keyword = 0 :=
    breaks_eq_zero_iff.mpr (command.not_mem_keyword (by decide))
  have hpaths : breaks (String.join (command.paths.map NamePath.render)) = 0 :=
    breaks_join_eq_zero_iff.mpr (h.paths_lack (by decide))
  have hdetails : breaks (String.join command.details) = breaks (String.join command.texts) := by
    cases command with
    | setRule domain conf rules => simpa [details, texts, words] using rules.breaks_render
    | createDomain _ | createConfiguration _ _ | setParameter _ _ _ _ => rfl
  rw [render, breaks_intercalate (by decide), arguments_eq, breaks_join_cons, breaks_join_append,
    hkeyword, hpaths, hdetails]
  omega

end Command

theorem Text.countLines_line (pending : Bool) (line rest : List Char) :
    countLines pending (line ++ '\n' :: rest) = line.count '\n' + 1 + countLines false rest := by
  induction line generalizing pending with
  | nil =>
      rw [List.nil_append, countLines]
      simp [Nat.add_comm]
  | cons char others ih =>
      by_cases hbreak : char = '\n'
      · subst hbreak
        rw [List.cons_append, countLines, ih]
        simp
        omega
      · rw [List.cons_append, countLines, ih, List.count_cons_of_ne hbreak]
        exact hbreak

/-- The lines of the text of commands: one for each command, and one more for each newline in the
command's own text. -/
theorem LineWriter.lineCount_textOf (commands : List Command) :
    Text.lineCount (textOf commands) =
      commands.length + breaks (String.join (commands.map Command.render)) := by
  induction commands with
  | nil => rfl
  | cons command rest ih =>
      have htext : textOf (command :: rest) = command.render ++ "\n" ++ textOf rest := by
        simp [textOf_eq_join, line]
      have hlines : Text.lineCount (textOf (command :: rest)) =
          breaks command.render + 1 + Text.lineCount (textOf rest) := by
        rw [htext, Text.lineCount, String.toList_append, String.toList_append, List.append_assoc]
        exact Text.countLines_line false _ _
      rw [hlines, ih, List.map_cons, breaks_join_cons, List.length_cons]
      omega

namespace Generation

variable {S : Type} [FileAccess (StateM S)] [Store S]

/-- Writing a file that can be written fails as counting fails, and succeeds otherwise. The file
then holds the text of the commands. The number of its lines is the number of commands and of the
newlines in the texts that they took from the description, so it is the number of commands exactly
if those texts have none; each command is then a line of its own. -/
theorem write_counts_breaks (store : S) (path output : String) (mode : CommitMode)
    (hwritable : ∀ text, ∃ after, Store.write store output text = .ok after) :
    (∀ failure, (outcome store (into path mode CommandLog.empty)).1 = .error failure →
      (outcome store (count path mode)).1 = .error failure ∧
        outcome store (write path output mode) = (.error failure, store)) ∧
    ∀ log, (outcome store (into path mode CommandLog.empty)).1 = .ok log →
      (outcome store (count path mode)).1 = .ok log.size ∧
      ∃ lines after,
        outcome store (write path output mode) = (.ok lines, after) ∧
        Store.held? after output = some (LineWriter.textOf log.commands.toList) ∧
        lines = log.size + breaks (String.join (log.commands.toList.flatMap Command.texts)) ∧
        (lines = log.size ↔ ∀ command ∈ log.commands.toList, Lacks '\n' command.texts) ∧
        (lines = log.size →
          pieces '\n' (LineWriter.textOf log.commands.toList) =
            log.lines.map String.toList ++ [[]]) := by
  simp only [outcome_log, outcome_count, outcome_write]
  cases hsent : sent store path mode with
  | error failure => simp [Except.map]
  | ok commands =>
      have hvalid := (emitted_of_sent hsent).paths_valid
      obtain ⟨after, hwrite⟩ := hwritable (LineWriter.textOf commands)
      refine ⟨by simp [Except.map], ?_⟩
      rintro log ⟨⟩
      have hsize : commands.length = CommandLog.size ⟨commands.toArray⟩ := rfl
      have htexts : breaks (String.join (commands.map Command.render)) =
          breaks (String.join (commands.flatMap Command.texts)) :=
        breaks_map_eq_flatMap fun command hcommand => (hvalid command hcommand).breaks_render
      have hlines := LineWriter.lineCount_textOf commands
      have hzero : breaks (String.join (commands.flatMap Command.texts)) = 0 ↔
          ∀ command ∈ commands, Lacks '\n' command.texts := by
        rw [breaks_join_eq_zero_iff]
        simp only [Lacks, List.forall_mem_flatMap]
      refine ⟨rfl, Text.lineCount (LineWriter.textOf commands), after, by simp only [hwrite],
        Store.held_write hwrite, ?_, ?_, ?_⟩
      · rw [hlines, htexts, hsize]
      · rw [hlines, htexts, ← hsize, Nat.add_eq_left, hzero]
      · intro hsame
        rw [hlines, ← hsize, Nat.add_eq_left, breaks_join_eq_zero_iff] at hsame
        exact LineWriter.pieces_textOf fun command hcommand =>
          hsame _ (List.mem_map_of_mem hcommand)

/-- Four commands without newlines are four lines. -/
theorem write_counts_plain_commands :
    let files : MemoryFiles :=
      ⟨[("d.toml", "block=[['domain','D',[['conf','C',[['set','/p',1]]]]]]")], [], []⟩
    (∀ text, ∃ after, Store.write files "out" text = .ok after) ∧
    ∃ log, (outcome files (into "d.toml" .everySet CommandLog.empty)).1 = .ok log ∧
      (outcome files (count "d.toml" .everySet)).1 = .ok 4 ∧
      ∃ after, outcome files (write "d.toml" "out" .everySet) = (.ok 4, after) ∧
        Store.held? after "out" = some (LineWriter.textOf log.commands.toList) := by
  intro files
  have hsent : sent files "d.toml" .everySet =
      .ok [.createDomain ⟨["D"]⟩, .createConfiguration ⟨["D"]⟩ ⟨["C"]⟩,
        .setRule ⟨["D"]⟩ ⟨["C"]⟩ ⟨[]⟩, .setParameter ⟨["D"]⟩ ⟨["C"]⟩ "/p" "1"] := by
    rw [sent, described_single]
    decide +kernel
  have hlog : (outcome files (into "d.toml" .everySet CommandLog.empty)).1 = .ok
      ⟨#[.createDomain ⟨["D"]⟩, .createConfiguration ⟨["D"]⟩ ⟨["C"]⟩,
        .setRule ⟨["D"]⟩ ⟨["C"]⟩ ⟨[]⟩, .setParameter ⟨["D"]⟩ ⟨["C"]⟩ "/p" "1"]⟩ := by
    rw [outcome_log, hsent]
    rfl
  have hwritable (text : String) : ∃ after, Store.write files "out" text = .ok after :=
    ⟨_, rfl⟩
  obtain ⟨hcount, lines, after, hwrite, hheld, hlines, -⟩ :=
    (write_counts_breaks files "d.toml" "out" .everySet hwritable).2 _ hlog
  have hfour : lines = 4 := hlines
  exact ⟨hwritable, _, hlog, hcount, after, hfour ▸ hwrite, hheld⟩

/-- With a newline in a value the same number of commands is written as five lines. -/
theorem broken_value_counts_twice :
    let files : MemoryFiles :=
      ⟨[("d.toml", "block=[['domain','D',[['conf','C',[['set','/p',\"a\\nb\"]]]]]]")], [], []⟩
    (∀ text, ∃ after, Store.write files "out" text = .ok after) ∧
      (outcome files (count "d.toml" .everySet)).1 = .ok 4 ∧
      (outcome files (write "d.toml" "out" .everySet)).1 = .ok 5 := by
  intro files
  have hsent : sent files "d.toml" .everySet =
      .ok [.createDomain ⟨["D"]⟩, .createConfiguration ⟨["D"]⟩ ⟨["C"]⟩,
        .setRule ⟨["D"]⟩ ⟨["C"]⟩ ⟨[]⟩, .setParameter ⟨["D"]⟩ ⟨["C"]⟩ "/p" "a\nb"] := by
    rw [sent, described_single]
    decide +kernel
  rw [outcome_count, outcome_write, hsent]
  exact ⟨fun text => ⟨_, rfl⟩, rfl, by decide +kernel⟩

end Generation

end SettingsLang
