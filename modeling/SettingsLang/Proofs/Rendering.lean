import Mathlib.Data.List.Basic
import SettingsLang.Proofs.Stream
import SettingsLang.Sink

/-!
What the text of a command tells. It is cut at its spaces, and the text of a path at its points.
Names that are valid contain neither, so the keyword and the paths are the first pieces whatever
text comes after them. The other texts of a command are pieces of their own if they have no spaces;
a value comes last and may have some. Lines are told apart if no text has a newline.
-/

namespace SettingsLang

/-- A character stands in none of the texts. -/
def Lacks (c : Char) (texts : List String) : Prop :=
  ∀ text ∈ texts, c ∉ text.toList

instance (c : Char) (texts : List String) : Decidable (Lacks c texts) :=
  inferInstanceAs (Decidable (∀ text ∈ texts, c ∉ text.toList))

/-- The pieces of a text between the separators in it. -/
def pieces (separator : Char) (text : String) : List (List Char) :=
  text.toList.splitOn separator

/-- The text of lines, a newline after each. -/
def joinLines (lines : List String) : String :=
  String.join (lines.map (· ++ "\n"))

theorem not_mem_of_blank {c : Char} {text : String} (hc : Text.isBlank c = true)
    (htext : text.toList.any Text.isBlank = false) : c ∉ text.toList := by
  intro hmem
  rw [List.any_eq_true.mpr ⟨c, hmem, hc⟩] at htext
  cases htext

section Pieces

variable {separator : Char} {mark : String}

theorem pieces_append (hmark : mark.toList = [separator]) (first second : String) :
    pieces separator (first ++ mark ++ second) =
      pieces separator first ++ pieces separator second := by
  simp only [pieces, String.toList_append, hmark, List.append_assoc, List.singleton_append]
  exact List.splitOn_append_cons_self _ _

/-- Texts that are joined by separators have the pieces of each text, in order. -/
theorem pieces_intercalate (hmark : mark.toList = [separator]) {texts : List String}
    (hne : texts ≠ []) :
    pieces separator (mark.intercalate texts) = texts.flatMap (pieces separator) := by
  induction texts with
  | nil => exact absurd rfl hne
  | cons text rest ih =>
      cases rest with
      | nil => simp
      | cons next others =>
          rw [String.intercalate_cons_cons, pieces_append hmark, ih (List.cons_ne_nil _ _)]
          rfl

theorem pieces_of_not_mem {text : String} (h : separator ∉ text.toList) :
    pieces separator text = [text.toList] :=
  List.splitOn_eq_singleton h

theorem Lacks.flatMap_pieces {texts : List String} (h : Lacks separator texts) :
    texts.flatMap (pieces separator) = texts.map String.toList := by
  induction texts with
  | nil => rfl
  | cons text rest ih =>
      obtain ⟨htext, hrest⟩ := List.forall_mem_cons.mp h
      rw [List.flatMap_cons, pieces_of_not_mem htext, ih hrest]
      rfl

/-- Lines are the pieces of their text, with nothing after the last newline. -/
theorem pieces_joinLines {lines : List String} (h : Lacks '\n' lines) :
    pieces '\n' (joinLines lines) = lines.map String.toList ++ [[]] := by
  induction lines with
  | nil => rfl
  | cons line rest ih =>
      obtain ⟨hline, hrest⟩ := List.forall_mem_cons.mp h
      have htext : joinLines (line :: rest) = line ++ "\n" ++ joinLines rest := by
        simp [joinLines]
      rw [htext, pieces_append rfl, ih hrest, pieces_of_not_mem hline]
      rfl

/-- The pieces tell the text. -/
theorem eq_of_pieces_eq {first second : String}
    (h : pieces separator first = pieces separator second) : first = second := by
  have hjoined := congrArg [separator].intercalate h
  rw [pieces, pieces, List.intercalate_splitOn, List.intercalate_splitOn] at hjoined
  exact String.toList_inj.mp hjoined

theorem Lacks.not_mem_intercalate {c : Char} (hmark : c ∉ mark.toList) {texts : List String}
    (h : Lacks c texts) : c ∉ (mark.intercalate texts).toList := by
  induction texts with
  | nil => simp
  | cons text rest ih =>
      obtain ⟨htext, hrest⟩ := List.forall_mem_cons.mp h
      cases rest with
      | nil => simpa using htext
      | cons next others =>
          rw [String.intercalate_cons_cons]
          simp only [String.toList_append, List.mem_append, not_or]
          exact ⟨⟨htext, hmark⟩, ih hrest⟩

end Pieces

/-- What is kept of a list ends where the first entry is not kept. -/
theorem takeWhile_of_stop {α : Type} {kept : α → Bool} {first rest : List α}
    (hfirst : ∀ entry ∈ first, kept entry = true)
    (hrest : ∀ entry ∈ rest.head?, kept entry = false) :
    (first ++ rest).takeWhile kept = first ∧ (first ++ rest).dropWhile kept = rest := by
  rw [List.takeWhile_append_of_pos hfirst, List.dropWhile_append_of_pos hfirst]
  cases rest with
  | nil => simp
  | cons entry later => simp [hrest entry rfl]

theorem eq_of_map_toList_eq {first second : List String}
    (h : first.map String.toList = second.map String.toList) : first = second :=
  List.map_injective_iff.mpr (fun _ _ => String.toList_inj.mp) h

/-- Lists are equal that look the same under a map which tells apart what they may contain. -/
theorem eq_of_map_eq {α β : Type} {f : α → β} {P : α → Prop}
    (hinj : ∀ a b, P a → P b → f a = f b → a = b) {first second : List α}
    (hfirst : ∀ a ∈ first, P a) (hsecond : ∀ b ∈ second, P b)
    (h : first.map f = second.map f) : first = second := by
  induction first generalizing second with
  | nil => simpa [eq_comm] using h
  | cons a rest ih =>
      rcases second with _ | ⟨b, others⟩
      · simp at h
      · obtain ⟨hhead, htail⟩ := List.cons.inj h
        rw [List.forall_mem_cons] at hfirst hsecond
        rw [hinj a b hfirst.1 hsecond.1 hhead, ih hfirst.2 hsecond.2 htail]

namespace NamePath

variable {path first second : NamePath}

theorem Valid.names_lack (h : path.Valid) {c : Char} (hc : c = '.' ∨ Text.isBlank c = true) :
    Lacks c path.segments := by
  intro name hname hmem
  obtain ⟨hdot, hblank⟩ := (NameFault.find?_eq_none_iff.mp (h.2 name hname)).2 c hmem
  rcases hc with rfl | hc
  · exact hdot rfl
  · rw [hblank] at hc
    cases hc

/-- The text of a valid path has no white space. -/
theorem Valid.not_mem_render (h : path.Valid) {c : Char} (hc : Text.isBlank c = true) :
    c ∉ path.render.toList :=
  (h.names_lack (Or.inr hc)).not_mem_intercalate (not_mem_of_blank hc (by decide))

/-- Points separate the names of a valid path. -/
theorem Valid.pieces_render (h : path.Valid) :
    pieces '.' path.render = path.segments.map String.toList := by
  rw [render, pieces_intercalate rfl h.1, (h.names_lack (Or.inl rfl)).flatMap_pieces]

/-- The text of a valid path tells its names. -/
theorem eq_of_render_eq (hfirst : first.Valid) (hsecond : second.Valid)
    (h : first.render = second.render) : first = second := by
  have hpieces := congrArg (pieces '.') h
  rw [hfirst.pieces_render, hsecond.pieces_render] at hpieces
  cases first
  cases second
  exact congrArg NamePath.mk (eq_of_map_toList_eq hpieces)

end NamePath

theorem Matcher.not_mem_label {c : Char} (hc : Text.isBlank c = true) (matcher : Matcher) :
    c ∉ matcher.label.toList :=
  not_mem_of_blank hc (by cases matcher <;> decide)

theorem Matcher.eq_of_label_eq {first second : Matcher} (h : first.label = second.label) :
    first = second := by
  cases first <;> cases second <;> simp [label] at h ⊢

/-- Texts with a comma and a space between them, and one comma more, are texts with a comma after
each. -/
theorem intercalate_comma {texts : List String} (hne : texts ≠ []) :
    ", ".intercalate texts ++ "," = " ".intercalate (texts.map (· ++ ",")) := by
  induction texts with
  | nil => exact absurd rfl hne
  | cons text rest ih =>
      cases rest with
      | nil => simp
      | cons next others =>
          have hrest := ih (List.cons_ne_nil _ _)
          rw [List.map_cons] at hrest
          simp only [List.map_cons, String.intercalate_cons_cons, String.append_assoc, hrest]
          rw [show ", " = "," ++ " " by decide, String.append_assoc]

namespace Rule

/-- The texts that a rule takes from its description. -/
def words (rule : Rule) : List String :=
  [rule.criterion, rule.value]

/-- The pieces of a rule with a comma after it. -/
def parts (rule : Rule) : List (List Char) :=
  [rule.criterion.toList, rule.matcher.label.toList, (rule.value ++ ",").toList]

theorem pieces_render {rule : Rule} (h : Lacks ' ' rule.words) :
    pieces ' ' (rule.render ++ ",") = rule.parts := by
  have hjoined : rule.render ++ "," =
      " ".intercalate [rule.criterion, rule.matcher.label, rule.value ++ ","] := by
    simp [render, String.append_assoc]
  have hlacks : Lacks ' ' [rule.criterion, rule.matcher.label, rule.value ++ ","] := by
    have hlabel := rule.matcher.not_mem_label (show Text.isBlank ' ' = true by decide)
    simp only [Lacks, words, List.forall_mem_cons] at h
    simp [Lacks, h, hlabel]
  rw [hjoined, pieces_intercalate rfl (List.cons_ne_nil _ _), hlacks.flatMap_pieces]
  rfl

theorem eq_of_parts_eq {first second : Rule} (h : first.parts = second.parts) :
    first = second := by
  obtain ⟨criterion, matcher, value⟩ := first
  obtain ⟨criterion', matcher', value'⟩ := second
  simp only [parts, List.cons.injEq, String.toList_inj, String.toList_append,
    List.append_cancel_right_eq, and_true] at h
  obtain ⟨rfl, hlabel, rfl⟩ := h
  rw [Matcher.eq_of_label_eq hlabel]

/-- Every rule has three pieces, so the pieces of rules tell them one by one. -/
theorem eq_of_flatMap_parts_eq {first second : List Rule}
    (h : first.flatMap parts = second.flatMap parts) : first = second := by
  induction first generalizing second with
  | nil =>
      cases second with
      | nil => rfl
      | cons rule rest => simp [parts] at h
  | cons rule rest ih =>
      cases second with
      | nil => simp [parts] at h
      | cons rule' rest' =>
          obtain ⟨hrule, hrest⟩ := List.append_inj h rfl
          rw [eq_of_parts_eq hrule, ih hrest]

end Rule

namespace RuleSet

/-- The texts that a rule set takes from its description. -/
def words (set : RuleSet) : List String :=
  set.rules.flatMap Rule.words

theorem words_lack {set : RuleSet} {c : Char} (h : Lacks c set.words) :
    ∀ rule ∈ set.rules, Lacks c rule.words :=
  fun rule hrule text htext => h text (List.mem_flatMap.mpr ⟨rule, hrule, htext⟩)

/-- The pieces of rules with commas between them, and a comma at the end. -/
theorem pieces_intercalate {rules : List Rule} (hne : rules ≠ [])
    (h : ∀ rule ∈ rules, Lacks ' ' rule.words) :
    pieces ' ' (", ".intercalate (rules.map Rule.render) ++ ",") = rules.flatMap Rule.parts := by
  have hmap : rules.map Rule.render ≠ [] := by simpa using hne
  rw [intercalate_comma hmap, SettingsLang.pieces_intercalate rfl (by simpa using hne),
    List.map_map, List.flatMap_map]
  exact List.flatMap_congr fun rule hrule => Rule.pieces_render (h rule hrule)

theorem pieces_intercalate_nil :
    pieces ' ' (", ".intercalate (([] : List Rule).map Rule.render) ++ ",") = [[',']] :=
  pieces_of_not_mem (by decide)

/-- Rules without spaces are told by their text, also how many they are. -/
theorem eq_of_render_eq {first second : RuleSet} (hfirst : Lacks ' ' first.words)
    (hsecond : Lacks ' ' second.words) (h : first.render = second.render) : first = second := by
  obtain ⟨first⟩ := first
  obtain ⟨second⟩ := second
  have hrules : ", ".intercalate (first.map Rule.render) =
      ", ".intercalate (second.map Rule.render) := by
    rw [← String.toList_inj] at h ⊢
    simpa only [render, String.toList_append, List.append_cancel_right_eq,
      List.append_cancel_left_eq] using h
  have hpieces : pieces ' ' (", ".intercalate (first.map Rule.render) ++ ",") =
      pieces ' ' (", ".intercalate (second.map Rule.render) ++ ",") := by rw [hrules]
  -- no rules are one piece, and each rule is three
  rcases first with _ | ⟨rule, rest⟩ <;> rcases second with _ | ⟨rule', rest'⟩
  · rfl
  · rw [pieces_intercalate_nil,
      pieces_intercalate (List.cons_ne_nil _ _) (words_lack hsecond)] at hpieces
    simp [Rule.parts] at hpieces
  · rw [pieces_intercalate_nil,
      pieces_intercalate (List.cons_ne_nil _ _) (words_lack hfirst)] at hpieces
    simp [Rule.parts] at hpieces
  · rw [pieces_intercalate (List.cons_ne_nil _ _) (words_lack hfirst),
      pieces_intercalate (List.cons_ne_nil _ _) (words_lack hsecond)] at hpieces
    rw [Rule.eq_of_flatMap_parts_eq hpieces]

/-- The text of rules has no white space but spaces and what its words have. -/
theorem not_mem_render {set : RuleSet} {c : Char} (hblank : Text.isBlank c = true)
    (hspace : c ≠ ' ') (h : Lacks c set.words) : c ∉ set.render.toList := by
  have hrules : Lacks c (set.rules.map Rule.render) := by
    intro text htext
    obtain ⟨rule, hrule, rfl⟩ := List.mem_map.mp htext
    have hwords := words_lack h rule hrule
    have hlabel := rule.matcher.not_mem_label hblank
    simp only [Lacks, Rule.words, List.forall_mem_cons] at hwords
    simp [Rule.render, hwords, hlabel, hspace]
  have hmark : ∀ text : String, text.toList.all (fun d => d == ' ' || !Text.isBlank d) = true →
      c ∉ text.toList := by
    intro text hall hmem
    simpa [hspace, hblank] using List.all_eq_true.mp hall c hmem
  simp only [render, String.toList_append, List.mem_append, not_or]
  exact ⟨⟨hmark _ (by decide), hrules.not_mem_intercalate (hmark _ (by decide))⟩,
    hmark _ (by decide)⟩

end RuleSet

namespace Command

/-- What comes after the paths in the text of a command. -/
def details : Command → List String
  | .createDomain _ | .createConfiguration .. => []
  | .setRule _ _ rules => [rules.render]
  | .setParameter _ _ parameter value => [parameter, value]

/-- The texts that a command takes from its description, without the value, which comes last. -/
def words : Command → List String
  | .createDomain _ | .createConfiguration .. => []
  | .setRule _ _ rules => rules.words
  | .setParameter _ _ parameter _ => [parameter]

/-- The texts that a command takes from its description. -/
def texts : Command → List String
  | .setParameter _ _ parameter value => [parameter, value]
  | command => command.words

theorem not_mem_keyword {c : Char} (hc : Text.isBlank c = true) (command : Command) :
    c ∉ command.keyword.toList :=
  not_mem_of_blank hc (by cases command <;> dsimp only [keyword] <;> decide)

theorem arguments_eq (command : Command) :
    command.arguments = command.paths.map NamePath.render ++ command.details := by
  cases command <;> rfl

theorem length_paths_of_keyword {first second : Command} (h : first.keyword = second.keyword) :
    first.paths.length = second.paths.length := by
  cases first <;> cases second <;> simp [keyword, paths] at h ⊢

theorem PathsValid.paths_lack {command : Command} (h : command.PathsValid) {c : Char}
    (hc : Text.isBlank c = true) : Lacks c (command.paths.map NamePath.render) := by
  intro text htext
  obtain ⟨path, hpath, rfl⟩ := List.mem_map.mp htext
  exact (h path hpath).not_mem_render hc

/-- The pieces of a command: the keyword, one for each path, and those of what comes after. -/
theorem PathsValid.pieces_render {command : Command} (h : command.PathsValid) :
    pieces ' ' command.render = command.keyword.toList ::
      ((command.paths.map NamePath.render).map String.toList ++
        command.details.flatMap (pieces ' ')) := by
  have hblank : Text.isBlank ' ' = true := by decide
  rw [render, pieces_intercalate rfl (List.cons_ne_nil _ _), List.flatMap_cons,
    pieces_of_not_mem (command.not_mem_keyword hblank), arguments_eq, List.flatMap_append,
    (h.paths_lack hblank).flatMap_pieces]
  rfl

/-- The text of a command tells its keyword and its paths, and the pieces of what comes after
them. -/
theorem eq_of_render_eq {first second : Command} (hfirst : first.PathsValid)
    (hsecond : second.PathsValid) (h : first.render = second.render) :
    first.keyword = second.keyword ∧ first.paths = second.paths ∧
      first.details.flatMap (pieces ' ') = second.details.flatMap (pieces ' ') := by
  have hpieces := congrArg (pieces ' ') h
  rw [hfirst.pieces_render, hsecond.pieces_render] at hpieces
  obtain ⟨hkeyword, hrest⟩ := List.cons.inj hpieces
  have hsame := String.toList_inj.mp hkeyword
  obtain ⟨hpaths, hdetails⟩ := List.append_inj hrest (by simp [length_paths_of_keyword hsame])
  have hrendered := eq_of_map_toList_eq hpaths
  exact ⟨hsame, eq_of_map_eq (fun _ _ => NamePath.eq_of_render_eq) hfirst hsecond hrendered,
    hdetails⟩

/-- Without spaces in its words the text of a command tells everything. -/
theorem eq_of_render_eq_of_lacks {first second : Command} (hfirst : first.PathsValid)
    (hsecond : second.PathsValid) (hwords : Lacks ' ' first.words)
    (hwords' : Lacks ' ' second.words) (h : first.render = second.render) : first = second := by
  obtain ⟨hkeyword, hpaths, hdetails⟩ := eq_of_render_eq hfirst hsecond h
  cases first <;> cases second <;> simp only [keyword] at hkeyword
  case createDomain.createDomain => simp_all [paths]
  case createConfiguration.createConfiguration => simp_all [paths]
  case setRule.setRule domain conf rules domain' conf' rules' =>
    have hrender : pieces ' ' rules.render = pieces ' ' rules'.render := by
      simpa [details] using hdetails
    have hrules := RuleSet.eq_of_render_eq hwords hwords' (eq_of_pieces_eq hrender)
    simp_all [paths]
  case setParameter.setParameter domain conf parameter value domain' conf' parameter' value' =>
    obtain ⟨hparameter, -⟩ := List.forall_mem_cons.mp hwords
    obtain ⟨hparameter', -⟩ := List.forall_mem_cons.mp hwords'
    simp only [details, List.flatMap_cons, List.flatMap_nil, List.append_nil,
      pieces_of_not_mem hparameter, pieces_of_not_mem hparameter'] at hdetails
    obtain ⟨hsame, hvalue⟩ := List.cons.inj hdetails
    have hsame := String.toList_inj.mp hsame
    have hvalue := eq_of_pieces_eq hvalue
    simp_all [paths]
  all_goals simp at hkeyword

/-- With a space in a parameter the text can be that of another command. -/
example :
    (Command.setParameter ⟨["Volume"]⟩ ⟨["Loud"]⟩ "gain" "3 dB").render =
      (Command.setParameter ⟨["Volume"]⟩ ⟨["Loud"]⟩ "gain 3" "dB").render := by
  decide

/-- The text of a command has no white space but spaces and what its texts have. -/
theorem PathsValid.not_mem_render {command : Command} (h : command.PathsValid) {c : Char}
    (hblank : Text.isBlank c = true) (hspace : c ≠ ' ') (htexts : Lacks c command.texts) :
    c ∉ command.render.toList := by
  have hdetails : Lacks c command.details := by
    cases command with
    | createDomain domain => exact nofun
    | createConfiguration domain conf => exact nofun
    | setRule domain conf rules =>
        simpa [Lacks, details] using RuleSet.not_mem_render hblank hspace htexts
    | setParameter domain conf parameter value => exact htexts
  have hall : Lacks c (command.keyword :: command.arguments) := by
    rw [arguments_eq]
    refine List.forall_mem_cons.mpr ⟨command.not_mem_keyword hblank, ?_⟩
    exact List.forall_mem_append.mpr ⟨h.paths_lack hblank, hdetails⟩
  exact hall.not_mem_intercalate (by simpa using hspace)

end Command

namespace LineWriter

theorem textOf_eq_join (commands : List Command) :
    textOf commands = String.join (commands.map line) := by
  simp [textOf, String.join, List.foldl_map]

/-- A writer that takes commands gets their text. -/
theorem foldlM_accept (commands : List Command) (writer : LineWriter) :
    commands.foldlM Sink.accept writer = .ok ⟨writer.text ++ textOf commands⟩ := by
  induction commands generalizing writer with
  | nil => simp [pure, Except.pure, textOf]
  | cons command rest ih =>
      have hrest := ih ⟨writer.text ++ line command⟩
      rw [List.foldlM_cons]
      refine hrest.trans ?_
      simp [textOf_eq_join, String.append_assoc]

/-- The lines of a text are the commands' own texts if these have no newline; nothing comes after
the last newline. -/
theorem pieces_textOf {commands : List Command}
    (h : ∀ command ∈ commands, '\n' ∉ command.render.toList) :
    pieces '\n' (textOf commands) =
      (commands.map Command.render).map String.toList ++ [[]] := by
  have htext : textOf commands = joinLines (commands.map Command.render) := by
    rw [textOf_eq_join, joinLines, List.map_map]
    rfl
  rw [htext, pieces_joinLines (List.forall_mem_map.mpr h)]

/-- The text of commands tells the commands, if their texts have no newline and their words no
space. -/
theorem eq_of_textOf_eq {first second : List Command}
    (hpaths : ∀ command ∈ first ++ second, command.PathsValid)
    (hlines : ∀ command ∈ first ++ second, Lacks '\n' command.texts)
    (hwords : ∀ command ∈ first ++ second, Lacks ' ' command.words)
    (h : textOf first = textOf second) : first = second := by
  have hline : ∀ command ∈ first ++ second, '\n' ∉ command.render.toList :=
    fun command hmem => (hpaths command hmem).not_mem_render (by decide) (by decide)
      (hlines command hmem)
  rw [List.forall_mem_append] at hpaths hline hwords
  have hpieces := congrArg (pieces '\n') h
  rw [pieces_textOf hline.1, pieces_textOf hline.2] at hpieces
  have hrendered := eq_of_map_toList_eq (List.append_cancel_right hpieces)
  refine eq_of_map_eq (P := fun command => command.PathsValid ∧ Lacks ' ' command.words) ?_
    (fun command hmem => ⟨hpaths.1 command hmem, hwords.1 command hmem⟩)
    (fun command hmem => ⟨hpaths.2 command hmem, hwords.2 command hmem⟩) hrendered
  exact fun _ _ hfirst hsecond => Command.eq_of_render_eq_of_lacks hfirst.1 hsecond.1 hfirst.2
    hsecond.2

end LineWriter

end SettingsLang
