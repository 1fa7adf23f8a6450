import SettingsLang.Proofs.Layers
import SettingsLang.Proofs.Quoting

/-!
Settings that were shown are loaded again. They are shown as lines, each with a key and a text; a
document of such lines is read back line by line, whatever the texts are. As a file of the directory
it then decides on each field that it shows.
-/

namespace SettingsLang

namespace Toml

section Lines

variable {key : String} {c : Char} {rest : List Char}

/-- A key that needs no quotes. -/
def IsBareKey (key : String) : Prop :=
  key.toList ≠ [] ∧ ∀ c ∈ key.toList, isBareKeyChar c = true

theorem ne_of_isBareKeyChar (h : isBareKeyChar c = true) {other : Char}
    (hother : isBareKeyChar other = false) : c ≠ other := by
  rintro rfl
  rw [h] at hother
  cases hother

theorem isSpace_of_isBareKeyChar (h : isBareKeyChar c = true) : isSpace c = false := by
  have hspace : c ≠ ' ' := ne_of_isBareKeyChar h (by decide)
  have htab : c ≠ '\t' := ne_of_isBareKeyChar h (by decide)
  simp [isSpace, hspace, htab]

theorem skipSpace_bare (h : isBareKeyChar c = true) (cs : List Char) :
    skipSpace (c :: cs) = c :: cs := by
  rw [skipSpace, List.dropWhile_cons_of_neg (by simp [isSpace_of_isBareKeyChar h])]

theorem skipLayout_bare (h : isBareKeyChar c = true) (cs : List Char) :
    skipLayout false (c :: cs) = c :: cs := by
  have hcomment : c ≠ '#' := ne_of_isBareKeyChar h (by decide)
  rw [skipLayout]
  · simp [isSpace_of_isBareKeyChar h, hcomment]
  · exact ne_of_isBareKeyChar h (by decide)
  · intro _ hreturn
    exact absurd hreturn (ne_of_isBareKeyChar h (by decide))

theorem exists_bare (hkey : IsBareKey key) :
    ∃ c cs, key.toList = c :: cs ∧ isBareKeyChar c = true := by
  obtain ⟨hne, hchars⟩ := hkey
  cases hlist : key.toList with
  | nil => exact absurd hlist hne
  | cons c cs => exact ⟨c, cs, rfl, hchars c (by simp [hlist])⟩

/-- A key is read up to the first character that belongs to no bare key. -/
theorem simpleKey?_bare (hkey : IsBareKey key) {stop : Char} (hstop : isBareKeyChar stop = false)
    (rest : List Char) :
    simpleKey? (key.toList ++ stop :: rest) = some (key, stop :: rest) := by
  have htake : (key.toList ++ stop :: rest).takeWhile isBareKeyChar = key.toList := by
    rw [List.takeWhile_append_of_pos hkey.2, List.takeWhile_cons_of_neg (by simp [hstop]),
      List.append_nil]
  have hdrop : (key.toList ++ stop :: rest).dropWhile isBareKeyChar = stop :: rest := by
    rw [List.dropWhile_append_of_pos hkey.2, List.dropWhile_cons_of_neg (by simp [hstop])]
  obtain ⟨c, cs, hlist, hbare⟩ := exists_bare hkey
  rw [simpleKey?]
  · simp only [htake, hdrop, String.ofList_toList]
    rw [if_neg (by simpa using hkey.1)]
  · intro after heq
    rw [hlist] at heq
    exact ne_of_isBareKeyChar hbare (by decide) (List.cons_eq_cons.mp heq).1
  · intro after heq
    rw [hlist] at heq
    exact ne_of_isBareKeyChar hbare (by decide) (List.cons_eq_cons.mp heq).1

theorem keys?_bare (hkey : IsBareKey key) (room : Nat) (rest : List Char) :
    keys? (room + 1) (key.toList ++ ' ' :: '=' :: rest) = some (⟨[], key⟩, '=' :: rest) := by
  obtain ⟨c, cs, hlist, hbare⟩ := exists_bare hkey
  have hskip : skipSpace (key.toList ++ ' ' :: '=' :: rest) = key.toList ++ ' ' :: '=' :: rest := by
    rw [hlist, List.cons_append, skipSpace_bare hbare]
  rw [keys?, hskip, simpleKey?_bare hkey (by decide)]
  rfl

theorem keyPath?_bare (hkey : IsBareKey key) (rest : List Char) :
    keyPath? (key.toList ++ ' ' :: '=' :: rest) = some (⟨[], key⟩, '=' :: rest) :=
  keys?_bare hkey 78 rest

theorem quoted_front (text : String) :
    ∃ quote inside, (quoted text).toList = quote :: inside ∧ (quote = '"' ∨ quote = '\'') := by
  rw [quoted, String.toList_ofList]
  cases Quotation.ofText text.toList with
  | basic => exact ⟨_, _, rfl, Or.inl rfl⟩
  | literal => exact ⟨_, _, rfl, Or.inr rfl⟩
  | multilineBasic => exact ⟨_, _, rfl, Or.inl rfl⟩
  | multilineLiteral => exact ⟨_, _, rfl, Or.inr rfl⟩

/-- What starts with a quote is a string, at any depth. -/
theorem value?_string (room : Nat) {quote : Char} (hquote : quote = '"' ∨ quote = '\'')
    (cs : List Char) :
    value? room (quote :: cs) =
      (string? (quote :: cs)).map fun (text, rest) => (.text text, rest) := by
  obtain rfl | rfl := hquote
  · cases room <;> rfl
  · cases room <;> rfl

theorem value?_quoted (room : Nat) (text : String) (hrest : EndsString rest) :
    value? room ((quoted text).toList ++ rest) = some (.text text, rest) := by
  have hread := string?_quoted text hrest
  obtain ⟨quote, inside, hlist, hquote⟩ := quoted_front text
  rw [hlist, List.cons_append] at hread ⊢
  rw [value?_string room hquote, hread]
  rfl

theorem pair?_of_keyPath? (value : Reader Value) {cs after : List Char} {path : KeyPath}
    (hpath : keyPath? cs = some (path, '=' :: after)) :
    pair? value cs =
      (value (skipSpace after)).map fun (content, rest) => ((path, content), rest) := by
  rw [pair?, hpath]
  cases hvalue : value (skipSpace after) with
  | none => simp [expect?, hvalue]
  | some content => simp [expect?, hvalue]

/-- A line with a key and a text. -/
def textLine (pair : String × String) : String :=
  pair.1 ++ " = " ++ quoted pair.2 ++ "\n"

theorem line?_textLine {pair : String × String} (hkey : IsBareKey pair.1) (rest : List Char) :
    line? ((textLine pair).toList ++ rest) =
      some (.pair ⟨[], pair.1⟩ (.text pair.2), rest) := by
  obtain ⟨c, cs, hlist, hbare⟩ := exists_bare hkey
  obtain ⟨quote, inside, hquoted, hquote⟩ := quoted_front pair.2
  have hchars : (textLine pair).toList ++ rest =
      pair.1.toList ++ ' ' :: '=' :: ' ' :: ((quoted pair.2).toList ++ '\n' :: rest) := by
    simp [textLine]
  have hskip : skipSpace (' ' :: ((quoted pair.2).toList ++ '\n' :: rest)) =
      (quoted pair.2).toList ++ '\n' :: rest := by
    rw [hquoted]
    obtain rfl | rfl := hquote <;> rfl
  have hend : EndsString ('\n' :: rest) := ⟨by simp, by simp⟩
  have hpair : pair? (value? depthLimit) ((textLine pair).toList ++ rest) =
      some ((⟨[], pair.1⟩, .text pair.2), '\n' :: rest) := by
    rw [hchars, pair?_of_keyPath? _ (keyPath?_bare hkey _), hskip,
      value?_quoted depthLimit pair.2 hend]
    rfl
  have hbracket : ∀ after, (textLine pair).toList ++ rest ≠ '[' :: after := by
    intro after heq
    rw [hchars, hlist] at heq
    exact ne_of_isBareKeyChar hbare (by decide) (List.cons_eq_cons.mp heq).1
  rw [line?]
  · rw [hpair]
    rfl
  · exact fun after => hbracket _
  · exact hbracket

/-- The lines of texts, one for each key. -/
def textLines (pairs : List (String × String)) : String :=
  String.join (pairs.map textLine)

variable {pairs : List (String × String)}

theorem toList_textLines_cons (pair : String × String) (pairs : List (String × String)) :
    (textLines (pair :: pairs)).toList = (textLine pair).toList ++ (textLines pairs).toList := by
  simp [textLines]

/-- A line starts with its key. -/
theorem textLine_front {pair : String × String} (hkey : IsBareKey pair.1) :
    ∃ c cs, (textLine pair).toList = c :: cs ∧ isBareKeyChar c = true := by
  obtain ⟨c, cs, hlist, hbare⟩ := exists_bare hkey
  exact ⟨c, cs ++ (" = " ++ quoted pair.2 ++ "\n").toList, by simp [textLine, hlist], hbare⟩

theorem lines?_cons {cs : List Char} (hskip : skipLayout false (c :: cs) = c :: cs) {line : Line}
    (hline : line? (c :: cs) = some (line, rest)) (fuel : Nat) :
    lines? (fuel + 1) (c :: cs) = (lines? fuel rest).map (line :: ·) := by
  rw [lines?, hskip]
  dsimp only
  rw [hline]
  cases hrest : lines? fuel rest with
  | none => simp [hrest]
  | some lines => simp [hrest]

theorem lines?_textLines (hkeys : ∀ pair ∈ pairs, IsBareKey pair.1) {fuel : Nat}
    (hfuel : pairs.length < fuel) :
    lines? fuel (textLines pairs).toList =
      some (pairs.map fun pair => .pair ⟨[], pair.1⟩ (.text pair.2)) := by
  induction pairs generalizing fuel with
  | nil =>
      cases fuel with
      | zero => omega
      | succ fuel => rfl
  | cons pair pairs ih =>
      cases fuel with
      | zero => omega
      | succ fuel =>
          obtain ⟨hkey, hkeys⟩ := List.forall_mem_cons.mp hkeys
          obtain ⟨c, cs, hfront, hbare⟩ := textLine_front hkey
          have hline := line?_textLine hkey (textLines pairs).toList
          rw [hfront, List.cons_append] at hline
          rw [toList_textLines_cons, hfront, List.cons_append,
            lines?_cons (skipLayout_bare hbare _) hline, ih hkeys (Nat.lt_of_succ_lt_succ hfuel)]
          rfl

theorem sections_pairs (pairs : List (KeyPath × Value)) :
    sections (pairs.map fun (path, value) => .pair path value) = (pairs, []) := by
  induction pairs with
  | nil => rfl
  | cons pair pairs ih =>
      rw [List.map_cons, sections, ih]

theorem fill_texts (entries : Draft.Entries)
    (hkeys : (entries.map (·.1) ++ pairs.map (·.1)).Nodup) :
    Draft.Entries.fill entries (pairs.map fun (key, text) => (⟨[], key⟩, .text text)) =
      some (entries ++ pairs.map fun (key, text) => (key, .closed (.text text))) := by
  induction pairs generalizing entries with
  | nil => simp [Draft.Entries.fill]
  | cons pair pairs ih =>
      obtain ⟨key, text⟩ := pair
      have hnew : key ∉ entries.map (·.1) := by
        intro hmem
        exact (List.nodup_append.mp hkeys).2.2 key hmem key (by simp) rfl
      have hinsert : Draft.Entries.insert key (.text text) [] entries =
          some (entries ++ [(key, .closed (.text text))]) := by
        rw [Draft.Entries.insert, lookup_eq_none_of_notMem hnew]
      have hrest := ih (entries ++ [(key, .closed (.text text))]) (by simpa using hkeys)
      rw [Draft.Entries.fill] at hrest ⊢
      rw [List.map_cons, List.foldlM_cons]
      change (Draft.Entries.insert key (.text text) [] entries).bind _ = _
      rw [hinsert, Option.bind_some, hrest, List.append_assoc]
      rfl

theorem length_le_textLines (pairs : List (String × String)) :
    pairs.length ≤ (textLines pairs).toList.length := by
  induction pairs with
  | nil => exact Nat.le_refl 0
  | cons pair pairs ih =>
      have hpos : 0 < (textLine pair).toList.length := by
        simp only [textLine, String.toList_append, List.length_append]
        exact Nat.succ_pos _
      rw [toList_textLines_cons, List.length_append, List.length_cons]
      omega

/-- A document of lines with different keys is read back as these keys with their texts. -/
theorem parse?_textLines (hkeys : ∀ pair ∈ pairs, IsBareKey pair.1)
    (hdistinct : (pairs.map (·.1)).Nodup) :
    parse? (textLines pairs) = some (pairs.map fun (key, text) => (key, .text text)) := by
  have hmark (after : List Char) : (textLines pairs).toList ≠ '\uFEFF' :: after := by
    cases pairs with
    | nil => simp [textLines]
    | cons pair pairs =>
        obtain ⟨c, cs, hfront, hbare⟩ := textLine_front (hkeys pair List.mem_cons_self)
        rw [toList_textLines_cons, hfront, List.cons_append]
        intro heq
        exact ne_of_isBareKeyChar hbare (by decide) (List.cons_eq_cons.mp heq).1
  have hlines : lines? ((textLines pairs).toList.length + 1) (textLines pairs).toList =
      some ((pairs.map fun (key, text) => (⟨[], key⟩, .text text)).map
        fun (path, value) => .pair path value) := by
    rw [lines?_textLines hkeys (Nat.lt_succ_of_le (length_le_textLines pairs)), List.map_map]
    rfl
  have hfill : Draft.Entries.fill [] (pairs.map fun (key, text) => (⟨[], key⟩, .text text)) =
      some ([] ++ pairs.map fun (key, text) => (key, .closed (.text text))) :=
    fill_texts [] (by simpa using hdistinct)
  have hclose : Draft.closeEntries ([] ++ pairs.map fun (key, text) => (key, .closed (.text text))) =
      pairs.map fun (key, text) => (key, .text text) := by
    rw [Draft.closeEntries_eq, List.nil_append, List.map_map]
    rfl
  unfold parse?
  split
  · next after heq => exact absurd heq (hmark after)
  · simp only [hlines, sections_pairs, hfill, Option.bind_eq_bind, Option.bind_some,
      List.foldlM_nil, pure, hclose]

end Lines

end Toml

namespace Settings

/-- Settings are shown as a line for the mode, and one for the output path if there is one. -/
theorem toToml_eq_textLines (settings : Settings) :
    settings.toToml = Toml.textLines
      (("rule_commit", settings.mode.keyword) :: settings.output.toList.map ("output", ·)) := by
  have hshown : settings.toToml = Toml.textLine ("rule_commit", settings.mode.keyword) ++
      settings.output.elim "" fun path => Toml.textLine ("output", path) := by
    rcases settings with ⟨mode, _ | path⟩
    · rfl
    · rfl
  rw [hshown, Toml.textLines]
  cases settings.output with
  | none => simp
  | some path => simp

theorem isBareKey_mode : Toml.IsBareKey "rule_commit" := by
  constructor
  · decide
  · exact List.all_eq_true.mp (by decide)

theorem isBareKey_output : Toml.IsBareKey "output" := by
  constructor
  · decide
  · exact List.all_eq_true.mp (by decide)

theorem parse?_toToml (settings : Settings) :
    Toml.parse? settings.toToml = some (("rule_commit", .text settings.mode.keyword) ::
      settings.output.toList.map fun path => ("output", .text path)) := by
  rw [toToml_eq_textLines, Toml.parse?_textLines]
  · simp
  · intro pair hpair
    obtain rfl | hpair := List.mem_cons.mp hpair
    · exact isBareKey_mode
    · obtain ⟨path, -, rfl⟩ := List.mem_map.mp hpair
      exact isBareKey_output
  · cases settings.output with
    | none => simp
    | some path => simp

/-- A document of shown settings says what they are, and nothing of an output path if they have
none. -/
theorem ofToml_toToml (settings : Settings) :
    SettingsLayer.ofToml settings.toToml = .ok ⟨some settings.mode, settings.output⟩ := by
  rw [SettingsLayer.ofToml_eq_ok_iff]
  refine ⟨_, parse?_toToml settings, ?_, ?_⟩
  · exact ⟨settings.mode, .text settings.mode, rfl⟩
  · cases settings.output with
    | none => rfl
    | some path => exact ⟨path, rfl, rfl⟩

variable {S : Type} [FileAccess (StateM S)] [Store S]

/-- An environment that sets neither field says nothing. -/
theorem ofEnvironment_eq_empty {environment : Environment}
    (hmode : ∀ name, ¬ environment.Sets "pfsettings_rule_commit" name)
    (houtput : ∀ path, ¬ environment.Sets "pfsettings_output" path) :
    SettingsLayer.ofEnvironment environment = .ok .empty := by
  have hunset {key : String} (h : ∀ value, ¬ environment.Sets key value) :
      environment.AtMostOne key := by
    have hnone : environment.entries.filter (·.1.toLower == key) = [] := by
      rw [List.filter_eq_nil_iff]
      intro entry hentry hname
      exact h entry.2 ⟨entry.1, hentry, beq_iff_eq.mp hname⟩
    rw [Environment.AtMostOne, hnone]
    exact Nat.zero_le 1
  apply (SettingsLayer.ofEnvironment_eq_ok_iff (hunset hmode) (hunset houtput)).mpr
  refine ⟨fun mode => ?_, fun path => ?_, fun name hsets => absurd hsets (hmode name)⟩
  · simp [SettingsLayer.empty, hmode]
  · simp [SettingsLayer.empty, houtput]

/-- Shown settings that are the file of a directory are loaded as they were shown, over any file of
the user's that can be loaded: the mode is theirs, and so is the output path with variables put in
once; without one it is the path of the user's file. -/
theorem shown_settings_load_back (store : S) (environment : Environment) (directory : String)
    (settings : Settings) (user : SettingsLayer)
    (huser : FileSays store (userFile? environment) user)
    (hthere : Store.present store (fileIn directory) = true)
    (hshown : Store.read store (fileIn directory) = .ok settings.toToml)
    (hmode : ∀ name, ¬ environment.Sets "pfsettings_rule_commit" name)
    (houtput : ∀ path, ¬ environment.Sets "pfsettings_output" path) :
    outcome store (load environment (some directory)) =
      (.ok ⟨settings.mode, (settings.output.or user.output).map environment.expand⟩, store) := by
  have hshows : layerIn store (some (fileIn directory)) =
      .ok ⟨some settings.mode, settings.output⟩ := by
    rw [layerIn, if_pos hthere, hshown]
    simp only [ofToml_toToml]
    rfl
  rw [outcome_load, layerIn_eq_ok_iff.mpr huser, Option.map_some, hshows,
    ofEnvironment_eq_empty hmode houtput]
  cases settings.output with
  | none => simp [bind, Except.bind, pure, Except.pure, ofLayers, SettingsLayer.empty]
  | some path => simp [bind, Except.bind, pure, Except.pure, ofLayers, SettingsLayer.empty]

/-- A path with quotes of both kinds, a backslash, line breaks and a control character is loaded back
over a file of the user's that names another one. -/
theorem shown_path_of_quotes_loads_back :
    let environment : Environment := ⟨[("HOME", "/h")], none⟩
    let settings : Settings := ⟨.once, some "\n\"'''\\\r\n\x01\"\"\"\"\""⟩
    let files : MemoryFiles :=
      ⟨[("/h/.config/pfsettings/pfsettings.toml", "output='~/g'"),
        ("/w/.pfsettings.toml", settings.toToml)], [], []⟩
    FileSays files (userFile? environment) ⟨none, some "~/g"⟩ ∧
      Store.present files (fileIn "/w") = true ∧
      Store.read files (fileIn "/w") = .ok settings.toToml ∧
      (∀ name, ¬ environment.Sets "pfsettings_rule_commit" name) ∧
      (∀ path, ¬ environment.Sets "pfsettings_output" path) ∧
      outcome files (load environment (some "/w")) = (.ok settings, files) := by
  intro environment settings files
  have hown : userFile? environment = some "/h/.config/pfsettings/pfsettings.toml" := by
    decide +kernel
  have hlocal : fileIn "/w" = "/w/.pfsettings.toml" := by decide +kernel
  have hapart : Path.same "/w/.pfsettings.toml" "/h/.config/pfsettings/pfsettings.toml" = false := by
    simp only [Path.same, Path.components, Path.parts_eq_splitOn]
    decide +kernel
  have htext : files.text? "/h/.config/pfsettings/pfsettings.toml" = some "output='~/g'" := by
    simp [MemoryFiles.text?_eq, files, Path.same]
  have hwritten : files.text? "/w/.pfsettings.toml" = some settings.toToml := by
    simp only [MemoryFiles.text?_eq, files, List.find?_cons, hapart]
    simp [Path.same]
  have huser : FileSays files (userFile? environment) ⟨none, some "~/g"⟩ := by
    rw [hown, ← layerIn_eq_ok_iff, layerIn, if_pos (MemoryFiles.present_of_text? htext),
      MemoryFiles.read_of_text? htext rfl]
    decide +kernel
  have hthere : Store.present files (fileIn "/w") = true :=
    hlocal ▸ MemoryFiles.present_of_text? hwritten
  have hshown : Store.read files (fileIn "/w") = .ok settings.toToml :=
    hlocal ▸ MemoryFiles.read_of_text? hwritten rfl
  have hunset (key value : String) (hkey : "HOME".toLower ≠ key) :
      ¬ environment.Sets key value := by
    rintro ⟨name, hmem, hname⟩
    obtain ⟨rfl, -⟩ : name = "HOME" ∧ value = "/h" := by simpa [environment] using hmem
    exact hkey hname
  have hmode (name : String) := hunset "pfsettings_rule_commit" name (by decide +kernel)
  have houtput (path : String) := hunset "pfsettings_output" path (by decide +kernel)
  have hload := shown_settings_load_back files environment "/w" settings _ huser hthere hshown
    hmode houtput
  have hexpand : (settings.output.or (some "~/g")).map environment.expand = settings.output := by
    decide +kernel
  rw [hexpand] at hload
  exact ⟨huser, hthere, hshown, hmode, houtput, hload⟩

end Settings

end SettingsLang
