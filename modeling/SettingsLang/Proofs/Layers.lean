import SettingsLang.Settings
import SettingsLang.Proofs.DistinctKeys
import SettingsLang.Proofs.Storage

/-!
Layers of settings. Each layer is described on its own: what a document gives for a field, what a
file says or why it is refused, what the environment sets. The settings take each field from the
highest layer that gives it, and the first layer that is refused stops the loading, whatever the
layers over it say.
-/

namespace SettingsLang

open Toml (Value Misfit)

theorem CommitMode.ofKeyword?_eq_some_iff {keyword : String} {mode : CommitMode} :
    ofKeyword? keyword = some mode ↔ keyword = mode.keyword := by
  constructor
  · intro h
    have hkeyword := List.find?_some h
    exact (eq_of_beq hkeyword).symm
  · rintro rfl
    exact ofKeyword?_keyword mode

theorem CommitMode.keyword_inj {first second : CommitMode} :
    first.keyword = second.keyword ↔ first = second := by
  rw [← ofKeyword?_eq_some_iff, ofKeyword?_keyword, Option.some.injEq]

namespace SettingsLayer

/-- A value names a mode: by a text, or by the only key of a table with nothing under it. -/
inductive NamesMode : Value → CommitMode → Prop where
  | text (mode : CommitMode) : NamesMode (.text mode.keyword) mode
  | table (mode : CommitMode) : NamesMode (.table [(mode.keyword, .table [])]) mode
  | array (mode : CommitMode) : NamesMode (.table [(mode.keyword, .array [])]) mode

theorem modeNamed_eq_ok_iff {name : String} {mode : CommitMode} :
    modeNamed name = .ok mode ↔ name = mode.keyword := by
  rw [← CommitMode.ofKeyword?_eq_some_iff, modeNamed]
  cases CommitMode.ofKeyword? name <;> simp

theorem modeOf_eq_ok_iff {value : Value} {mode : CommitMode} :
    modeOf value = .ok mode ↔ NamesMode value mode := by
  constructor
  · intro h
    unfold modeOf at h
    split at h
    · obtain rfl := modeNamed_eq_ok_iff.mp h
      exact .text mode
    · obtain ⟨named, hname, hcontent⟩ := bind_eq_ok_iff.mp h
      obtain rfl := modeNamed_eq_ok_iff.mp hname
      split at hcontent
      · cases hcontent
        exact .table mode
      · cases hcontent
        exact .array mode
      · cases hcontent
    · cases h
  · have hname : modeNamed mode.keyword = .ok mode := modeNamed_eq_ok_iff.mpr rfl
    rintro ⟨⟩ <;> simp [modeOf, hname, bind, Except.bind, pure, Except.pure]

theorem pathOf_eq_ok_iff {value : Value} {path : String} :
    pathOf value = .ok path ↔ value = .text path := by
  cases value <;> simp [pathOf]

/-- A field after a value for it has been read: what the value stands for, or what the field held
before if no value is given. -/
def Gives {α : Type} (given : Option Value) (standsFor : Value → α → Prop)
    (before after : Option α) : Prop :=
  match given with
  | none => after = before
  | some value => ∃ content, standsFor value content ∧ after = some content

/-- What the entries of a document give for the fields, over what was given before. -/
structure GivenBy (entries : List (String × Value)) (before after : SettingsLayer) : Prop where
  mode : Gives (entries.lookup "rule_commit") NamesMode before.mode after.mode
  output : Gives (entries.lookup "output") (fun value path => value = .text path)
    before.output after.output

theorem read_mode (layer : SettingsLayer) (value : Value) :
    layer.read ("rule_commit", value) =
      (modeOf value).map fun mode => { layer with mode := some mode } := by
  cases h : modeOf value <;> simp [read, h, bind, Except.bind, Except.map, pure, Except.pure]

theorem read_output (layer : SettingsLayer) (value : Value) :
    layer.read ("output", value) =
      (pathOf value).map fun path => { layer with output := some path } := by
  cases h : pathOf value <;> simp [read, h, bind, Except.bind, Except.map, pure, Except.pure]

theorem read_other (layer : SettingsLayer) {key : String} (value : Value)
    (hmode : key ≠ "rule_commit") (houtput : key ≠ "output") :
    layer.read (key, value) = .ok layer := by
  unfold read
  split <;> simp_all

theorem givenBy_cons_iff {key : String} {value : Value} {rest : List (String × Value)}
    (hnew : rest.lookup key = none) (before after : SettingsLayer) :
    GivenBy ((key, value) :: rest) before after ↔
      ∃ middle, before.read (key, value) = .ok middle ∧ GivenBy rest middle after := by
  by_cases hmode : key = "rule_commit"
  · subst hmode
    simp only [read_mode, map_eq_ok_iff, modeOf_eq_ok_iff]
    constructor
    · rintro ⟨⟨mode, hnames, hafter⟩, houtput⟩
      exact ⟨_, ⟨mode, hnames, rfl⟩, by rw [hnew]; exact hafter, houtput⟩
    · rintro ⟨_, ⟨mode, hnames, rfl⟩, hafter, houtput⟩
      rw [hnew] at hafter
      exact ⟨⟨mode, hnames, hafter⟩, houtput⟩
  by_cases houtput : key = "output"
  · subst houtput
    simp only [read_output, map_eq_ok_iff, pathOf_eq_ok_iff]
    constructor
    · rintro ⟨hmode, path, htext, hafter⟩
      exact ⟨_, ⟨path, htext, rfl⟩, hmode, by rw [hnew]; exact hafter⟩
    · rintro ⟨_, ⟨path, htext, rfl⟩, hmode, hafter⟩
      rw [hnew] at hafter
      exact ⟨hmode, path, htext, hafter⟩
  have hskip (field : String) (hfield : key ≠ field) :
      ((key, value) :: rest).lookup field = rest.lookup field :=
    Toml.lookup_cons_of_ne hfield.symm value rest
  rw [read_other before value hmode houtput]
  constructor
  · rintro ⟨hmode', houtput'⟩
    rw [hskip _ hmode] at hmode'
    rw [hskip _ houtput] at houtput'
    exact ⟨before, rfl, hmode', houtput'⟩
  · rintro ⟨_, ⟨⟩, hmode', houtput'⟩
    rw [← hskip _ hmode] at hmode'
    rw [← hskip _ houtput] at houtput'
    exact ⟨hmode', houtput'⟩

theorem foldlM_read_iff {entries : List (String × Value)} (hkeys : (entries.map (·.1)).Nodup)
    (before after : SettingsLayer) :
    entries.foldlM read before = .ok after ↔ GivenBy entries before after := by
  induction entries generalizing before with
  | nil =>
      constructor
      · rintro ⟨⟩
        exact ⟨rfl, rfl⟩
      · rintro ⟨hmode, houtput⟩
        cases after
        cases before
        cases hmode
        cases houtput
        rfl
  | cons entry rest ih =>
      obtain ⟨key, value⟩ := entry
      obtain ⟨hkey, hrest⟩ := List.nodup_cons.mp hkeys
      rw [List.foldlM_cons, bind_eq_ok_iff, givenBy_cons_iff (Toml.lookup_eq_none_of_notMem hkey)]
      simp only [ih hrest]

/-- A document says what its entries give. It says nothing of a field that it has no entry for. -/
theorem ofToml_eq_ok_iff {document : String} {layer : SettingsLayer} :
    ofToml document = .ok layer ↔
      ∃ entries, Toml.parse? document = some entries ∧ GivenBy entries .empty layer := by
  rw [ofToml, Toml.decode]
  cases hread : Toml.parse? document with
  | none => simp
  | some entries =>
      have hkeys : (entries.map (·.1)).Nodup := by
        cases Toml.keysDistinct_of_parse? hread with
        | table keys _ => exact keys
      simp only [Option.some.injEq, exists_eq_left', mapError_eq_ok_iff]
      exact foldlM_read_iff hkeys .empty layer

end SettingsLayer

namespace Environment

/-- A variable has a value, and its name is a key but for case. -/
def Sets (environment : Environment) (key value : String) : Prop :=
  ∃ name, (name, value) ∈ environment.entries ∧ name.toLower = key

/-- No two variables have names that are the same key but for case. -/
def AtMostOne (environment : Environment) (key : String) : Prop :=
  (environment.entries.filter (·.1.toLower == key)).length ≤ 1

instance (environment : Environment) (key : String) : Decidable (environment.AtMostOne key) :=
  inferInstanceAs (Decidable (_ ≤ 1))

/-- What an environment sets. It may not set a mode that there is none of. -/
structure Says (environment : Environment) (layer : SettingsLayer) : Prop where
  mode (mode : CommitMode) :
    layer.mode = some mode ↔ environment.Sets "pfsettings_rule_commit" mode.keyword
  output (path : String) : layer.output = some path ↔ environment.Sets "pfsettings_output" path
  known (name : String) : environment.Sets "pfsettings_rule_commit" name →
    ∃ mode : CommitMode, name = mode.keyword

end Environment

namespace SettingsLayer

variable {environment : Environment}

/-- Where no point has come in, there were no two underscores together. -/
theorem pointed_eq_self {cs : List Char} (h : '.' ∉ pointed cs) : pointed cs = cs := by
  induction cs using pointed.induct with
  | case1 => rfl
  | case2 rest ih => simp [pointed] at h
  | case3 c rest hsingle ih =>
      have hcons : pointed (c :: rest) = c :: pointed rest := by
        rw [pointed]
        exact hsingle
      rw [hcons, List.mem_cons, not_or] at h
      rw [hcons, ih h.2]

/-- A key without points and without two underscores together: no tables are around it. -/
structure PlainKey (key : String) : Prop where
  noPoint : '.' ∉ key.toList
  single : pointed key.toList = key.toList

theorem plainKey_mode : PlainKey "rule_commit" :=
  ⟨by decide, by decide⟩

theorem plainKey_output : PlainKey "output" :=
  ⟨by decide, by decide⟩

/-- But for case, one name only stands for a plain key. -/
theorem keyOf?_eq_some_iff {key name : String} (hkey : PlainKey key) :
    keyOf? name = some key ↔ name.toLower = "pfsettings_" ++ key := by
  have hname : name.toLower = "pfsettings_" ++ key ↔
      "pfsettings_".toList ++ key.toList = name.toLower.toList := by
    rw [← String.toList_inj, String.toList_append, eq_comm]
  rw [hname, keyOf?, Option.map_eq_some_iff]
  constructor
  · rintro ⟨rest, hrest, rfl⟩
    have hplain : (String.ofList (pointed rest)).toList = rest := by
      have hpoint := hkey.noPoint
      rw [String.toList_ofList] at hpoint ⊢
      exact pointed_eq_self hpoint
    rw [hplain]
    exact List.isPrefixOf?_eq_some_iff_append_eq.mp hrest
  · intro hrest
    refine ⟨key.toList, List.isPrefixOf?_eq_some_iff_append_eq.mpr hrest, ?_⟩
    rw [hkey.single, String.ofList_toList]

/-- Two underscores together lead to a key below another one. -/
example : keyOf? "PFSETTINGS_OUTPUT__X" = some "output.x" := by decide +kernel

theorem valueAt?_eq_some_iff {key value : String} (hkey : PlainKey key)
    (h : environment.AtMostOne ("pfsettings_" ++ key)) :
    valueAt? environment key = some value ↔ environment.Sets ("pfsettings_" ++ key) value := by
  have hsets : environment.Sets ("pfsettings_" ++ key) value ↔
      ∃ entry ∈ environment.entries.filter (·.1.toLower == "pfsettings_" ++ key),
        entry.2 = value := by
    simp [Environment.Sets]
  have hfound : environment.entries.filter (keyOf? ·.1 == some key) =
      environment.entries.filter (·.1.toLower == "pfsettings_" ++ key) := by
    apply List.filter_congr
    intro entry _
    rw [Bool.eq_iff_iff, beq_iff_eq, beq_iff_eq, keyOf?_eq_some_iff hkey]
  rw [hsets, valueAt?, hfound]
  rw [Environment.AtMostOne] at h
  generalize environment.entries.filter (·.1.toLower == "pfsettings_" ++ key) = found at h ⊢
  rcases found with _ | ⟨entry, _ | ⟨other, rest⟩⟩
  · simp
  · simp
  · simp at h

theorem modeAt_eq_some_iff (h : environment.AtMostOne "pfsettings_rule_commit") {value : String} :
    valueAt? environment "rule_commit" = some value ↔
      environment.Sets "pfsettings_rule_commit" value :=
  valueAt?_eq_some_iff plainKey_mode h

theorem outputAt_eq_some_iff (h : environment.AtMostOne "pfsettings_output") {value : String} :
    valueAt? environment "output" = some value ↔ environment.Sets "pfsettings_output" value :=
  valueAt?_eq_some_iff plainKey_output h

theorem ofEnvironment_cases (environment : Environment) :
    (∃ mode : Option CommitMode,
      valueAt? environment "rule_commit" = mode.map CommitMode.keyword ∧
      ofEnvironment environment = .ok ⟨mode, valueAt? environment "output"⟩) ∨
    ∃ name, valueAt? environment "rule_commit" = some name ∧
      (∀ mode : CommitMode, name ≠ mode.keyword) ∧
      ofEnvironment environment = .error (.config (CommitMode.unknownMessage name)) := by
  unfold ofEnvironment
  cases valueAt? environment "rule_commit" with
  | none => exact Or.inl ⟨none, rfl, rfl⟩
  | some name =>
      cases hmode : CommitMode.ofKeyword? name with
      | none =>
          refine Or.inr ⟨name, rfl, fun mode hname => ?_, by simp [hmode, bind, Except.bind]⟩
          rw [CommitMode.ofKeyword?_eq_some_iff.mpr hname] at hmode
          cases hmode
      | some mode =>
          refine Or.inl ⟨some mode, ?_, by simp [hmode, bind, Except.bind, pure, Except.pure]⟩
          rw [CommitMode.ofKeyword?_eq_some_iff.mp hmode]
          rfl

theorem says_of_valueAt? (hmode : environment.AtMostOne "pfsettings_rule_commit")
    (houtput : environment.AtMostOne "pfsettings_output") {mode : Option CommitMode}
    (h : valueAt? environment "rule_commit" = mode.map CommitMode.keyword) :
    environment.Says ⟨mode, valueAt? environment "output"⟩ where
  mode other := by
    rw [← modeAt_eq_some_iff hmode, h]
    cases mode <;> simp [CommitMode.keyword_inj]
  output path := outputAt_eq_some_iff houtput
  known name hsets := by
    rw [← modeAt_eq_some_iff hmode, h] at hsets
    obtain ⟨mode, -, rfl⟩ := Option.map_eq_some_iff.mp hsets
    exact ⟨mode, rfl⟩

theorem says_unique {first second : SettingsLayer} (hfirst : environment.Says first)
    (hsecond : environment.Says second) : first = second := by
  have hmode : first.mode = second.mode :=
    Option.ext fun mode => (hfirst.mode mode).trans (hsecond.mode mode).symm
  have houtput : first.output = second.output :=
    Option.ext fun path => (hfirst.output path).trans (hsecond.output path).symm
  cases first
  cases second
  simp_all

theorem ofEnvironment_eq_ok_iff (hmode : environment.AtMostOne "pfsettings_rule_commit")
    (houtput : environment.AtMostOne "pfsettings_output") {layer : SettingsLayer} :
    ofEnvironment environment = .ok layer ↔ environment.Says layer := by
  obtain ⟨mode, hnamed, hread⟩ | ⟨name, hnamed, hunknown, hread⟩ := ofEnvironment_cases environment
  · have hsays := says_of_valueAt? hmode houtput hnamed
    rw [hread, Except.ok.injEq]
    constructor
    · rintro rfl
      exact hsays
    · exact says_unique hsays
  · rw [hread]
    constructor
    · rintro ⟨⟩
    · intro hsays
      obtain ⟨mode, hname⟩ := hsays.known name ((modeAt_eq_some_iff hmode).mp hnamed)
      exact absurd hname (hunknown mode)

end SettingsLayer

namespace Settings

variable {S : Type} [FileAccess (StateM S)] [Store S]

/-- What a file that may be given says. Without one, and where there is none, nothing is said. -/
inductive FileSays (store : S) : Option String → SettingsLayer → Prop where
  | unasked : FileSays store none .empty
  | absent {path : String} (nothing : Store.present store path = false) :
      FileSays store (some path) .empty
  | document {path document : String} {entries : List (String × Value)} {layer : SettingsLayer}
      (there : Store.present store path = true) (text : Store.read store path = .ok document)
      (wellFormed : Toml.parse? document = some entries)
      (given : SettingsLayer.GivenBy entries .empty layer) : FileSays store (some path) layer

/-- What a file says, or why it is refused. -/
def layerIn (store : S) : Option String → Except Failure SettingsLayer
  | none => .ok .empty
  | some path =>
    if Store.present store path then
      match Store.read store path with
      | .error cause => .error (.config s!"read {path}: {cause}")
      | .ok document =>
        (SettingsLayer.ofToml document).mapError fun fault =>
          .config s!"parse {path}: {fault.message}"
    else .ok .empty

theorem layerIn_eq_ok_iff {store : S} {path? : Option String} {layer : SettingsLayer} :
    layerIn store path? = .ok layer ↔ FileSays store path? layer := by
  constructor
  · intro h
    unfold layerIn at h
    split at h
    · cases h
      exact .unasked
    · split at h
      · next hthere =>
          split at h
          · cases h
          · next document htext =>
              obtain ⟨entries, hparse, hgiven⟩ :=
                SettingsLayer.ofToml_eq_ok_iff.mp (mapError_eq_ok_iff.mp h)
              exact .document hthere htext hparse hgiven
      · next hnothing =>
          cases h
          exact .absent (by simpa using hnothing)
  · intro h
    cases h with
    | unasked => rfl
    | absent hnothing => rw [layerIn, hnothing, if_neg (by decide)]
    | document hthere htext hparse hgiven =>
        rw [layerIn, if_pos hthere, htext]
        exact mapError_eq_ok_iff.mpr (SettingsLayer.ofToml_eq_ok_iff.mpr ⟨_, hparse, hgiven⟩)

theorem outcome_layerOf? (store : S) (path? : Option String) :
    outcome store (layerOf? path?) = (layerIn store path?, store) := by
  cases path? with
  | none => rfl
  | some path =>
      unfold layerOf? layerOf layerIn
      simp only [outcome_bind, outcome_liftM, Store.present_run]
      cases Store.present store path with
      | false => rfl
      | true =>
          simp only [if_true, outcome_bind, outcome_liftM, Store.readText_run]
          cases Store.read store path with
          | error cause => rfl
          | ok document =>
              dsimp only
              cases SettingsLayer.ofToml document <;> rfl

/-- The settings that layers make, the highest first: each field is that of the highest layer that
gives it. Variables are put into the output path of that layer alone. -/
def ofLayers (environment : Environment) (layers : List SettingsLayer) : Settings :=
  ⟨(layers.findSome? (·.mode)).getD .everySet,
    (layers.findSome? (·.output)).map environment.expand⟩

theorem overlay_eq_ofLayers (environment : Environment) (user around own : SettingsLayer) :
    (((default.overlay user).overlay around).overlay own).expand environment =
      ofLayers environment [own, around, user] := by
  obtain ⟨userMode, userOutput⟩ := user
  obtain ⟨aroundMode, aroundOutput⟩ := around
  obtain ⟨ownMode, ownOutput⟩ := own
  have hmode : ownMode.getD (aroundMode.getD (userMode.getD CommitMode.default)) =
      (([⟨ownMode, ownOutput⟩, ⟨aroundMode, aroundOutput⟩, ⟨userMode, userOutput⟩] :
        List SettingsLayer).findSome? (·.mode)).getD .everySet := by
    cases ownMode <;> cases aroundMode <;> cases userMode <;> rfl
  have houtput : (ownOutput <|> aroundOutput <|> userOutput <|> none) =
      ([⟨ownMode, ownOutput⟩, ⟨aroundMode, aroundOutput⟩, ⟨userMode, userOutput⟩] :
        List SettingsLayer).findSome? (·.output) := by
    cases ownOutput <;> cases aroundOutput <;> cases userOutput <;> rfl
  simp only [ofLayers, ← hmode, ← houtput]
  rfl

theorem outcome_load (store : S) (environment : Environment) (directory : Option String) :
    outcome store (load environment directory) =
      (do
        let user ← layerIn store (userFile? environment)
        let around ← layerIn store (directory.map fileIn)
        let own ← SettingsLayer.ofEnvironment environment
        return ofLayers environment [own, around, user], store) := by
  unfold load
  simp only [outcome_bind, outcome_layerOf?, outcome_liftExcept, outcome_pure,
    overlay_eq_ofLayers]
  cases layerIn store (userFile? environment) with
  | error failure => rfl
  | ok user =>
      dsimp only
      cases layerIn store (directory.map fileIn) with
      | error failure => rfl
      | ok around =>
          dsimp only
          cases SettingsLayer.ofEnvironment environment <;> rfl

end Settings

end SettingsLang
