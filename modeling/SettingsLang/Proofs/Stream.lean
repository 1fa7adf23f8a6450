import SettingsLang.Proofs.OpenLevels

/-!
Well-formed command streams. The framework that reads a stream keeps in mind the domain and the
configuration that were created last; a stream is well formed if every command fits what is in
mind when it comes. What a command needs of the commands before it is said first, one command at a
time; the properties of a whole stream, of which some speak of a stretch between two commands,
follow from it.
-/

namespace SettingsLang

namespace Command

def paths : Command → List NamePath
  | .createDomain domain => [domain]
  | .createConfiguration domain conf | .setRule domain conf _ | .setParameter domain conf _ _ =>
    [domain, conf]

/-- Every path in the command is one that a command can show. -/
def PathsValid (command : Command) : Prop :=
  ∀ path ∈ command.paths, path.Valid

def createdDomain? : Command → Option NamePath
  | .createDomain domain => some domain
  | _ => none

/-- Domain and configuration of a command that assigns, that is one that creates nothing. -/
def target? : Command → Option (NamePath × NamePath)
  | .setRule domain conf _ | .setParameter domain conf _ _ => some (domain, conf)
  | .createDomain .. | .createConfiguration .. => none

def isCreateConfiguration : Command → Bool
  | .createConfiguration .. => true
  | _ => false

def isSetRule : Command → Bool
  | .setRule .. => true
  | _ => false

def isSetParameter : Command → Bool
  | .setParameter .. => true
  | _ => false

end Command

/-- The domain that was created last. -/
def latestDomain? (stream : List Command) : Option NamePath :=
  (stream.filterMap Command.createdDomain?).getLast?

/-- The stream creates a configuration and from then on only assigns. -/
def AssigningTo (domain conf : NamePath) (since stream : List Command) : Prop :=
  ∃ earlier, stream = earlier ++ .createConfiguration domain conf :: since ∧
    ∀ command ∈ since, command.target?.isSome = true

/-- What a command needs of the commands before it. -/
structure Command.Follows (mode : CommitMode) (before : List Command) (command : Command) :
    Prop where
  paths_valid : ∀ path ∈ command.paths, path.Valid
  latest_domain : ∀ domain conf, command = .createConfiguration domain conf →
    latestDomain? before = some domain
  latest_configuration : ∀ domain conf, command.target? = some (domain, conf) →
    ∃ since, AssigningTo domain conf since before
  rules_before_value : mode = .everySet → ∀ domain conf parameter value,
    command = .setParameter domain conf parameter value →
      ∃ earlier rules, before = earlier ++ [.setRule domain conf rules]
  rules_first : mode = .once → ∀ domain conf rules, command = .setRule domain conf rules →
    ∃ earlier, before = earlier ++ [.createConfiguration domain conf]
  values_after_rules : mode = .once → ∀ domain conf parameter value,
    command = .setParameter domain conf parameter value →
      ∃ rules since, AssigningTo domain conf (.setRule domain conf rules :: since) before ∧
        ∀ other ∈ since, other.isSetParameter = true

/-- Every command of the stream has what it needs before it. -/
def EachFollows (mode : CommitMode) (stream : List Command) : Prop :=
  ∀ before command after, stream = before ++ command :: after → command.Follows mode before

/-- A stream that the framework can read from left to right. -/
structure WellFormedStream (mode : CommitMode) (stream : List Command) : Prop where
  /-- Every path is non-empty and made of valid names. -/
  paths_valid : ∀ command ∈ stream, ∀ path ∈ command.paths, path.Valid
  /-- A configuration is created in the domain created last. -/
  latest_domain : ∀ before after domain conf,
    stream = before ++ .createConfiguration domain conf :: after →
      latestDomain? before = some domain
  /-- An assignment names the configuration created last, and no domain was created since. -/
  latest_configuration : ∀ before command after domain conf,
    stream = before ++ command :: after → command.target? = some (domain, conf) →
      ∃ earlier since, before = earlier ++ .createConfiguration domain conf :: since ∧
        ∀ other ∈ since, other.createdDomain? = none ∧ other.isCreateConfiguration = false
  /-- In mode `everySet` the rules come directly before each value. -/
  rules_before_value : mode = .everySet → ∀ before after domain conf parameter value,
    stream = before ++ .setParameter domain conf parameter value :: after →
      ∃ earlier rules, before = earlier ++ [.setRule domain conf rules]
  /-- In mode `once` the rules come at most once after a configuration is created, and before
  every value. -/
  rules_once : mode = .once → ∀ before stretch after domain conf,
    stream = before ++ .createConfiguration domain conf :: (stretch ++ after) →
      (∀ command ∈ stretch, command.isCreateConfiguration = false) →
        stretch.countP (·.isSetRule) ≤ 1 ∧
        ∀ earlier command later, stretch = earlier ++ command :: later →
          command.isSetParameter = true →
            (∃ other ∈ earlier, other.isSetRule = true) ∧
              ∀ other ∈ later, other.isSetRule = false

theorem Command.paths_of_target {command : Command} {domain conf : NamePath}
    (h : command.target? = some (domain, conf)) : command.paths = [domain, conf] := by
  cases command <;> simp_all [target?, paths]

theorem latestDomain?_append_singleton (stream : List Command) (command : Command) :
    latestDomain? (stream ++ [command]) = command.createdDomain?.or (latestDomain? stream) := by
  unfold latestDomain?
  cases h : command.createdDomain? <;> simp [List.filterMap_append, h]

/-- The commands since the last one of a kind are determined by the stream. -/
theorem since_unique (kind : Command → Bool) {earlier earlier' since since' : List Command}
    {command command' : Command}
    (hstream : earlier ++ command :: since = earlier' ++ command' :: since')
    (hkind : kind command = true) (hkind' : kind command' = true)
    (hsince : ∀ other ∈ since, kind other = false)
    (hsince' : ∀ other ∈ since', kind other = false) : since = since' := by
  -- read from the end, both are what comes before the first command of the kind
  have hread (first last : List Command) (middle : Command) (hmiddle : kind middle = true)
      (hlast : ∀ other ∈ last, kind other = false) :
      (first ++ middle :: last).reverse.takeWhile (!kind ·) = last.reverse := by
    rw [List.reverse_append, List.reverse_cons, List.append_assoc, List.takeWhile_append_of_pos]
    · simp [hmiddle]
    · simpa using hlast
  apply List.reverse_inj.mp
  rw [← hread earlier since command hkind hsince, hstream,
    hread earlier' since' command' hkind' hsince']

/-- What holds of each entry of a list and the entries before it holds in the longer list if it
holds of the new entry. -/
theorem forall_split_snoc {α : Type} {P : List α → α → Prop} {list : List α} {new : α}
    (h : ∀ before entry after, list = before ++ entry :: after → P before entry)
    (hnew : P list new) :
    ∀ before entry after, list ++ [new] = before ++ entry :: after → P before entry := by
  intro before entry after hsplit
  rcases List.eq_nil_or_concat after with rfl | ⟨rest, last, rfl⟩
  · obtain ⟨rfl, hentry⟩ := List.append_inj' hsplit rfl
    simp only [List.cons.injEq, and_true] at hentry
    exact hentry ▸ hnew
  · rw [List.concat_eq_append, ← List.cons_append, ← List.append_assoc] at hsplit
    exact h before entry rest (List.append_inj' hsplit rfl).1

namespace EachFollows

variable {mode : CommitMode} {stream : List Command}

theorem nil (mode : CommitMode) : EachFollows mode [] := by
  intro before command after h
  simp at h

theorem snoc {command : Command} (h : EachFollows mode stream)
    (hcommand : command.Follows mode stream) : EachFollows mode (stream ++ [command]) :=
  forall_split_snoc h hcommand

/-- In mode `once` rules come directly after a configuration is created, hence in a stretch
without such a command only at its start. -/
theorem earlier_nil_of_setRule (h : EachFollows mode stream) (hmode : mode = .once)
    (before earlier after : List Command) {domain conf : NamePath} {command : Command}
    (hstream : stream = before ++ .createConfiguration domain conf :: (earlier ++ command :: after))
    (hstretch : ∀ other ∈ earlier, other.isCreateConfiguration = false)
    (hcommand : command.isSetRule = true) : earlier = [] := by
  cases command with
  | setRule domain' conf' rules =>
      have hfollows := h (before ++ .createConfiguration domain conf :: earlier) _ after
        (by simpa using hstream)
      obtain ⟨rest, hrest⟩ := hfollows.rules_first hmode domain' conf' rules rfl
      rcases List.eq_nil_or_concat earlier with hnil | ⟨front, last, rfl⟩
      · exact hnil
      · rw [List.concat_eq_append, ← List.cons_append, ← List.append_assoc] at hrest
        have hlast := (List.append_inj' hrest rfl).2
        simp only [List.cons.injEq, and_true] at hlast
        have hfalse := hstretch last (by simp)
        simp [hlast, Command.isCreateConfiguration] at hfalse
  | createDomain _ | createConfiguration _ _ | setParameter _ _ _ _ =>
      simp [Command.isSetRule] at hcommand

theorem setRule_before_value (h : EachFollows mode stream) (hmode : mode = .once)
    {before earlier after : List Command} {domain conf : NamePath} {command : Command}
    (hstream : stream = before ++ .createConfiguration domain conf :: (earlier ++ command :: after))
    (hstretch : ∀ other ∈ earlier, other.isCreateConfiguration = false)
    (hcommand : command.isSetParameter = true) :
    ∃ other ∈ earlier, other.isSetRule = true := by
  cases command with
  | setParameter domain' conf' parameter value =>
      have hfollows := h (before ++ .createConfiguration domain conf :: earlier) _ after
        (by simpa using hstream)
      obtain ⟨rules, since, ⟨front, hfront, hassign⟩, -⟩ :=
        hfollows.values_after_rules hmode domain' conf' parameter value rfl
      have hsince : earlier = .setRule domain' conf' rules :: since := by
        refine since_unique Command.isCreateConfiguration hfront rfl rfl hstretch ?_
        intro other hother
        have hsome := hassign other hother
        cases other <;> simp_all [Command.isCreateConfiguration, Command.target?]
      exact ⟨.setRule domain' conf' rules, by simp [hsince], rfl⟩
  | createDomain _ | createConfiguration _ _ | setRule _ _ _ =>
      simp [Command.isSetParameter] at hcommand

theorem rules_once (h : EachFollows mode stream) (hmode : mode = .once)
    {before stretch after : List Command} {domain conf : NamePath}
    (hstream : stream = before ++ .createConfiguration domain conf :: (stretch ++ after))
    (hstretch : ∀ command ∈ stretch, command.isCreateConfiguration = false) :
    stretch.countP (·.isSetRule) ≤ 1 ∧
      ∀ earlier command later, stretch = earlier ++ command :: later →
        command.isSetParameter = true →
          (∃ other ∈ earlier, other.isSetRule = true) ∧
            ∀ other ∈ later, other.isSetRule = false := by
  -- rules anywhere but at the start of the stretch would have a command of the stretch before them
  have hlate (first last : List Command) (middle : Command)
      (hsplit : stretch = first ++ middle :: last) :
      ∀ other ∈ last, other.isSetRule = false := by
    intro other hother
    obtain ⟨front, back, rfl⟩ := List.append_of_mem hother
    cases hrule : other.isSetRule with
    | false => rfl
    | true =>
        have hnil := h.earlier_nil_of_setRule hmode before (first ++ middle :: front)
          (back ++ after) (by simpa [hsplit] using hstream) (by
            intro command hcommand
            apply hstretch command
            rw [hsplit, ← List.cons_append, ← List.append_assoc]
            exact List.mem_append_left _ hcommand) hrule
        simp at hnil
  constructor
  · cases stretch with
    | nil => simp
    | cons first rest =>
        have hrest : rest.countP (·.isSetRule) = 0 := by
          rw [List.countP_eq_zero]
          intro other hother
          simp [hlate [] rest first rfl other hother]
        rw [List.countP_cons, hrest]
        split <;> simp
  · intro earlier command later hsplit hcommand
    refine ⟨?_, hlate earlier later command hsplit⟩
    exact h.setRule_before_value hmode (by simpa [hsplit] using hstream)
      (fun other hother => hstretch other (by simp [hsplit, hother])) hcommand

/-- If every command has what it needs before it, the stream as a whole is well formed. -/
theorem wellFormed (h : EachFollows mode stream) : WellFormedStream mode stream where
  paths_valid command hcommand := by
    obtain ⟨before, after, hsplit⟩ := List.append_of_mem hcommand
    exact (h before command after hsplit).paths_valid
  latest_domain before after domain conf hsplit :=
    (h before _ after hsplit).latest_domain domain conf rfl
  latest_configuration before command after domain conf hsplit htarget := by
    obtain ⟨since, earlier, hearlier, hassign⟩ :=
      (h before command after hsplit).latest_configuration domain conf htarget
    refine ⟨earlier, since, hearlier, ?_⟩
    intro other hother
    have hsome := hassign other hother
    cases other <;>
      simp_all [Command.target?, Command.createdDomain?, Command.isCreateConfiguration]
  rules_before_value hmode before after domain conf parameter value hsplit :=
    (h before _ after hsplit).rules_before_value hmode domain conf parameter value rfl
  rules_once hmode _ _ _ _ _ hstream hstretch := h.rules_once hmode hstream hstretch

end EachFollows

end SettingsLang
