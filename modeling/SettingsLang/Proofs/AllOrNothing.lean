import SettingsLang.CommandLine.Run
import SettingsLang.Proofs.Generating
import SettingsLang.Proofs.Layers

/-!
What a call to generate does to a disk. The settings are loaded, the description is read and all its
commands are sent before anything is written or printed, so a call that fails on the way leaves
every file as it was and prints nothing. A call that succeeds prints the commands or changes the one
file that it was told.
-/

namespace SettingsLang

namespace Disk

variable {disk after : Disk} {place other : Place}

/-- The bytes of the file at a place, if there is one. -/
def fileAt? (disk : Disk) (place : Place) : Option ByteArray :=
  match disk.entry? place with
  | some (.file bytes) => some bytes
  | _ => none

/-- Every file is as it was, and there is none that was not there. Directories may have been
made. -/
def SameFiles (disk after : Disk) : Prop :=
  ∀ place, after.fileAt? place = disk.fileAt? place

theorem SameFiles.refl (disk : Disk) : SameFiles disk disk :=
  fun _ => rfl

theorem SameFiles.trans {middle : Disk} (h : SameFiles disk middle) (h' : SameFiles middle after) :
    SameFiles disk after :=
  fun place => (h' place).trans (h place)

theorem fileAt?_put_of_ne (h : other ≠ place) (entry : DiskEntry) :
    (disk.put place entry).fileAt? other = disk.fileAt? other := by
  rw [fileAt?, held_put_of_ne h, fileAt?]

theorem sameFiles_put_directory (hnew : disk.entry? place = none) :
    SameFiles disk (disk.put place .directory) := by
  intro other
  by_cases h : other = place
  · subst h
    have hplace : other ≠ [] := by
      rintro rfl
      cases hnew
    rw [fileAt?, held_put_self hplace, fileAt?, hnew]
  · exact fileAt?_put_of_ne h .directory

/-- A directory is made where nothing was. -/
theorem sameFiles_makeDirectory {path : List Path.Component}
    (h : disk.makeDirectory path = .ok after) : SameFiles disk after := by
  obtain ⟨around, -, h⟩ := bind_eq_ok_iff.mp h
  split at h
  · obtain ⟨place, -, h⟩ := bind_eq_ok_iff.mp h
    split at h
    · cases h
    · next hnew =>
        cases h
        exact sameFiles_put_directory (by simpa using hnew)
  · split at h <;> cases h
  · cases h

theorem sameFiles_makeDirectories {path : List Path.Component}
    (h : disk.makeDirectories path = .ok after) : SameFiles disk after := by
  induction path generalizing disk after with
  | nil =>
      cases h
      exact .refl disk
  | cons last around ih =>
      unfold makeDirectories at h
      dsimp only at h
      split at h
      · -- what is around was missing: it is made, and then the directory is tried again
        obtain ⟨middle, haround, h⟩ := bind_eq_ok_iff.mp h
        split at h
        · next hmade =>
            cases h
            exact (ih haround).trans (sameFiles_makeDirectory hmade)
        · split at h
          · cases h
            exact ih haround
          · cases h
      · split at h
        · next hmade =>
            cases h
            exact sameFiles_makeDirectory hmade
        · split at h
          · cases h
            exact .refl disk
          · cases h

theorem sameFiles_makeParents {path : String} (h : disk.makeParents path = .ok after) :
    SameFiles disk after := by
  unfold makeParents at h
  dsimp only at h
  split at h
  · cases h
    exact .refl disk
  · obtain ⟨_, -, h⟩ := bind_eq_ok_iff.mp h
    exact sameFiles_makeDirectories h

/-- Writing changes the one file that the path leads to. -/
theorem write_changes_one {path text : String} (h : disk.write path text = .ok after) :
    ∃ place, after.locate path = .ok place ∧ after.fileAt? place = some text.toUTF8 ∧
      ∀ other ≠ place, after.fileAt? other = disk.fileAt? other := by
  obtain ⟨middle, hparents, hwrite⟩ := bind_eq_ok_iff.mp h
  obtain ⟨place, hplace, rfl, hlocate⟩ := locate_writeFile hwrite
  refine ⟨place, hlocate, ?_, fun other hother => ?_⟩
  · rw [fileAt?, held_put_self hplace]
  · rw [fileAt?_put_of_ne hother, sameFiles_makeParents hparents]

end Disk

namespace Invocation

/-- The directory whose settings count for a call: the one that is given, also where no working
directory can be told. -/
def directoryOf (working : Except String String) (given : Option String) :
    Except Failure String :=
  match given with
  | some directory => .ok directory
  | none => working.mapError (.io "current directory")

theorem outcome_settingsDirectory {S : Type} (store : S) (working : Except String String)
    (call : Invocation) :
    outcome store (call.settingsDirectory (pure working)) =
      (directoryOf working call.directory, store) := by
  obtain ⟨_ | directory, action⟩ := call
  · cases working <;> rfl
  · rfl

end Invocation

section Run

variable {S : Type} [FileAccess (StateM S)] [Store S]

/-- What is printed when commands have been written to a file. -/
def writtenMessage (commands : List Command) (destination : String) : String :=
  s!"Written: {Text.lineCount (LineWriter.textOf commands)} commands to {destination}\n"

/-- All the commands are there before anything is printed or written. -/
theorem Action.outcome_generate (store : S) (settings : Settings) (file : String)
    (output : Option String) (mode : Option CommitMode) :
    outcome store (perform settings (.generate file output mode)) =
      match Generation.sent store file (mode.getD settings.mode) with
      | .error failure => (.error failure, store)
      | .ok commands =>
        match output.or settings.output with
        | none => (.ok (LineWriter.textOf commands), store)
        | some destination =>
          match Store.write store destination (LineWriter.textOf commands) with
          | .error cause => (.error (.outputNotCreated destination cause), store)
          | .ok after => (.ok (writtenMessage commands destination), after) := by
  have hchain : (output <|> settings.output) = output.or settings.output := by
    cases output <;> rfl
  simp only [perform, hchain]
  cases output.or settings.output with
  | none =>
      dsimp only
      rw [Generation.outcome_text]
      cases Generation.sent store file (mode.getD settings.mode) <;> rfl
  | some destination =>
      dsimp only
      rw [outcome_bind, Generation.outcome_write]
      cases Generation.sent store file (mode.getD settings.mode) with
      | error failure => rfl
      | ok commands =>
          dsimp only
          cases Store.write store destination (LineWriter.textOf commands) <;> rfl

/-- How a call to generate ends, under settings that were loaded or not: one way for each thing that
can fail, and one for each place where the commands can go. -/
inductive GenerateEnds (store : S) (loaded : Except Failure Settings) (file : String)
    (output : Option String) (mode : Option CommitMode) : Report → S → Prop where
  | unsettled {failure : Failure} (unloaded : loaded = .error failure) :
      GenerateEnds store loaded file output mode (.of (.error failure)) store
  | unsent {settings : Settings} {failure : Failure} (load : loaded = .ok settings)
      (failed : Generation.sent store file (mode.getD settings.mode) = .error failure) :
      GenerateEnds store loaded file output mode (.of (.error failure)) store
  | printed {settings : Settings} {commands : List Command} (load : loaded = .ok settings)
      (sent : Generation.sent store file (mode.getD settings.mode) = .ok commands)
      (nowhere : output.or settings.output = none) :
      GenerateEnds store loaded file output mode (.of (.ok (LineWriter.textOf commands))) store
  | refused {settings : Settings} {commands : List Command} {destination cause : String}
      (load : loaded = .ok settings)
      (sent : Generation.sent store file (mode.getD settings.mode) = .ok commands)
      (goes : output.or settings.output = some destination)
      (refusal : Store.write store destination (LineWriter.textOf commands) = .error cause) :
      GenerateEnds store loaded file output mode
        (.of (.error (.outputNotCreated destination cause))) store
  | written {settings : Settings} {commands : List Command} {destination : String} {after : S}
      (load : loaded = .ok settings)
      (sent : Generation.sent store file (mode.getD settings.mode) = .ok commands)
      (goes : output.or settings.output = some destination)
      (write : Store.write store destination (LineWriter.textOf commands) = .ok after) :
      GenerateEnds store loaded file output mode
        (.of (.ok (writtenMessage commands destination))) after

namespace Invocation

/-- The settings of a call, or why there are none: their directory cannot be told, or a layer is
refused. -/
def settingsOf (store : S) (environment : Environment) (working : Except String String)
    (given : Option String) : Except Failure Settings := do
  let directory ← directoryOf working given
  (outcome store (Settings.load environment (some directory))).1

/-- An action is carried out under the settings that are loaded from the store as it is, or not at
all. -/
theorem outcome_perform (store : S) (environment : Environment)
    (working : Except String String) (given : Option String) (action : Action) :
    outcome store (perform environment (pure working) ⟨given, some action⟩) =
      match settingsOf store environment working given with
      | .error failure => (.error failure, store)
      | .ok settings => outcome store (action.perform settings) := by
  rw [perform, outcome_bind, outcome_settingsDirectory, settingsOf]
  cases directoryOf working given with
  | error failure => rfl
  | ok directory =>
      obtain ⟨loaded, hload⟩ : ∃ loaded,
          outcome store (Settings.load environment (some directory)) = (loaded, store) :=
        ⟨_, Settings.outcome_load store environment (some directory)⟩
      have hsettings : (do
          let directory ← Except.ok directory
          (outcome store (Settings.load environment (some directory))).1) = loaded :=
        congrArg Prod.fst hload
      rw [hsettings]
      dsimp only
      rw [outcome_bind, hload]
      cases loaded <;> rfl

theorem run_generate_ends (store : S) (environment : Environment)
    (working : Except String String) (given : Option String) (file : String)
    (output : Option String) (mode : Option CommitMode) :
    let ended := (run environment (pure working) ⟨given, some (.generate file output mode)⟩ :
      StateM S Report).run store
    GenerateEnds store (settingsOf store environment working given) file output mode
      ended.1 ended.2 := by
  intro ended
  have hended : ended =
      (Report.of (outcome store
          (perform environment (pure working) ⟨given, some (.generate file output mode)⟩)).1,
        (outcome store
          (perform environment (pure working) ⟨given, some (.generate file output mode)⟩)).2) :=
    rfl
  rw [hended, outcome_perform]
  cases settingsOf store environment working given with
  | error failure => exact .unsettled rfl
  | ok settings =>
      dsimp only
      rw [Action.outcome_generate]
      cases hsent : Generation.sent store file (mode.getD settings.mode) with
      | error failure => exact .unsent rfl hsent
      | ok commands =>
          dsimp only
          cases hgoes : output.or settings.output with
          | none => exact .printed rfl hsent hgoes
          | some destination =>
              dsimp only
              cases hwrite : Store.write store destination (LineWriter.textOf commands) with
              | error cause => exact .refused rfl hsent hgoes hwrite
              | ok after => exact .written rfl hsent hgoes hwrite

end Invocation

end Run

/-- Where the commands of a call to generate have gone: they are printed and every file is as it
was, or they are in the one file that the destination leads to and only a message is printed. -/
def Delivered (disk : Disk) (commands : List Command) (destination : Option String)
    (printed : String) (after : Disk) : Prop :=
  match destination with
  | none => printed = LineWriter.textOf commands ∧ disk.SameFiles after
  | some path =>
    printed = writtenMessage commands path ∧ after.read path = .ok (LineWriter.textOf commands) ∧
      ∃ place, after.locate path = .ok place ∧
        after.fileAt? place = some (LineWriter.textOf commands).toUTF8 ∧
        ∀ other ≠ place, after.fileAt? other = disk.fileAt? other

theorem Report.exitCode_error (failure : Failure) : (Report.of (.error failure)).exitCode ≠ 0 :=
  failure.exitCode_ne_zero

theorem Report.exitCode_ok (printed : String) : (Report.of (.ok printed)).exitCode = 0 := rfl

namespace GenerateEnds

variable {disk after : Disk} {loaded : Except Failure Settings} {file : String}
  {output : Option String} {mode : Option CommitMode} {report : Report}

theorem failure_of_unloaded (h : GenerateEnds disk loaded file output mode report after)
    {failure : Failure} (hloaded : loaded = .error failure) :
    report.failure = some failure ∧ report.exitCode ≠ 0 := by
  cases h with
  | unsettled unloaded =>
      cases unloaded.symm.trans hloaded
      exact ⟨rfl, Report.exitCode_error failure⟩
  | unsent load | printed load | refused load | written load => cases load.symm.trans hloaded

theorem unchanged_of_failed (h : GenerateEnds disk loaded file output mode report after)
    (hfailed : report.exitCode ≠ 0) : report.output = "" ∧ disk.SameFiles after := by
  cases h with
  | unsettled | unsent | refused => exact ⟨rfl, .refl disk⟩
  | printed | written => exact absurd (Report.exitCode_ok _) hfailed

theorem delivered (h : GenerateEnds disk loaded file output mode report after)
    (hsucceeded : report.exitCode = 0) :
    ∃ settings commands, loaded = .ok settings ∧
      Generation.sent disk file (mode.getD settings.mode) = .ok commands ∧
      Delivered disk commands (output.or settings.output) report.output after := by
  cases h with
  | unsettled | unsent | refused => exact absurd hsucceeded (Report.exitCode_error _)
  | @printed settings commands load sent nowhere =>
      refine ⟨settings, commands, load, sent, ?_⟩
      rw [nowhere]
      exact ⟨rfl, .refl disk⟩
  | @written settings commands destination after load sent goes write =>
      have hwrite := mapError_eq_ok_iff.mp write
      refine ⟨settings, commands, load, sent, ?_⟩
      rw [goes]
      exact ⟨rfl, Disk.read_write hwrite, Disk.write_changes_one hwrite⟩

theorem succeeds_iff (h : GenerateEnds disk loaded file output mode report after) :
    report.exitCode = 0 ↔ ∃ settings commands, loaded = .ok settings ∧
      Generation.sent disk file (mode.getD settings.mode) = .ok commands ∧
      ∀ path, output.or settings.output = some path →
        ∃ written, disk.write path (LineWriter.textOf commands) = .ok written := by
  cases h with
  | unsettled unloaded =>
      refine iff_of_false (Report.exitCode_error _) ?_
      rintro ⟨_, _, load, -⟩
      cases unloaded.symm.trans load
  | unsent load failed =>
      refine iff_of_false (Report.exitCode_error _) ?_
      rintro ⟨_, _, hload, hsent, -⟩
      cases load.symm.trans hload
      cases failed.symm.trans hsent
  | printed load sent nowhere =>
      refine iff_of_true (Report.exitCode_ok _) ⟨_, _, load, sent, fun path hpath => ?_⟩
      cases nowhere.symm.trans hpath
  | refused load sent goes refusal =>
      refine iff_of_false (Report.exitCode_error _) ?_
      rintro ⟨_, _, hload, hsent, hwritable⟩
      cases load.symm.trans hload
      cases sent.symm.trans hsent
      obtain ⟨written, hwrite⟩ := hwritable _ goes
      cases refusal.symm.trans (mapError_eq_ok_iff.mpr hwrite)
  | @written settings commands destination after load sent goes write =>
      refine iff_of_true (Report.exitCode_ok _) ⟨_, _, load, sent, fun path hpath => ?_⟩
      cases goes.symm.trans hpath
      exact ⟨after, mapError_eq_ok_iff.mp write⟩

end GenerateEnds

/-- A call to generate is all or nothing. The mode is that of the call, or else that of the
settings; the destination is that of the call, or else that of the settings, or else what is
printed. A call that fails prints nothing and leaves every file as it was. A call that succeeds has
delivered the whole text of the commands in that mode to that destination, and it succeeds just if
the settings can be loaded, the description sends all its commands, and the destination, if there is
one, can be written. Settings that cannot be loaded are the failure of the call, also where it says
everything itself, and so is a working directory that cannot be told, unless a directory is given
for the settings. -/
theorem generate_is_all_or_nothing (disk : Disk) (environment : Environment)
    (working : Except String String) (directory : Option String) (file : String)
    (output : Option String) (mode : Option CommitMode) :
    let loaded := Invocation.settingsOf disk environment working directory
    let ended := (Invocation.run environment (pure working)
      ⟨directory, some (.generate file output mode)⟩ : StateM Disk Report).run disk
    let report := ended.1
    let after := ended.2
    (∀ failure, loaded = .error failure → report.failure = some failure ∧ report.exitCode ≠ 0) ∧
    (report.exitCode ≠ 0 → report.output = "" ∧ disk.SameFiles after) ∧
    (report.exitCode = 0 → ∃ settings commands, loaded = .ok settings ∧
      Generation.sent disk file (mode.getD settings.mode) = .ok commands ∧
      Delivered disk commands (output.or settings.output) report.output after) ∧
    (report.exitCode = 0 ↔ ∃ settings commands, loaded = .ok settings ∧
      Generation.sent disk file (mode.getD settings.mode) = .ok commands ∧
      ∀ path, output.or settings.output = some path →
        ∃ written, disk.write path (LineWriter.textOf commands) = .ok written) := by
  intro loaded ended report after
  have hends : GenerateEnds disk loaded file output mode report after :=
    Invocation.run_generate_ends disk environment working directory file output mode
  exact ⟨fun _ hloaded => hends.failure_of_unloaded hloaded, hends.unchanged_of_failed,
    hends.delivered, hends.succeeds_iff⟩

end SettingsLang
