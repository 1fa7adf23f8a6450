import SettingsLang.Generation
import SettingsLang.Proofs.ReadingBack
import SettingsLang.Proofs.Cutoff
import SettingsLang.Proofs.Storage

/-!
What generation answers on a store. Every action decodes the same document and sends the same
commands; only writing changes the store, and only when all the commands have been sent.
-/

namespace SettingsLang.Generation

/-- The description in a document that was read from a path. -/
def describedBy (path document : String) : Except Failure Description :=
  (Description.ofToml document).mapError fun fault => .description s!"{path}: {fault.message}"

variable {S : Type} [FileAccess (StateM S)] [Store S]

/-- The description at a path of a store. -/
def described (store : S) (path : String) : Except Failure Description :=
  if Store.present store path then
    match Store.read store path with
    | .error cause => .error (.operationFailed s!"read description: {path}" cause)
    | .ok document => describedBy path document
  else .error (.descriptionNotFound path)

theorem outcome_load (store : S) (path : String) :
    outcome store (load path) = (described store path, store) := by
  unfold load described
  simp only [outcome_bind, outcome_liftM, Store.present_run]
  cases Store.present store path with
  | false => rfl
  | true =>
      simp only [if_true, outcome_bind, outcome_liftM, Store.readText_run]
      cases Store.read store path with
      | error cause => rfl
      | ok document =>
          simp only [describedBy]
          cases Description.ofToml document <;> rfl

theorem run_evaluate {σ : Type} [Sink σ] (store : S) (path : String) (mode : CommitMode)
    (sink : σ) :
    (evaluate path mode sink : StateM S (Except Failure Unit × σ)).run store =
      match described store path with
      | .error failure => ((.error failure, sink), store)
      | .ok description =>
        let (result, session) := description.evaluate mode sink
        ((result, session.sink), store) := by
  have hload : (load path : ExceptT Failure (StateM S) Description).run.run store =
      (described store path, store) := outcome_load store path
  rw [evaluate, StateT.run_bind, hload]
  cases described store path <;> rfl

/-- The commands that a description sends, unless it fails. -/
def streamOf (description : Description) (mode : CommitMode) : Except Failure (List Command) :=
  let (result, session) := description.evaluate mode CommandLog.empty
  result.map fun _ => session.sink.commands.toList

/-- The commands of the description at a path of a store. -/
def sent (store : S) (path : String) (mode : CommitMode) : Except Failure (List Command) :=
  (described store path).bind (streamOf · mode)

theorem emitted_of_streamOf {description : Description} {mode : CommitMode}
    {commands : List Command} (h : streamOf description mode = .ok commands) :
    Emitted commands := by
  obtain ⟨_, -, rfl⟩ := map_eq_ok_iff.mp h
  exact .description CommandLog.keeps.taken description mode rfl

theorem emitted_of_sent {store : S} {path : String} {mode : CommitMode} {commands : List Command}
    (h : sent store path mode = .ok commands) : Emitted commands := by
  obtain ⟨description, -, hstream⟩ := bind_eq_ok_iff.mp h
  exact emitted_of_streamOf hstream

/-- Every sink that takes commands as a log does gets the same commands, and the store stays as it
is. -/
theorem outcome_into {τ : Type} [Sink τ] {f : CommandLog → τ} (hf : Sink.Commutes f) (store : S)
    (path : String) (mode : CommitMode) :
    outcome store (into path mode (f .empty)) =
      ((sent store path mode).map fun commands => f ⟨commands.toArray⟩, store) := by
  have hsession (description : Description) : description.evaluate mode (f .empty) =
      (description.evaluate mode CommandLog.empty).mapSink f :=
    Block.evaluateAll_mapSink hf description (.start mode .empty)
  rw [into, outcome_bind, outcome_liftM, run_evaluate, sent]
  cases described store path with
  | error failure => rfl
  | ok description =>
      simp only [hsession, Except.bind, streamOf, Attempt.mapSink, Session.mapSink]
      rcases description.evaluate mode CommandLog.empty with ⟨_ | _, session⟩ <;> rfl

theorem written_text (commands : List Command) :
    (CommandLog.written ⟨commands.toArray⟩).text = LineWriter.textOf commands := by
  simp only [CommandLog.written, CommandLog.lines, LineWriter.textOf_eq_join, List.map_map]
  rfl

theorem outcome_text (store : S) (path : String) (mode : CommitMode) :
    outcome store (text path mode) = ((sent store path mode).map LineWriter.textOf, store) := by
  have hinto := outcome_into CommandLog.written_commutes store path mode
  rw [show CommandLog.written .empty = LineWriter.empty from rfl] at hinto
  rw [text, outcome_bind, hinto]
  cases sent store path mode with
  | error failure => rfl
  | ok commands => simp [Except.map, outcome_pure, written_text]

theorem outcome_log (store : S) (path : String) (mode : CommitMode) :
    outcome store (into path mode CommandLog.empty) =
      ((sent store path mode).map fun commands => ⟨commands.toArray⟩, store) := by
  have hsame : Sink.Commutes (id : CommandLog → CommandLog) := by
    intro log command
    cases hlog : Sink.accept log command <;> simp [hlog, Except.map]
  exact outcome_into hsame store path mode

theorem outcome_count (store : S) (path : String) (mode : CommitMode) :
    outcome store (count path mode) = ((sent store path mode).map List.length, store) := by
  rw [count, outcome_bind, outcome_log]
  cases sent store path mode with
  | error failure => rfl
  | ok commands => simp [Except.map, outcome_pure, CommandLog.size]

/-- A file is written after all the commands have been sent, with their whole text. -/
theorem outcome_write (store : S) (path output : String) (mode : CommitMode) :
    outcome store (write path output mode) =
      match sent store path mode with
      | .error failure => (.error failure, store)
      | .ok commands =>
        match Store.write store output (LineWriter.textOf commands) with
        | .error cause => (.error (.outputNotCreated output cause), store)
        | .ok after => (.ok (Text.lineCount (LineWriter.textOf commands)), after) := by
  rw [write, outcome_bind, outcome_text]
  cases sent store path mode with
  | error failure => rfl
  | ok commands =>
      simp only [Except.map, outcome_bind, outcome_liftM, Store.writeText_run]
      cases Store.write store output (LineWriter.textOf commands) <;> rfl

/-- Files in memory with one document that may be read. -/
theorem described_single (path document : String) :
    described (⟨[(path, document)], [], []⟩ : MemoryFiles) path = describedBy path document := by
  rw [described, if_pos (Store.present_single path document), Store.read_single]

end SettingsLang.Generation
