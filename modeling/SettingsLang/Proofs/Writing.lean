import SettingsLang.Generation.Steps
import SettingsLang.Proofs.Generating

/-!
What sequences of generation steps leave in files in memory. A step that fails leaves them as they
were, and so does one that only reads; a step that writes puts down the text that its description
has just before it. So what a file holds is what was last written to it, under whatever spelling of
its path, or else what it held from the beginning.
-/

namespace SettingsLang

namespace Generation

variable {S : Type} [FileAccess (StateM S)] [Store S]

theorem outcome_into_store {σ : Type} [Sink σ] (store : S) (path : String) (mode : CommitMode)
    (sink : σ) : (outcome store (into path mode sink)).2 = store := by
  rw [into, outcome_bind, outcome_liftM, run_evaluate]
  cases described store path with
  | error failure => rfl
  | ok description =>
      simp only
      rcases description.evaluate mode sink with ⟨_ | _, session⟩ <;> rfl

/-- The text that the description at a path has. -/
def rendered (store : S) (path : String) (mode : CommitMode) : Except Failure String :=
  (outcome store (text path mode)).1

/-- A text is written after it has been rendered as a whole. -/
theorem outcome_write_rendered (store : S) (path output : String) (mode : CommitMode) :
    outcome store (write path output mode) =
      match rendered store path mode with
      | .error failure => (.error failure, store)
      | .ok text =>
        match Store.write store output text with
        | .error cause => (.error (.outputNotCreated output cause), store)
        | .ok after => (.ok (Text.lineCount text), after) := by
  rw [outcome_write, rendered, outcome_text]
  cases sent store path mode <;> rfl

end Generation

namespace GenerationStep

open Generation (rendered)

variable {σ : Type} [Sink σ]

theorem outcome_reading (files : MemoryFiles) {step : GenerationStep σ}
    (hreads : ∀ path output mode, step ≠ .write path output mode) :
    (outcome files step.perform).2 = files := by
  cases step with
  | load path => rw [perform, outcome_map, Generation.outcome_load]
  | generate path mode sink => rw [perform, outcome_map, Generation.outcome_into_store]
  | render path mode => rw [perform, outcome_map, Generation.outcome_text]
  | check path mode => rw [perform, outcome_map, Generation.outcome_count]
  | write path output mode => exact absurd rfl (hreads path output mode)

theorem outcome_writing (files : MemoryFiles) (path output : String) (mode : CommitMode) :
    outcome files (perform (.write path output mode : GenerationStep σ)) =
      match rendered files path mode with
      | .error failure => (.error failure, files)
      | .ok text =>
        if files.readOnly.any (Path.same output) then
          (.error (.outputNotCreated output "read-only"), files)
        else (.ok (.written (Text.lineCount text)), files.put output text) := by
  rw [perform, outcome_map, Generation.outcome_write_rendered]
  cases rendered files path mode with
  | error failure => rfl
  | ok text =>
      cases hlocked : files.readOnly.any (Path.same output) with
      | true => simp [Store.write, MemoryFiles.write, hlocked, Except.map]
      | false => simp [Store.write, MemoryFiles.write, hlocked, Except.map]

end GenerationStep

namespace GenerationEntry

open Generation (rendered)

variable {σ : Type}

/-- The text that a step put under a path. The step has written, and its output is the path, in this
spelling or in another. -/
def wrote? (path : String) (entry : GenerationEntry MemoryFiles σ) : Option String :=
  match entry.step, entry.result with
  | .write source output mode, .ok _ =>
    if Path.same output path then (rendered entry.before source mode).toOption else none
  | _, _ => none

/-- The text that was last put under a path. -/
def lastWritten? (path : String) (entries : List (GenerationEntry MemoryFiles σ)) : Option String :=
  entries.reverse.findSome? (wrote? path)

theorem lastWritten?_cons (path : String) (first : GenerationEntry MemoryFiles σ)
    (rest : List (GenerationEntry MemoryFiles σ)) :
    lastWritten? path (first :: rest) = (lastWritten? path rest).or (first.wrote? path) := by
  rw [lastWritten?, List.reverse_cons, List.findSome?_append]
  cases hfirst : first.wrote? path <;> simp [lastWritten?, hfirst]

/-- What holds of an entry of a run that began with `files` and had the entries `earlier` before it: it
goes on from them, a write in it succeeds just if it has a text and may put it down, and files hold
what was last written to them. -/
structure Faithful (files : MemoryFiles) (earlier : List (GenerationEntry MemoryFiles σ))
    (entry : GenerationEntry MemoryFiles σ) : Prop where
  begins : entry.before = (earlier.getLast?.map (·.after)).getD files
  contents : ∀ path, entry.after.text? path =
    (lastWritten? path (earlier ++ [entry])).or (files.text? path)
  locks : entry.after.unreadable = files.unreadable ∧ entry.after.readOnly = files.readOnly
  succeeds : ∀ source output mode, entry.step = .write source output mode →
    ((∃ answer, entry.result = .ok answer) ↔
      (∃ text, rendered entry.before source mode = .ok text) ∧
        ∀ locked ∈ files.readOnly, Path.same output locked = false)
  stores : ∀ source output mode answer, entry.step = .write source output mode →
    entry.result = .ok answer →
    ∃ text, rendered entry.before source mode = .ok text ∧ entry.after.text? output = some text
  fails : ∀ failure, entry.result = .error failure → entry.after = entry.before

namespace Faithful

variable {files : MemoryFiles} {first entry : GenerationEntry MemoryFiles σ}
  {earlier : List (GenerationEntry MemoryFiles σ)}

/-- A step that puts nothing down and leaves the files as they were. If it was to write, there was
no text or the output was locked. -/
theorem ofKept (hbefore : entry.before = files) (hafter : entry.after = files)
    (hwrote : ∀ path, entry.wrote? path = none)
    (hrefused : ∀ source output mode, entry.step = .write source output mode →
      (∃ failure, entry.result = .error failure) ∧
        ((∃ failure, rendered files source mode = .error failure) ∨
          files.readOnly.any (Path.same output) = true)) : Faithful files [] entry where
  begins := hbefore
  contents path := by simp [hafter, lastWritten?, hwrote path]
  locks := by simp [hafter]
  succeeds source output mode hstep := by
    obtain ⟨⟨failure, hresult⟩, hno⟩ := hrefused source output mode hstep
    rw [hresult, hbefore]
    constructor
    · rintro ⟨_, hanswer⟩
      cases hanswer
    · rintro ⟨⟨text, htext⟩, hopen⟩
      rcases hno with ⟨failure, hfailure⟩ | hlocked
      · rw [htext] at hfailure
        cases hfailure
      · obtain ⟨locked, hmem, hsame⟩ := List.any_eq_true.mp hlocked
        rw [hopen locked hmem] at hsame
        cases hsame
  stores source output mode answer hstep hanswer := by
    obtain ⟨⟨failure, hresult⟩, -⟩ := hrefused source output mode hstep
    rw [hanswer] at hresult
    cases hresult
  fails _ _ := hafter.trans hbefore.symm

/-- A step that has written puts down the text, and nothing else. -/
theorem ofPut {source output text : String} {mode : CommitMode} {answer : GenerationAnswer σ}
    (htext : rendered files source mode = .ok text)
    (hopen : files.readOnly.any (Path.same output) = false) :
    Faithful files [] ⟨.write source output mode, files, .ok answer, files.put output text⟩ where
  begins := rfl
  contents path := by
    rw [MemoryFiles.text?_put]
    by_cases hsame : Path.same output path = true <;>
      simp [lastWritten?, wrote?, hsame, htext, Except.toOption]
  locks := ⟨rfl, rfl⟩
  succeeds _ _ _ hstep := by
    cases hstep
    exact iff_of_true ⟨answer, rfl⟩ ⟨⟨text, htext⟩, by simpa using hopen⟩
  stores _ _ _ _ hstep _ := by
    cases hstep
    refine ⟨text, htext, ?_⟩
    rw [MemoryFiles.text?_put, if_pos (by simp [Path.same])]
  fails _ hfailure := by cases hfailure

/-- What holds of an entry in a run on the files that a step has left holds of it in the run with that
step in front. -/
theorem cons (hfirst : Faithful files [] first) (h : Faithful first.after earlier entry) :
    Faithful files (first :: earlier) entry where
  begins := by
    rw [h.begins]
    cases earlier with
    | nil => rfl
    | cons second rest =>
        rw [List.getLast?_cons_cons, List.getLast?_eq_some_getLast (List.cons_ne_nil second rest)]
        rfl
  contents path := by
    have hbefore : first.after.text? path = (first.wrote? path).or (files.text? path) := by
      simpa [lastWritten?] using hfirst.contents path
    rw [h.contents, hbefore, List.cons_append, lastWritten?_cons, Option.or_assoc]
  locks := ⟨h.locks.1.trans hfirst.locks.1, h.locks.2.trans hfirst.locks.2⟩
  succeeds := hfirst.locks.2 ▸ h.succeeds
  stores := h.stores
  fails := h.fails

end Faithful

end GenerationEntry

namespace GenerationStep

open Generation (rendered)
open GenerationEntry (Faithful)

variable {σ : Type} [Sink σ]

/-- The entry of a step that is taken first. -/
def taken (files : MemoryFiles) (step : GenerationStep σ) : GenerationEntry MemoryFiles σ :=
  ⟨step, files, (outcome files step.perform).1, (outcome files step.perform).2⟩

theorem taken_faithful (files : MemoryFiles) (step : GenerationStep σ) :
    Faithful files [] (taken files step) := by
  have hreading (hreads : ∀ path output mode, step ≠ .write path output mode)
      (hwrote : ∀ path, (taken files step).wrote? path = none) :
      Faithful files [] (taken files step) :=
    .ofKept rfl (outcome_reading files hreads) hwrote fun source output mode hstep =>
      absurd hstep (hreads source output mode)
  cases step with
  | load path => exact hreading (by simp) fun _ => rfl
  | generate path mode sink => exact hreading (by simp) fun _ => rfl
  | render path mode => exact hreading (by simp) fun _ => rfl
  | check path mode => exact hreading (by simp) fun _ => rfl
  | write source output mode =>
      rw [taken, outcome_writing]
      cases htext : rendered files source mode with
      | error failure =>
          refine .ofKept rfl rfl (fun _ => rfl) ?_
          rintro _ _ _ ⟨⟩
          exact ⟨⟨failure, rfl⟩, Or.inl ⟨failure, htext⟩⟩
      | ok text =>
          cases hlocked : files.readOnly.any (Path.same output) with
          | true =>
              refine .ofKept rfl rfl (fun _ => rfl) ?_
              rintro _ _ _ ⟨⟩
              exact ⟨⟨_, rfl⟩, Or.inr hlocked⟩
          | false => exact .ofPut htext hlocked

/-- Only a write that succeeds changes files, and only its output. After every step a file holds the
text that was last written to it, under any spelling of its path, or else what it held from the
beginning. A step writes if the description has a text just before it and the output is not locked,
and then it writes this text, also if the output is the file of the description. A step that fails
leaves the files as they were, however far it came. -/
theorem only_writes_change_files (files : MemoryFiles) (steps : List (GenerationStep σ)) :
    let entries := runAll files steps
    entries.map (·.step) = steps ∧
      ∀ earlier entry later, entries = earlier ++ entry :: later → Faithful files earlier entry := by
  induction steps generalizing files with
  | nil =>
      refine ⟨rfl, fun earlier entry later hsplit => ?_⟩
      simp [runAll] at hsplit
  | cons step rest ih =>
      obtain ⟨hsteps, hrest⟩ := ih (taken files step).after
      have hfirst := taken_faithful files step
      refine ⟨congrArg (step :: ·) hsteps, fun earlier entry later hsplit => ?_⟩
      rcases earlier with _ | ⟨first, earlier⟩
      · obtain ⟨rfl, -⟩ := List.cons.inj hsplit
        exact hfirst
      · obtain ⟨rfl, hlater⟩ := List.cons.inj hsplit
        exact hfirst.cons (hrest earlier entry later hlater)

/-- A description is written over itself, under another spelling of its path. What is there then is
no description any more, so the next write from it fails and leaves its commands where they are. -/
theorem description_written_over_itself :
    let files : MemoryFiles :=
      ⟨[("d.toml", "block=[['domain','D',[['conf','C',[['set','/p',1]]]]]]")], [], []⟩
    let steps : List (GenerationStep CommandLog) :=
      [.write "d.toml" "d.toml/." .everySet, .write "d.toml" "out" .everySet]
    let commands : List Command :=
      [.createDomain ⟨["D"]⟩, .createConfiguration ⟨["D"]⟩ ⟨["C"]⟩, .setRule ⟨["D"]⟩ ⟨["C"]⟩ ⟨[]⟩,
        .setParameter ⟨["D"]⟩ ⟨["C"]⟩ "/p" "1"]
    ∃ first second, runAll files steps = [first, second] ∧
      (∃ answer, first.result = .ok answer) ∧
      first.after.text? "d.toml" = some (LineWriter.textOf commands) ∧
      (∃ failure, second.result = .error failure) ∧ second.after = first.after := by
  intro files steps commands
  let first : GenerationEntry MemoryFiles CommandLog :=
    taken files (.write "d.toml" "d.toml/." .everySet)
  let second : GenerationEntry MemoryFiles CommandLog :=
    taken first.after (.write "d.toml" "out" .everySet)
  have hrun : runAll files steps = [first, second] := rfl
  have hall := (only_writes_change_files files steps).2
  have hfirst : Faithful files [] first := hall [] first [second] hrun
  have hsecond : Faithful files [first] second := hall [first] second [] hrun
  have hsame : Path.same "d.toml/." "d.toml" = true := by
    simp only [Path.same, Path.components, Path.parts_eq_splitOn]
    decide +kernel
  have hsent : Generation.sent files "d.toml" .everySet = .ok commands := by
    rw [Generation.sent, Generation.described_single]
    decide +kernel
  have hrendered : rendered files "d.toml" .everySet = .ok (LineWriter.textOf commands) := by
    rw [rendered, Generation.outcome_text, hsent]
    rfl
  have hwritten : ∃ answer, first.result = .ok answer :=
    (hfirst.succeeds _ _ _ rfl).mpr ⟨⟨_, hrendered⟩, by simp [files]⟩
  have hheld : first.after.text? "d.toml" = some (LineWriter.textOf commands) := by
    obtain ⟨answer, hanswer⟩ := hwritten
    obtain ⟨text, htext, hstored⟩ := hfirst.stores _ _ _ answer rfl hanswer
    cases hrendered.symm.trans htext
    rw [← MemoryFiles.text?_congr _ hsame, hstored]
  have hrefused : rendered first.after "d.toml" .everySet =
      .error (.description "d.toml: <TOML>") := by
    have hopen : first.after.unreadable.any (Path.same "d.toml") = false := by
      rw [hfirst.locks.1]
      rfl
    rw [rendered, Generation.outcome_text, Generation.sent, Generation.described,
      if_pos (MemoryFiles.present_of_text? hheld), MemoryFiles.read_of_text? hheld hopen]
    decide +kernel
  have hfailed : ∃ failure, second.result = .error failure := by
    cases hresult : second.result with
    | error failure => exact ⟨failure, rfl⟩
    | ok answer =>
        obtain ⟨⟨text, htext⟩, -⟩ := (hsecond.succeeds _ _ _ rfl).mp ⟨answer, hresult⟩
        cases hrefused.symm.trans htext
  obtain ⟨failure, hfailure⟩ := hfailed
  exact ⟨first, second, hrun, hwritten, hheld, ⟨failure, hfailure⟩, hsecond.fails failure hfailure⟩

end GenerationStep

end SettingsLang
