import SettingsLang.Proofs.Lockstep

/-!
Sinks and what is sent to them. A sink that refuses nothing has no influence: a log and a writer
see the same commands. A sink that refuses everything from some command on sees the start of what
a log sees, also where a script catches the refusals and goes on.
-/

namespace SettingsLang

namespace CommandLog

/-- The writer that has written the commands of a log, a newline after each. -/
def written (log : CommandLog) : LineWriter :=
  ⟨String.join (log.lines.map (· ++ "\n"))⟩

theorem written_commutes : Sink.Commutes written := by
  intro log command
  simp [Sink.accept, written, lines, Except.map, LineWriter.line, String.join_append]

/-- The limited sink that was offered the commands of a log, first to last. -/
def offered (limit : Nat) (log : CommandLog) : Limited CommandLog :=
  ⟨⟨log.commands.take limit⟩, limit - log.size⟩

variable {limit : Nat} {log : CommandLog}

theorem offered_of_le (h : log.size ≤ limit) : log.offered limit = ⟨log, limit - log.size⟩ := by
  have hall : log.commands.take limit = log.commands := Array.extract_eq_self_of_le h
  rw [offered, hall]

theorem offered_accepts (h : log.size < limit) (command : Command) :
    Sink.accept (log.offered limit) command =
      .ok (CommandLog.offered limit ⟨log.commands.push command⟩) := by
  have hsize : (⟨log.commands.push command⟩ : CommandLog).size = log.size + 1 :=
    Array.size_push command
  have hroom : limit - log.size = limit - (log.size + 1) + 1 := by omega
  rw [offered_of_le (Nat.le_of_lt h), offered_of_le (by omega), hsize, hroom]
  rfl

theorem offered_refuses (h : limit ≤ log.size) (command : Command) :
    Sink.accept (log.offered limit) command = .error "sink full" := by
  rw [offered, Nat.sub_eq_zero_of_le h]
  rfl

/-- What a full sink is offered leaves it as it is. -/
theorem offered_push (h : limit ≤ log.size) (command : Command) :
    CommandLog.offered limit ⟨log.commands.push command⟩ = log.offered limit := by
  have hsize : (⟨log.commands.push command⟩ : CommandLog).size = log.size + 1 :=
    Array.size_push command
  have hstart : (log.commands.push command).take limit = log.commands.take limit :=
    Array.extract_push_of_le h
  rw [offered, offered, hsize, hstart, Nat.sub_eq_zero_of_le h, Nat.sub_eq_zero_of_le (by omega)]

end CommandLog

namespace Comparison

/-- The left sink is the limited one that was offered what the right log took. The runs part where
it refuses a command. -/
def cutOff (limit : Nat) : Comparison (Limited CommandLog) CommandLog where
  together left right := right.sink.size ≤ limit ∧ left = right.mapSink (CommandLog.offered limit)
  apart left right := limit < right.size ∧ left = right.offered limit
  parting failure := failure = .emit "sink full"

variable {limit : Nat} {left : Session (Limited CommandLog)} {right : Session CommandLog}

theorem cutOff_emit (h : (cutOff limit).together left right) (command : Command) :
    (cutOff limit).Alike (cutOff limit).Parts (left.emit command) (right.emit command) := by
  obtain ⟨hsize, rfl⟩ := h
  have hpushed : (⟨right.sink.commands.push command⟩ : CommandLog).size = right.sink.size + 1 :=
    Array.size_push command
  have hright : right.emit command =
      (.ok (), { right with sink := ⟨right.sink.commands.push command⟩ }) := rfl
  simp only [Session.emit, Session.mapSink]
  rcases Nat.lt_or_ge right.sink.size limit with hroom | hfull
  · rw [CommandLog.offered_accepts hroom]
    refine Or.inl ⟨rfl, ?_, rfl⟩
    change CommandLog.size ⟨right.sink.commands.push command⟩ ≤ limit
    omega
  · rw [CommandLog.offered_refuses hfull]
    refine Or.inr ⟨rfl, ?_, (CommandLog.offered_push hfull command).symm⟩
    change limit < CommandLog.size ⟨right.sink.commands.push command⟩
    omega

/-- Once the runs have parted, the right log can only grow, and the limited sink holds its start. -/
theorem cutOff_taken {sink : Limited CommandLog} {log after : CommandLog} {command : Command}
    (haccept : Sink.accept log command = .ok after) (h : (cutOff limit).apart sink log) :
    (cutOff limit).apart sink after := by
  obtain ⟨hsize, rfl⟩ := h
  cases haccept
  refine ⟨?_, (CommandLog.offered_push (Nat.le_of_lt hsize) command).symm⟩
  rw [CommandLog.size, Array.size_push]
  exact Nat.lt_succ_of_lt hsize

theorem cutOff_leave (h : (cutOff limit).together left right) :
    (cutOff limit).together left.leave right.leave := by
  obtain ⟨hsize, rfl⟩ := h
  exact ⟨hsize, rfl⟩

theorem cutOff_enter (h : (cutOff limit).together left right) (level : Level) (name : String) :
    (cutOff limit).Alike (cutOff limit).Parts (left.enter level name)
      (right.enter level name) := by
  obtain ⟨hsize, rfl⟩ := h
  simp only [Session.enter, Session.mapSink]
  cases right.context.enter level name with
  | error offence => exact Or.inl ⟨rfl, hsize, rfl⟩
  | ok context =>
      dsimp only
      cases Session.announcement context level with
      | none => exact Or.inl ⟨rfl, hsize, rfl⟩
      | some command =>
          have hopened : (cutOff limit).together
              ⟨right.mode, context, right.sink.offered limit⟩
              ⟨right.mode, context, right.sink⟩ := ⟨hsize, rfl⟩
          have hemit := cutOff_emit hopened command
          rcases hleft : Session.emit ⟨right.mode, context, right.sink.offered limit⟩ command with
            ⟨resultLeft, announcedLeft⟩
          rcases hright : Session.emit ⟨right.mode, context, right.sink⟩ command with
            ⟨resultRight, announcedRight⟩
          rw [hleft, hright] at hemit
          simp only [hleft, hright]
          rcases hemit with ⟨hresult, htogether⟩ | ⟨hparted, hsinks⟩
          · obtain rfl : resultLeft = resultRight := hresult
            cases resultLeft with
            | error failure => exact Or.inl ⟨rfl, cutOff_leave htogether⟩
            | ok _ => exact Or.inl ⟨rfl, htogether⟩
          · cases resultLeft with
            | ok _ => exact hparted.elim
            | error failure =>
                refine Or.inr ⟨hparted, ?_⟩
                cases resultRight <;> exact hsinks

theorem cutOff_set (h : (cutOff limit).together left right) (parameter value : String) :
    (cutOff limit).Alike (cutOff limit).Parts (left.set parameter value)
      (right.set parameter value) := by
  obtain ⟨hsize, rfl⟩ := h
  let marked (sink : CommandLog) : Session CommandLog :=
    ⟨right.mode, right.context.markCommitted, sink⟩
  have hmarked : (cutOff limit).together ((marked right.sink).mapSink (CommandLog.offered limit))
      (marked right.sink) := ⟨hsize, rfl⟩
  by_cases hconf : right.context.innermost = some .conf
  case neg =>
    rw [right.set_outside parameter value hconf,
      (right.mapSink (CommandLog.offered limit)).set_outside parameter value hconf]
    exact Or.inl ⟨rfl, hsize, rfl⟩
  by_cases hskip : right.mode = .once ∧ right.context.isCommitted = true
  case pos =>
    rw [right.set_skipping parameter value hconf hskip,
      (right.mapSink (CommandLog.offered limit)).set_skipping parameter value hconf hskip]
    exact cutOff_emit hmarked _
  case neg =>
    rw [right.set_sending parameter value hconf hskip,
      (right.mapSink (CommandLog.offered limit)).set_sending parameter value hconf hskip]
    refine (cutOff_emit hmarked _).andThen (fun hsent => cutOff_emit hsent _) ?_
    intro sent sink hapart
    rcases sent.emit_cases (.setParameter right.context.domainPath right.context.confPath
      parameter value) with ⟨after, haccept, hemit⟩ | ⟨cause, -, hemit⟩
    · rw [hemit]
      exact cutOff_taken haccept hapart
    · rw [hemit]
      exact hapart

theorem cutOff_stable (limit : Nat) : (cutOff limit).Stable where
  ruleWith := by
    rintro left right ⟨hsize, rfl⟩ criterion matcher value
    rw [Session.ruleWith_mapSink]
    rcases right.ruleWith_cases criterion matcher value with ⟨_, h⟩ | ⟨_, _, _, h⟩ <;> rw [h] <;>
      exact Or.inl ⟨rfl, hsize, rfl⟩
  set := cutOff_set
  enter := cutOff_enter
  leave _ _ hafter _ _ := cutOff_leave hafter
  takenLeft := by
    rintro left after command haccept right ⟨hsize, rfl⟩
    rw [CommandLog.offered_refuses (Nat.le_of_lt hsize)] at haccept
    cases haccept
  takenRight haccept _ hapart := cutOff_taken haccept hapart

/-- Together from the start, the runs go alike: the left sink takes as much as its room allows. -/
theorem cutOff_start (limit : Nat) (mode : CommitMode) :
    (cutOff limit).together (.start mode ⟨.empty, limit⟩) (.start mode .empty) := by
  have hempty : CommandLog.empty.offered limit = ⟨.empty, limit⟩ :=
    CommandLog.offered_of_le (Nat.zero_le limit)
  refine ⟨Nat.zero_le limit, ?_⟩
  simp [Session.start, Session.mapSink, hempty]

/-- However alike two attempts are, the limited sink holds the start of what the log holds. -/
theorem Alike.cutOff_commands {ending : Except Failure Unit → Prop}
    {left : Attempt (Limited CommandLog)} {right : Attempt CommandLog}
    (h : (cutOff limit).Alike ending left right) :
    left.2.sink.inner.commands.toList = right.2.sink.commands.toList.take limit := by
  have hsink : left.2.sink = right.2.sink.offered limit := by
    rcases h with ⟨-, -, htogether⟩ | ⟨-, -, hapart⟩
    · exact congrArg Session.sink htogether
    · exact hapart
  rw [hsink]
  simp [CommandLog.offered]

/-- The limited sink refuses a command exactly if the log takes more than there is room for. -/
theorem Alike.cutOff_result {left : Attempt (Limited CommandLog)} {right : Attempt CommandLog}
    (h : (cutOff limit).Alike (cutOff limit).Parts left right) :
    left.1 = if limit < right.2.sink.size then .error (.emit "sink full") else right.1 := by
  rcases h with ⟨hresult, hsize, -⟩ | ⟨hparted, hsize, -⟩
  · rw [if_neg (Nat.not_lt.mpr hsize), hresult]
  · rw [if_pos hsize]
    rcases left with ⟨failure | _, after⟩
    · exact congrArg Except.error hparted
    · exact hparted.elim

end Comparison

/-- What a description or a script sends does not depend on the sink. A writer gets the lines of
what a log gets, and the evaluation ends the same way. A sink with room for `limit` commands gets
the first `limit` of them, or all if they are not more; an evaluation that would send more fails
with the sink's refusal, any other ends as it does without a limit. -/
theorem sinks_receive_same_commands :
    (∀ (description : Description) (mode : CommitMode),
      let logged := description.evaluate mode CommandLog.empty
      let written := description.evaluate mode LineWriter.empty
      written.1 = logged.1 ∧
        written.2.sink.text = String.join (logged.2.sink.lines.map (· ++ "\n"))) ∧
    (∀ (description : Description) (mode : CommitMode) (limit : Nat),
      let logged := description.evaluate mode CommandLog.empty
      let limited := description.evaluate mode (⟨.empty, limit⟩ : Limited CommandLog)
      limited.2.sink.inner.commands.toList = logged.2.sink.commands.toList.take limit ∧
        limited.1 = if limit < logged.2.sink.size then .error (.emit "sink full")
          else logged.1) ∧
    (∀ (steps : List Step) (mode : CommitMode) (limit : Nat),
      let logged := (Script.run steps mode CommandLog.empty).session
      let limited := (Script.run steps mode (⟨.empty, limit⟩ : Limited CommandLog)).session
      limited.sink.inner.commands.toList = logged.sink.commands.toList.take limit) := by
  refine ⟨?_, ?_, ?_⟩
  · intro description mode logged written
    have hwritten : written = logged.mapSink CommandLog.written :=
      Block.evaluateAll_mapSink CommandLog.written_commutes description
        (.start mode CommandLog.empty)
    rw [hwritten]
    exact ⟨rfl, rfl⟩
  · intro description mode limit logged limited
    have halike := (Comparison.cutOff_stable limit).evaluateAll description
      (Comparison.cutOff_start limit mode)
    exact ⟨halike.cutOff_commands, halike.cutOff_result⟩
  · intro steps mode limit logged limited
    have halike := Step.runAll_alike (Comparison.cutOff_stable limit) steps [] 0
      (Comparison.cutOff_start limit mode)
    exact halike.cutOff_commands

end SettingsLang
