import SettingsLang.Proofs.Stream

/-!
Rules that are sent again. In a stream a configuration may get its rules before each assignment;
all but the first of these commands can be left out. A stream in which they only repeat the first
one loses nothing by that.
-/

namespace SettingsLang

/-- Whether rules were sent since a configuration was created last. -/
def guardSent (stream : List Command) : Bool :=
  (stream.reverse.takeWhile (!·.isCreateConfiguration)).any (·.isSetRule)

/-- The commands that come after others, without rules that are sent again for the configuration
created last. -/
def withoutRepeats (before : List Command) : List Command → List Command
  | [] => []
  | command :: later =>
    if command.isSetRule && guardSent before then withoutRepeats (before ++ [command]) later
    else command :: withoutRepeats (before ++ [command]) later

/-- The command stands in the stream already, as the first rules of the configuration created
last. -/
def SentFirst (stream : List Command) (command : Command) : Prop :=
  ∃ earlier since, stream = earlier ++ command :: since ∧ guardSent earlier = false ∧
    ∀ other ∈ since, other.isCreateConfiguration = false

/-- If the command sends rules again, they are those that were sent first. -/
def Command.AgreesWith (before : List Command) (command : Command) : Prop :=
  command.isSetRule = true → guardSent before = true → SentFirst before command

/-- All rules that are sent again are those that were sent first. -/
def RepeatsAgree (stream : List Command) : Prop :=
  ∀ before command after, stream = before ++ command :: after → command.AgreesWith before

theorem guardSent_snoc (stream : List Command) (command : Command) :
    guardSent (stream ++ [command]) =
      (!command.isCreateConfiguration && (command.isSetRule || guardSent stream)) := by
  cases hcreate : command.isCreateConfiguration <;>
    simp [guardSent, hcreate]

theorem withoutRepeats_append (before first second : List Command) :
    withoutRepeats before (first ++ second) =
      withoutRepeats before first ++ withoutRepeats (before ++ first) second := by
  induction first generalizing before with
  | nil => simp [withoutRepeats]
  | cons command later ih =>
      have hlater := ih (before ++ [command])
      rw [List.append_assoc, List.singleton_append] at hlater
      rw [List.cons_append, withoutRepeats, withoutRepeats, hlater]
      split
      · rfl
      · rw [List.cons_append]

theorem withoutRepeats_snoc (stream : List Command) (command : Command) :
    withoutRepeats [] (stream ++ [command]) =
      if command.isSetRule && guardSent stream then withoutRepeats [] stream
      else withoutRepeats [] stream ++ [command] := by
  simp only [withoutRepeats_append, List.nil_append, withoutRepeats]
  split <;> simp

theorem SentFirst.snoc {stream : List Command} {command other : Command}
    (h : SentFirst stream command) (hother : other.isCreateConfiguration = false) :
    SentFirst (stream ++ [other]) command := by
  obtain ⟨earlier, since, rfl, hfirst, hsince⟩ := h
  refine ⟨earlier, since ++ [other], by simp, hfirst, ?_⟩
  simpa [or_imp, forall_and, hother] using hsince

theorem RepeatsAgree.snoc {stream : List Command} {command : Command} (h : RepeatsAgree stream)
    (hcommand : command.AgreesWith stream) : RepeatsAgree (stream ++ [command]) :=
  forall_split_snoc h hcommand

theorem not_repeated {before : List Command} {command : Command}
    (h : command.isSetRule = true → guardSent before = false) :
    (command.isSetRule && guardSent before) = false := by
  cases hrule : command.isSetRule with
  | false => rfl
  | true => simpa using h hrule

/-- A command stays that does not send rules again. -/
theorem mem_withoutRepeats {before after : List Command} {command : Command}
    (h : command.isSetRule = true → guardSent before = false) :
    command ∈ withoutRepeats [] (before ++ command :: after) := by
  rw [withoutRepeats_append, List.nil_append, withoutRepeats, if_neg (by simp [not_repeated h])]
  exact List.mem_append_right _ List.mem_cons_self

/-- If rules that are sent again are those that were sent first, leaving them out loses none. -/
theorem RepeatsAgree.mem_withoutRepeats {stream : List Command} (h : RepeatsAgree stream)
    {command : Command} (hmem : command ∈ stream) : command ∈ withoutRepeats [] stream := by
  obtain ⟨before, after, rfl⟩ := List.append_of_mem hmem
  by_cases hagain : command.isSetRule = true ∧ guardSent before = true
  case pos =>
    obtain ⟨earlier, since, rfl, hfirst, -⟩ := h before command after rfl hagain.1 hagain.2
    rw [List.append_assoc, List.cons_append]
    exact SettingsLang.mem_withoutRepeats fun _ => hfirst
  case neg => exact SettingsLang.mem_withoutRepeats fun hrule => by simpa [hrule] using hagain

/-- One stream is the other without repeated rules, and these repeat the first ones. -/
structure Thinned (once every : List Command) : Prop where
  stream : once = withoutRepeats [] every
  repeats : RepeatsAgree every

namespace Thinned

variable {once every : List Command} {command : Command}

theorem nil : Thinned [] [] where
  stream := rfl
  repeats := by
    intro before command after hsplit
    simp at hsplit

/-- Both streams get a command that repeats no rules. -/
theorem both (h : Thinned once every)
    (hnew : command.isSetRule = true → guardSent every = false) :
    Thinned (once ++ [command]) (every ++ [command]) where
  stream := by
    rw [withoutRepeats_snoc, if_neg (by simp [not_repeated hnew]), h.stream]
  repeats := by
    refine h.repeats.snoc fun hrule hsent => ?_
    rw [hnew hrule] at hsent
    cases hsent

/-- Only one stream gets rules that were sent before. -/
theorem again (h : Thinned once every) (hrule : command.isSetRule = true)
    (hsent : guardSent every = true) (hfirst : SentFirst every command) :
    Thinned once (every ++ [command]) where
  stream := by
    rw [withoutRepeats_snoc, if_pos (by simp [hrule, hsent]), h.stream]
  repeats := h.repeats.snoc fun _ _ => hfirst

end Thinned

end SettingsLang
