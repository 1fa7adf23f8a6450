import SettingsLang.Proofs.Chronicle
import SettingsLang.Proofs.OpenLevels

/-!
One list in the place of three stacks. Each open level stands in the list with its name, its rules
and its mark; opening, closing, adding a rule and setting a mark all work at its head. Replaying a
history on the list gives the context that the operations have led to, so that names and levels
never come apart, whatever was refused and however guards and closings by hand are mixed.
-/

namespace SettingsLang

/-- An open level with its name. -/
abbrev NamedFrame := String × Frame

/-- What an event does to the open levels, innermost first. -/
def ContextEvent.replay (opened : List NamedFrame) : ContextEvent → List NamedFrame
  | .opened level name => (name, .fresh level) :: opened
  | .closed => opened.tail
  | .ruled rule =>
    opened.modifyHead fun (name, frame) => (name, { frame with rules := frame.rules ++ [rule] })
  | .marked => opened.modifyHead fun (name, frame) => (name, { frame with committed := true })

namespace Context

/-- The names of open levels of one kind, outermost first. -/
def namesIn (belongs : Level → Bool) (opened : List NamedFrame) : NamePath :=
  namesOf belongs (opened.map fun (name, frame) => (frame.level, name))

/-- The three stacks that a list of open levels stands for. -/
def ofList (opened : List NamedFrame) : Context where
  domainPath := namesIn Level.isDomainLevel opened
  confPath := namesIn (!·.isDomainLevel) opened
  frames := opened.map (·.2)

theorem inside_ofList (opened : List NamedFrame) (level : Level) (name : String) :
    (ofList opened).inside level name = ofList ((name, .fresh level) :: opened) := by
  cases level <;> simp [ofList, namesIn, inside, namesOf_cons, Frame.fresh, Level.isDomainLevel]

theorem leave_ofList (opened : List NamedFrame) :
    (ofList opened).leave = ofList opened.tail := by
  rcases opened with _ | ⟨⟨name, frame⟩, outer⟩
  · rfl
  · cases hlevel : frame.level.isDomainLevel <;>
      simp [ofList, namesIn, leave, namesOf_cons, hlevel, NamePath.pop_push]

theorem addRule_ofList {opened : List NamedFrame} {rule : Rule} {after : Context}
    (h : (ofList opened).addRule rule = .ok after) :
    after = ofList (ContextEvent.replay opened (.ruled rule)) := by
  rcases opened with _ | ⟨⟨name, frame⟩, outer⟩
  · cases h
  · cases h
    rfl

theorem markCommitted_ofList (opened : List NamedFrame) :
    (ofList opened).markCommitted = ofList (ContextEvent.replay opened .marked) := by
  rcases opened with _ | ⟨⟨name, frame⟩, outer⟩ <;> rfl

end Context

/-- The context stands for the list that comes of replaying its history: its levels, rules and marks
are those in the list, and each of its paths has the names of the levels of its kind. -/
def Chronicle.Replayed (chronicle : Chronicle) : Prop :=
  chronicle.context = .ofList (chronicle.history.foldl ContextEvent.replay [])

/-- The three stacks do what one list would do. -/
theorem Chronicle.replayed_kept : Kept Replayed where
  opened {history _ _ level name} h henter := by
    obtain ⟨-, -, rfl⟩ := Context.enter_eq_ok henter
    rw [Replayed, List.foldl_append]
    exact (congrArg (·.inside level name) h).trans (Context.inside_ofList _ level name)
  closed h := by
    rw [Replayed, List.foldl_append]
    exact (congrArg Context.leave h).trans (Context.leave_ofList _)
  ruled h hadd := by
    rw [Replayed] at h
    rw [Replayed, List.foldl_append]
    dsimp only at h
    rw [h] at hadd
    exact Context.addRule_ofList hadd
  marked h := by
    rw [Replayed, List.foldl_append]
    exact (congrArg Context.markCommitted h).trans (Context.markCommitted_ofList _)

end SettingsLang
