import Mathlib.Data.List.Infix
import SettingsLang.Level
import SettingsLang.Rule

/-!
The history of a context: what was done to it, first to last. A history knows no stack. Whether a
level is still open is read off by counting: it is as long as nothing that came since has closed
more than it opened. What was done in such a level still stands.
-/

namespace SettingsLang

/-- Something that was done to a context. Refused operations and questions do nothing. -/
inductive ContextEvent where
  | opened (level : Level) (name : String)
  | closed
  | ruled (rule : Rule)
  | marked
  deriving DecidableEq, Repr

namespace ContextEvent

def isOpening : ContextEvent → Bool
  | .opened .. => true
  | _ => false

def openings (events : List ContextEvent) : Nat :=
  events.countP isOpening

def closings (events : List ContextEvent) : Nat :=
  events.count .closed

/-- The level that was innermost before these events is open after them: no first part of them
closes more than it opens. -/
def StaysOpen (since : List ContextEvent) : Prop :=
  ∀ part, part <+: since → closings part ≤ openings part

/-- The level that was innermost before these events is innermost after them. -/
def StaysInnermost (since : List ContextEvent) : Prop :=
  StaysOpen since ∧ openings since = closings since

instance (since : List ContextEvent) : Decidable (StaysOpen since) :=
  decidable_of_iff (∀ part ∈ since.inits, closings part ≤ openings part) (by simp [StaysOpen])

/-- The events whose level is still open, in the order of the history. The level of an event is the
one that was innermost after it. -/
def standing : List ContextEvent → List ContextEvent
  | [] => []
  | event :: since => if StaysOpen since then event :: standing since else standing since

def opened? : ContextEvent → Option (Level × String)
  | .opened level name => some (level, name)
  | _ => none

/-- The name that an event gave to a level of one kind. -/
def nameGiven? (belongs : Level → Bool) : ContextEvent → Option String
  | .opened level name => if belongs level then some name else none
  | _ => none

def levelOpened? : ContextEvent → Option Level
  | .opened level _ => some level
  | _ => none

def ruleAdded? : ContextEvent → Option Rule
  | .ruled rule => some rule
  | _ => none

/-- How many levels are open inside a level after an event, unless the event closes the level
itself. -/
def above : Nat → ContextEvent → Option Nat
  | height, .opened .. => some (height + 1)
  | 0, .closed => none
  | height + 1, .closed => some height
  | height, .ruled _ | height, .marked => some height

/-- How many levels are open after events inside the level that was innermost before, unless they
have closed it. -/
def aboveAll? (since : List ContextEvent) : Option Nat :=
  since.foldlM above 0

theorem above_eq_some_iff (height after : Nat) (event : ContextEvent) :
    above height event = some after ↔
      height + openings [event] = after + closings [event] := by
  cases event <;> cases height <;>
    simp [above, openings, closings, isOpening, eq_comm]

theorem aboveAll?_snoc (since : List ContextEvent) (event : ContextEvent) :
    aboveAll? (since ++ [event]) = (aboveAll? since).bind (above · event) := by
  simp [aboveAll?]

theorem staysOpen_nil : StaysOpen [] := by
  intro part hpart
  simp [List.prefix_nil.mp hpart, closings]

theorem staysOpen_snoc {since : List ContextEvent} {event : ContextEvent} :
    StaysOpen (since ++ [event]) ↔
      StaysOpen since ∧ closings (since ++ [event]) ≤ openings (since ++ [event]) := by
  constructor
  · intro h
    exact ⟨fun part hpart => h part (hpart.trans (List.prefix_append _ _)),
      h _ (List.prefix_refl _)⟩
  · rintro ⟨hsince, hall⟩ part hpart
    rcases List.prefix_concat_iff.mp hpart with rfl | hshorter
    · exact hall
    · exact hsince part hshorter

/-- Counting openings and closings is counting the levels above, one event after the other. -/
theorem aboveAll?_eq_some_iff (since : List ContextEvent) (height : Nat) :
    aboveAll? since = some height ↔
      StaysOpen since ∧ openings since = closings since + height := by
  induction since using List.reverseRecOn generalizing height with
  | nil => simp [aboveAll?, staysOpen_nil, openings, closings, eq_comm]
  | append_singleton since event ih =>
      have hopenings : openings (since ++ [event]) = openings since + openings [event] :=
        List.countP_append
      have hclosings : closings (since ++ [event]) = closings since + closings [event] :=
        List.count_append
      rw [aboveAll?_snoc, Option.bind_eq_some_iff, staysOpen_snoc, hopenings, hclosings]
      simp only [ih, above_eq_some_iff]
      constructor
      · rintro ⟨before, ⟨hopen, hcount⟩, habove⟩
        exact ⟨⟨hopen, by omega⟩, by omega⟩
      · rintro ⟨⟨hopen, hle⟩, hcount⟩
        have hsince := hopen since (List.prefix_refl _)
        exact ⟨openings since - closings since, ⟨hopen, by omega⟩, by omega⟩

theorem staysOpen_iff (since : List ContextEvent) :
    StaysOpen since ↔ ∃ height, aboveAll? since = some height := by
  simp only [aboveAll?_eq_some_iff]
  constructor
  · intro h
    have hsince := h since (List.prefix_refl _)
    exact ⟨openings since - closings since, h, by omega⟩
  · rintro ⟨_, h, -⟩
    exact h

theorem staysInnermost_iff (since : List ContextEvent) :
    StaysInnermost since ↔ aboveAll? since = some 0 :=
  (aboveAll?_eq_some_iff since 0).symm

/-- Each event with the number of levels that are open inside its own by the end of the history. -/
def heights : List ContextEvent → List (ContextEvent × Option Nat)
  | [] => []
  | event :: since => (event, aboveAll? since) :: heights since

theorem heights_snoc (history : List ContextEvent) (event : ContextEvent) :
    heights (history ++ [event]) =
      (heights history).map (fun entry => (entry.1, entry.2.bind (above · event))) ++
        [(event, some 0)] := by
  induction history with
  | nil => rfl
  | cons first since ih => simp [heights, ih, aboveAll?_snoc]

theorem mem_heights_iff {history : List ContextEvent} {event : ContextEvent}
    {height : Option Nat} :
    (event, height) ∈ heights history ↔
      ∃ before since, history = before ++ event :: since ∧ aboveAll? since = height := by
  induction history with
  | nil => simp [heights]
  | cons first rest ih =>
      rw [heights, List.mem_cons, ih]
      constructor
      · rintro (hfirst | ⟨before, since, rfl, hheight⟩)
        · cases hfirst
          exact ⟨[], rest, rfl, rfl⟩
        · exact ⟨first :: before, since, rfl, hheight⟩
      · rintro ⟨before, since, hsplit, hheight⟩
        rcases before with _ | ⟨earlier, before⟩
        · obtain ⟨rfl, rfl⟩ := List.cons.inj hsplit
          exact Or.inl (by rw [hheight])
        · exact Or.inr ⟨before, since, (List.cons.inj hsplit).2, hheight⟩

/-- The events in whose level at least so many levels are open. -/
def held (count : Nat) (history : List ContextEvent) : List ContextEvent :=
  ((heights history).filter (·.2.any (count ≤ ·))).map (·.1)

theorem standing_eq_held (history : List ContextEvent) : standing history = held 0 history := by
  induction history with
  | nil => rfl
  | cons event since ih =>
      rw [standing, ih]
      cases hheight : aboveAll? since with
      | none => simp [staysOpen_iff, held, heights, hheight]
      | some height => simp [staysOpen_iff, held, heights, hheight]

/-- How many levels must have been open inside a level before an event for `count` to be open after
it. -/
def needed (count : Nat) : ContextEvent → Nat
  | .opened .. => count - 1
  | .closed => count + 1
  | .ruled _ | .marked => count

theorem above_any_le (count height : Nat) (event : ContextEvent) :
    (above height event).any (count ≤ ·) = decide (needed count event ≤ height) := by
  cases event with
  | opened level name => exact decide_eq_decide.mpr (by simp only [needed]; omega)
  | closed =>
      cases height with
      | zero => exact (decide_eq_false (by simp [needed])).symm
      | succ height => exact decide_eq_decide.mpr (by simp only [needed]; omega)
  | ruled rule => rfl
  | marked => rfl

theorem held_snoc (count : Nat) (history : List ContextEvent) (event : ContextEvent) :
    held count (history ++ [event]) =
      held (needed count event) history ++ if count = 0 then [event] else [] := by
  have hneeded (height : Option Nat) : (height.bind (above · event)).any (count ≤ ·) =
      height.any (needed count event ≤ ·) := by
    cases height with
    | none => rfl
    | some height => exact above_any_le count height event
  rw [held, heights_snoc, List.filter_append, List.filter_map]
  simp only [Function.comp_def, hneeded]
  by_cases hcount : count = 0 <;> simp [held, hcount, Function.comp_def]

variable {count : Nat} {history : List ContextEvent} {event : ContextEvent}

/-- An event says nothing of the levels around its own, and a closing says nothing at all. -/
def Passes (count : Nat) (event : ContextEvent) : Prop :=
  count ≠ 0 ∨ event = .closed

theorem filterMap_held_snoc {α : Type} {view : ContextEvent → Option α}
    (hclosed : view .closed = none) (h : Passes count event) :
    (held count (history ++ [event])).filterMap view =
      (held (needed count event) history).filterMap view := by
  rw [held_snoc, List.filterMap_append]
  rcases h with hcount | rfl
  · simp [hcount]
  · by_cases hcount : count = 0 <;> simp [hcount, hclosed]

theorem mem_heights_snoc {earlier : ContextEvent} :
    (earlier, some count) ∈ heights (history ++ [event]) ↔
      (earlier = event ∧ count = 0) ∨ ∃ height, (earlier, some height) ∈ heights history ∧
        height + openings [event] = count + closings [event] := by
  rw [heights_snoc, List.mem_append, List.mem_map, List.mem_singleton, or_comm]
  refine or_congr (by simp) ⟨?_, ?_⟩
  · rintro ⟨⟨other, height⟩, hmem, hentry⟩
    obtain ⟨rfl, hheight⟩ := Prod.mk.inj hentry
    obtain ⟨height, rfl, habove⟩ := Option.bind_eq_some_iff.mp hheight
    exact ⟨height, hmem, (above_eq_some_iff _ _ _).mp habove⟩
  · rintro ⟨height, hmem, hcount⟩
    exact ⟨_, hmem, by simp [(above_eq_some_iff _ _ _).mpr hcount]⟩

end ContextEvent

end SettingsLang
