import SettingsLang.Proofs.Occurrence
import SettingsLang.Session

/-!
What a place in a description says, read off the blocks that come before it in document order and
off nothing else: the paths, the rules that hold there, the level around it, and whether something
was assigned there. From these follow the commands that a block stands for and the offence that it
commits, if it commits one.
-/

namespace SettingsLang

namespace Block

def level? : Block → Option Level
  | .space level _ _ => some level
  | _ => none

/-- The name of a block that opens a level of the kind. -/
def nameOf? (belongs : Level → Bool) : Block → Option String
  | .space level name _ => if belongs level then some name else none
  | _ => none

/-- The rule that a block declares, with its matcher resolved and its value as text. -/
def rule? : Block → Option Rule
  | .rule criterion symbol value =>
    (Matcher.ofSymbol? symbol).map fun matcher => ⟨criterion, matcher, value.render⟩
  | _ => none

def isSet : Block → Bool
  | .set .. => true
  | _ => false

end Block

/-- The names of the blocks around a position and of the block at it, outermost first, as far as
they open levels of the kind. -/
def namesAround (belongs : Level → Bool) (known : List Occurrence) (position : Position) :
    NamePath :=
  ⟨(known.filter (·.position.isPrefixOf position)).filterMap (·.block.nameOf? belongs)⟩

/-- The rules that hold directly inside the block at a position: those that come before and stand
directly inside this block or one around it, in document order. -/
def rulesHolding (before : List Occurrence) (inside : Position) : List Rule :=
  (before.filter fun earlier =>
    earlier.parent != [] && earlier.parent.isPrefixOf inside).filterMap (·.block.rule?)

theorem rulesHolding_append (first second : List Occurrence) (inside : Position) :
    rulesHolding (first ++ second) inside =
      rulesHolding first inside ++ rulesHolding second inside := by
  simp [rulesHolding]

/-- Whether an assignment comes before, directly inside the block at a position. -/
def assignedIn (before : List Occurrence) (inside : Position) : Bool :=
  before.any fun earlier => earlier.parent == inside && earlier.block.isSet

theorem assignedIn_append (first second : List Occurrence) (inside : Position) :
    assignedIn (first ++ second) inside =
      (assignedIn first inside || assignedIn second inside) :=
  List.any_append

/-- The level that the block at a position opens; there is none at the root. -/
def levelAt? (known : List Occurrence) (position : Position) : Option Level :=
  (known.find? (·.position == position)).bind (·.block.level?)

/-- The place inside the block at a position, in words. -/
def placeText (known : List Occurrence) (inside : Position) : String :=
  let domain := (namesAround Level.isDomainLevel known inside).render
  let conf := (namesAround (!·.isDomainLevel) known inside).render
  match levelAt? known inside with
  | none => "at the root"
  | some level =>
    if level.isDomainLevel then s!"inside {level.keyword} '{domain}'"
    else s!"inside {level.keyword} '{conf}' of domain '{domain}'"

namespace Occurrence

/-- The commands that a block stands for. The names in its paths are those of the known blocks at
and around it, the rules are those of the blocks before it. In mode `once` the rules go with the
first assignment of a body only. -/
def commands (mode : CommitMode) (known before : List Occurrence) (occurrence : Occurrence) :
    List Command :=
  let domain := namesAround Level.isDomainLevel known occurrence.position
  let conf := namesAround (!·.isDomainLevel) known occurrence.position
  match occurrence.block with
  | .space .domain _ _ => [.createDomain domain]
  | .space .conf _ _ => [.createConfiguration domain conf]
  | .set parameter value =>
    let assignment := Command.setParameter domain conf parameter value.render
    if mode = .once ∧ assignedIn before occurrence.parent = true then [assignment]
    else [.setRule domain conf ⟨rulesHolding before occurrence.parent⟩, assignment]
  | _ => []

/-- The offence of a block, if it has one. Its place is told from the known blocks around it. The
name of a level is looked at before its place; the matcher of a rule is looked at first, then
whether the rule comes too late, then whether it stands at the root. -/
def offence? (mode : CommitMode) (known before : List Occurrence) (occurrence : Occurrence) :
    Option Offence :=
  let around := levelAt? known occurrence.parent
  let place := placeText known occurrence.parent
  match occurrence.block with
  | .space level name _ =>
    match NameFault.find? name with
    | some fault => some (.invalidName name fault.reason)
    | none => if level.allowedIn around then none else some (.misplaced level.keyword place)
  | .rule _ symbol _ =>
    if Matcher.ofSymbol? symbol = none then some (.unknownMatcher symbol Matcher.symbolList)
    else if mode = .once ∧ assignedIn before occurrence.parent = true then
      some (.misplaced "rule" s!"after the first set {place}")
    else if around = none then some (.misplaced "rule" place)
    else none
  | .set .. => if around = some .conf then none else some (.misplaced "set" place)
  | .component _ => some (.notSupported "component")
  | .confType _ => some (.notSupported "confType")

end Occurrence

/-- How blocks end that come after others, and the commands that they stand for up to the first
block with an offence. -/
def meaning (mode : CommitMode) (before : List Occurrence) :
    List Occurrence → Except Failure Unit × List Command
  | [] => (.ok (), [])
  | occurrence :: later =>
    match occurrence.offence? mode before before with
    | some offence => (.error (.language offence), [])
    | none =>
      let known := before ++ [occurrence]
      let (result, commands) := meaning mode known later
      (result, occurrence.commands mode known before ++ commands)

theorem meaning_offence {mode : CommitMode} {before : List Occurrence} {occurrence : Occurrence}
    {offence : Offence} (h : occurrence.offence? mode before before = some offence)
    (later : List Occurrence) :
    meaning mode before (occurrence :: later) = (.error (.language offence), []) := by
  simp only [meaning, h]

theorem meaning_cons {mode : CommitMode} {before : List Occurrence} {occurrence : Occurrence}
    (h : occurrence.offence? mode before before = none) (later : List Occurrence) :
    meaning mode before (occurrence :: later) =
      ((meaning mode (before ++ [occurrence]) later).1,
        occurrence.commands mode (before ++ [occurrence]) before ++
          (meaning mode (before ++ [occurrence]) later).2) := by
  simp only [meaning, h]

theorem meaning_append (mode : CommitMode) (before first second : List Occurrence) :
    meaning mode before (first ++ second) =
      match meaning mode before first with
      | (.ok (), commands) =>
        ((meaning mode (before ++ first) second).1,
          commands ++ (meaning mode (before ++ first) second).2)
      | (.error failure, commands) => (.error failure, commands) := by
  induction first generalizing before with
  | nil => simp [meaning]
  | cons occurrence later ih =>
      rw [List.cons_append]
      cases hoffence : occurrence.offence? mode before before with
      | some offence => rw [meaning_offence hoffence, meaning_offence hoffence]
      | none =>
          rw [meaning_cons hoffence, meaning_cons hoffence, ih (before ++ [occurrence])]
          rcases meaning mode (before ++ [occurrence]) later with ⟨_ | _, commands⟩
          · rfl
          · simp

theorem meaning_append_eq_ok_iff {mode : CommitMode} {before first second : List Occurrence}
    {commands : List Command} :
    meaning mode before (first ++ second) = (.ok (), commands) ↔
      ∃ sent after, meaning mode before first = (.ok (), sent) ∧
        meaning mode (before ++ first) second = (.ok (), after) ∧ commands = sent ++ after := by
  rw [meaning_append]
  rcases meaning mode before first with ⟨_ | _, sent⟩
  · simp
  · rcases meaning mode (before ++ first) second with ⟨_ | _, after⟩ <;> simp [eq_comm]

end SettingsLang
