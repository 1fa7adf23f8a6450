import SettingsLang.Failure
import SettingsLang.Level
import SettingsLang.NamePath
import SettingsLang.Rule

/-!
The context of an evaluation: three stacks. One holds the levels that are open, each with its rules
so far and the mark that an assignment has been made in it. The names of the levels are in two
paths, those of domains apart from those of configurations. Opening a level puts its name on the
path of its kind, and closing it takes the last name off that path.
-/

namespace SettingsLang

/-- An open level. `committed` is set by the first assignment made while the level is innermost. -/
structure Frame where
  level : Level
  rules : List Rule
  committed : Bool
  deriving DecidableEq, Repr

/-- A level just opened: no rules, no assignment. -/
def Frame.fresh (level : Level) : Frame :=
  ⟨level, [], false⟩

/-- The names of the open domain groups and of the domain, the names of the open configuration
groups and of the configuration, and the open levels, innermost first. -/
structure Context where
  domainPath : NamePath
  confPath : NamePath
  frames : List Frame
  deriving DecidableEq, Repr

namespace Context

def root : Context := ⟨.root, .root, []⟩

def depth (context : Context) : Nat :=
  context.frames.length

/-- No level is open and both paths are empty. -/
def isEmpty (context : Context) : Bool :=
  context.frames.isEmpty && context.domainPath.isEmpty && context.confPath.isEmpty

def innermost (context : Context) : Option Level :=
  context.frames.head?.map (·.level)

/-- The rules of each open level, outermost first. -/
def rulesByDepth (context : Context) : List (List Rule) :=
  (context.frames.map (·.rules)).reverse

/-- The rules of the open level with `depth` levels around it. -/
def rulesAt (context : Context) (depth : Nat) : Option (List Rule) :=
  context.rulesByDepth[depth]?

/-- The rules that hold here: those of every open level, outermost first. -/
def flattenedRules (context : Context) : RuleSet :=
  ⟨context.rulesByDepth.flatten⟩

def describe (context : Context) : String :=
  match context.innermost with
  | none => "at the root"
  | some level =>
    if level.isDomainLevel then s!"inside {level.keyword} '{context.domainPath.render}'"
    else
      s!"inside {level.keyword} '{context.confPath.render}' of domain '{context.domainPath.render}'"

def misplaced (context : Context) (operation : String) : Offence :=
  .misplaced operation context.describe

/-- The context in a level just opened. The name goes to the path of the level's kind. -/
def inside (context : Context) (level : Level) (name : String) : Context :=
  if level.isDomainLevel then
    ⟨context.domainPath.push name, context.confPath, .fresh level :: context.frames⟩
  else ⟨context.domainPath, context.confPath.push name, .fresh level :: context.frames⟩

/-- Opens a level, if its name is one and the level may stand here. The name is looked at
first. -/
def enter (context : Context) (level : Level) (name : String) : Except Offence Context :=
  match NameFault.find? name with
  | some fault => .error (.invalidName name fault.reason)
  | none =>
    if level.allowedIn context.innermost then .ok (context.inside level name)
    else .error (context.misplaced level.keyword)

/-- Closes the innermost level, and takes a name off the path of its kind. -/
def leave (context : Context) : Context :=
  match context.frames with
  | [] => context
  | frame :: outer =>
    if frame.level.isDomainLevel then ⟨context.domainPath.pop.2, context.confPath, outer⟩
    else ⟨context.domainPath, context.confPath.pop.2, outer⟩

/-- Adds a rule to the innermost level; the root takes none. -/
def addRule (context : Context) (rule : Rule) : Except Offence Context :=
  match context.frames with
  | [] => .error (context.misplaced "rule")
  | frame :: outer =>
    .ok { context with frames := { frame with rules := frame.rules ++ [rule] } :: outer }

/-- Refuses an operation unless the innermost level is the one that it needs. -/
def require (context : Context) (operation : String) (level : Level) : Except Offence Unit :=
  if context.innermost = some level then .ok () else .error (context.misplaced operation)

def isCommitted (context : Context) : Bool :=
  context.frames.head?.any (·.committed)

/-- Marks the innermost level as having an assignment; the root carries no mark. -/
def markCommitted (context : Context) : Context :=
  match context.frames with
  | [] => context
  | frame :: outer => { context with frames := { frame with committed := true } :: outer }

/-- Refuses an operation after an assignment in the innermost level. -/
def ensureUncommitted (context : Context) (operation : String) : Except Offence Unit :=
  if context.isCommitted then
    .error (.misplaced operation s!"after the first set {context.describe}")
  else .ok ()

/-- Closing a level takes its name off the path that it was put on. -/
theorem leave_inside (context : Context) (level : Level) (name : String) :
    (context.inside level name).leave = context := by
  unfold inside
  split <;> simp [leave, Frame.fresh, NamePath.pop_push, *]

theorem leave_enter {context inner : Context} {level : Level} {name : String}
    (h : context.enter level name = .ok inner) : inner.leave = context := by
  unfold enter at h
  split at h
  · cases h
  · split at h
    · cases h
      exact context.leave_inside level name
    · cases h

end Context

end SettingsLang
