import SettingsLang.CommitMode
import SettingsLang.Context
import SettingsLang.Sink

/-!
Sessions: a context, a commit mode and the sink that takes the commands. Each declaration of the
language is one function here. A declaration answers with the session after it also when it fails,
since a sink may have taken a command and a level may have been marked by then.
-/

namespace SettingsLang

structure Session (σ : Type) where
  mode : CommitMode
  context : Context
  sink : σ

/-- How a declaration went, and the session after it. -/
abbrev Attempt (σ : Type) := Except Failure Unit × Session σ

/-- Goes on with the session of an attempt that succeeded; a failure stays as it is. -/
def Attempt.andThen {σ : Type} (attempt : Attempt σ) (next : Session σ → Attempt σ) : Attempt σ :=
  match attempt with
  | (.ok (), session) => next session
  | (.error failure, session) => (.error failure, session)

namespace Session

variable {σ : Type}

def start (mode : CommitMode) (sink : σ) : Session σ :=
  ⟨mode, .root, sink⟩

def unchanged (session : Session σ) : Attempt σ :=
  (.ok (), session)

def refuse (session : Session σ) (offence : Offence) : Attempt σ :=
  (.error (.language offence), session)

def emit [Sink σ] (session : Session σ) (command : Command) : Attempt σ :=
  match Sink.accept session.sink command with
  | .ok sink => (.ok (), { session with sink })
  | .error cause => (.error (.emit cause), session)

/-- The command that announces the innermost level once it is open: domains and configurations
are announced, groups only lengthen the paths. -/
def announcement (context : Context) : Level → Option Command
  | .domain => some (.createDomain context.domainPath)
  | .conf => some (.createConfiguration context.domainPath context.confPath)
  | .domainGroup | .confGroup => none

def leave (session : Session σ) : Session σ :=
  { session with context := session.context.leave }

/-- Opens a level and announces it. If the announcement is refused the level is closed again. -/
def enter [Sink σ] (session : Session σ) (level : Level) (name : String) : Attempt σ :=
  match session.context.enter level name with
  | .error offence => session.refuse offence
  | .ok context =>
    let inner := { session with context }
    match announcement context level with
    | none => inner.unchanged
    | some command =>
      match inner.emit command with
      | (.ok (), announced) => announced.unchanged
      | (.error failure, refused) => (.error failure, refused.leave)

/-- Adds a rule to the innermost level. In mode `once` a level that has an assignment takes no
more rules. -/
def ruleWith (session : Session σ) (criterion : String) (matcher : Matcher) (value : String) :
    Attempt σ :=
  let late : Except Offence Unit :=
    match session.mode with
    | .everySet => .ok ()
    | .once => session.context.ensureUncommitted "rule"
  match late with
  | .error offence => session.refuse offence
  | .ok () =>
    match session.context.addRule ⟨criterion, matcher, value⟩ with
    | .error offence => session.refuse offence
    | .ok context => (.ok (), { session with context })

/-- Adds a rule whose matcher is given by its symbol. The symbol is looked up before anything else
is checked. -/
def rule (session : Session σ) (criterion symbol value : String) : Attempt σ :=
  match Matcher.ofSymbol? symbol with
  | none => session.refuse (.unknownMatcher symbol Matcher.symbolList)
  | some matcher => session.ruleWith criterion matcher value

/-- Assigns a value to a parameter of the innermost configuration. The rules that hold there are
sent first, in mode `once` only before the first assignment. The configuration counts as having an
assignment from the moment the rules are to be sent, even if the sink refuses them. -/
def set [Sink σ] (session : Session σ) (parameter value : String) : Attempt σ :=
  match session.context.require "set" .conf with
  | .error offence => session.refuse offence
  | .ok () =>
    let domain := session.context.domainPath
    let conf := session.context.confPath
    let marked := { session with context := session.context.markCommitted }
    let committed :=
      if session.mode = .once ∧ session.context.isCommitted = true then marked.unchanged
      else marked.emit (.setRule domain conf marked.context.flattenedRules)
    Attempt.andThen committed fun session =>
      session.emit (.setParameter domain conf parameter value)

/-- Components are part of the language but cannot be evaluated. -/
def component (session : Session σ) : Attempt σ :=
  session.refuse (.notSupported "component")

/-- Configuration types are part of the language but cannot be evaluated. -/
def confType (session : Session σ) : Attempt σ :=
  session.refuse (.notSupported "confType")

/-- Runs a body inside a level, and closes the level however the body ends. -/
def within [Sink σ] (session : Session σ) (level : Level) (name : String)
    (body : Session σ → Attempt σ) : Attempt σ :=
  match session.enter level name with
  | (.error failure, refused) => (.error failure, refused)
  | (.ok (), inner) =>
    let (result, after) := body inner
    (result, after.leave)

end Session

end SettingsLang
