/-!
Failures: why a description is refused or the program stops, with the message and the exit code
of each.
-/

namespace SettingsLang

inductive Offence where
  | unknownMatcher (symbol supported : String)
  | notSupported (feature : String)
  | misplaced (operation place : String)
  | invalidName (name reason : String)
  deriving DecidableEq, Repr

def Offence.message : Offence → String
  | .unknownMatcher symbol supported =>
    s!"unknown matcher '{symbol}': only {supported} are supported"
  | .notSupported feature => s!"'{feature}' is not supported yet"
  | .misplaced operation place => s!"'{operation}' is not allowed {place}"
  | .invalidName name reason => s!"invalid name '{name}': {reason}"

/-- Why the program stops. A `cause` is the text of the system's or the sink's own error. -/
inductive Failure where
  | language (offence : Offence)
  | emit (cause : String)
  | descriptionNotFound (path : String)
  | description (fault : String)
  | outputNotCreated (path cause : String)
  | config (fault : String)
  | operationFailed (operation cause : String)
  | io (operation cause : String)
  | usage (text : String)
  deriving DecidableEq, Repr

namespace Failure

def message : Failure → String
  | .language offence => offence.message
  | .emit cause => s!"cannot emit command: {cause}"
  | .descriptionNotFound path => s!"description not found: {path}"
  | .description fault => s!"invalid description: {fault}"
  | .outputNotCreated path cause => s!"cannot create output {path}: {cause}"
  | .config fault => s!"config error: {fault}"
  | .operationFailed operation _ => s!"operation failed: {operation}"
  | .io operation _ => s!"I/O error: {operation}"
  | .usage text => text

/-- The text of the error beneath this one. An offence is its own cause. -/
def cause? : Failure → Option String
  | .language offence => some offence.message
  | .emit cause | .outputNotCreated _ cause | .operationFailed _ cause | .io _ cause => some cause
  | .descriptionNotFound _ | .description _ | .config _ | .usage _ => none

/-- The exit code, by the conventions of `sysexits.h`. -/
def exitCode : Failure → Nat
  | .usage _ => 64
  | .language _ | .description _ => 65
  | .descriptionNotFound _ => 66
  | .outputNotCreated .. => 73
  | .emit _ | .operationFailed .. | .io .. => 74
  | .config _ => 78

theorem exitCode_ne_zero (failure : Failure) : failure.exitCode ≠ 0 := by
  cases failure <;> simp [exitCode]

end Failure

end SettingsLang
