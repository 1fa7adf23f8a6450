import SettingsLang.Decimal.Shortest
import SettingsLang.Text.Shown
import SettingsLang.Toml.Document

/-!
Why a document is refused: it is not well-formed, or what it holds is not what is asked for. The
place of a fault in the document is not kept; a mark stands for the report of it.
-/

namespace SettingsLang.Toml

/-- How a value does not fit what is asked for. `expected` says what is asked for. -/
inductive Misfit where
  | missingField (name : String)
  | wrongType (found expected : String)
  | unknownVariant (found : String) (known : List String)
  | noVariant (type : String)
  | wrongLength (found : Nat) (expected : String)
  | notAVariant
  deriving DecidableEq, Repr

/-- A value as a message names it. Tables, dates and times are all maps. -/
def Value.describe : Value → String
  | .text value => s!"string {Text.shown value}"
  | .integer value => s!"integer `{Decimal.integerText value}`"
  | .float value => s!"floating point `{value.textIn Binary64.positionalLayout}`"
  | .boolean value => if value then "boolean `true`" else "boolean `false`"
  | .array _ => "sequence"
  | .datetime _ | .table _ => "map"

namespace Misfit

def ofValue (found : Value) (expected : String) : Misfit :=
  .wrongType found.describe expected

def choice : List String → String
  | [one] => s!"`{one}`"
  | [one, other] => s!"`{one}` or `{other}`"
  | names => "one of " ++ ", ".intercalate (names.map fun name => s!"`{name}`")

/-- The sentence on a misfit. There is none on a value that cannot name a variant. -/
def sentence? : Misfit → Option String
  | .missingField name => some s!"missing field `{name}`"
  | .wrongType found expected => some s!"invalid type: {found}, expected {expected}"
  | .unknownVariant found known =>
    some s!"unknown variant `{found}`, expected {choice known}"
  | .noVariant type => some s!"data did not match any variant of untagged enum {type}"
  | .wrongLength found expected => some s!"invalid length {found}, expected {expected}"
  | .notAVariant => none

end Misfit

inductive Fault where
  | malformed
  | misfit (misfit : Misfit)
  deriving DecidableEq, Repr

/-- The mark that stands for the report of where a fault is. -/
def reportMark : String := "<TOML>"

/-- What is said of a fault: the mark, and the sentence on a misfit after it. -/
def Fault.message : Fault → String
  | .malformed => reportMark
  | .misfit found =>
    match found.sentence? with
    | none => reportMark
    | some sentence => reportMark ++ " " ++ sentence

/-- Reads a document and decodes its table. -/
def decode {α : Type} (document : String)
    (read : List (String × Value) → Except Misfit α) : Except Fault α :=
  match parse? document with
  | none => .error .malformed
  | some entries => (read entries).mapError .misfit

end SettingsLang.Toml
