import SettingsLang.Block
import SettingsLang.Toml.Misfit

/-!
Descriptions in TOML. A block is a table with its kind and its fields under their names, or an
array of its kind and its fields in order. The kind is looked at first; then the fields are
checked in the order in which they stand, and last it is seen whether one is missing. Of several
faults the first in this order is reported.
-/

namespace SettingsLang

inductive BlockKind where
  | space (level : Level)
  | rule
  | set
  | component
  | confType
  deriving DecidableEq, Repr

inductive BlockField where
  | name
  | body
  | criterion
  | matcher
  | parameter
  | value
  deriving DecidableEq, Repr

namespace BlockKind

/-- All kinds, in the order in which messages list them. -/
def all : List BlockKind :=
  [.space .domainGroup, .space .domain, .space .confGroup, .space .conf, .rule, .set, .component,
    .confType]

def keyword : BlockKind → String
  | .space .domainGroup => "domain_group"
  | .space .domain => "domain"
  | .space .confGroup => "conf_group"
  | .space .conf => "conf"
  | .rule => "rule"
  | .set => "set"
  | .component => "component"
  | .confType => "conf_type"

/-- The name of the kind in messages on its length. -/
def title : BlockKind → String
  | .space .domainGroup => "DomainGroup"
  | .space .domain => "Domain"
  | .space .confGroup => "ConfGroup"
  | .space .conf => "Conf"
  | .rule => "Rule"
  | .set => "Set"
  | .component => "Component"
  | .confType => "ConfType"

def ofKeyword? (keyword : String) : Option BlockKind :=
  all.find? (·.keyword == keyword)

def fields : BlockKind → List BlockField
  | .space _ => [.name, .body]
  | .rule => [.criterion, .matcher, .value]
  | .set => [.parameter, .value]
  | .component | .confType => [.name]

def elements (count : Nat) : String :=
  if count = 1 then "1 element" else s!"{count} elements"

end BlockKind

namespace BlockField

def key : BlockField → String
  | .name => "name"
  | .body => "body"
  | .criterion => "criterion"
  | .matcher => "matcher"
  | .parameter => "parameter"
  | .value => "value"

end BlockField

/-- The fields of a block as far as they have been read. -/
structure BlockFields where
  name : Option String
  body : Option (List Block)
  criterion : Option String
  matcher : Option String
  parameter : Option String
  value : Option Scalar

namespace BlockFields

def none : BlockFields := ⟨.none, .none, .none, .none, .none, .none⟩

def need {α : Type} (field : BlockField) : Option α → Except Toml.Misfit α
  | some value => .ok value
  | .none => .error (.missingField field.key)

/-- The block of a kind, unless one of its fields is missing. A missing body is empty. -/
def build (fields : BlockFields) : BlockKind → Except Toml.Misfit Block
  | .space level => do
    let name ← need .name fields.name
    return .space level name (fields.body.getD [])
  | .rule => do
    let criterion ← need .criterion fields.criterion
    let symbol ← need .matcher fields.matcher
    let value ← need .value fields.value
    return .rule criterion symbol value
  | .set => do
    let parameter ← need .parameter fields.parameter
    let value ← need .value fields.value
    return .set parameter value
  | .component => do return .component (← need .name fields.name)
  | .confType => do return .confType (← need .name fields.name)

end BlockFields

namespace Block

open Toml (Value Misfit)

def textOf : Value → Except Misfit String
  | .text text => .ok text
  | value => .error (.ofValue value "a string")

/-- A scalar, of the kind that it is written as. -/
def scalarOf : Value → Except Misfit Scalar
  | .boolean value => .ok (.boolean value)
  | .integer value => .ok (.integer value)
  | .float value => .ok (.float value)
  | .text value => .ok (.text value)
  | .datetime _ | .array _ | .table _ => .error (.noVariant "Value")

def kindOf : Value → Except Misfit BlockKind
  | .text text =>
    match BlockKind.ofKeyword? text with
    | some kind => .ok kind
    | none => .error (.unknownVariant text (BlockKind.all.map BlockKind.keyword))
  | value => .error (.ofValue value "variant identifier")

/-- The kind of a table of entries. -/
def kindIn (entries : List (String × Value)) : Except Misfit BlockKind :=
  match entries.lookup "kind" with
  | some value => kindOf value
  | none => .error (.missingField "kind")

/-- Whether an array of a kind has an item for each field and no other. The body may be left
off. -/
def checkLength (kind : BlockKind) (count : Nat) : Except Misfit Unit :=
  let fields := kind.fields.length
  let needed := if kind.fields.getLast? = some .body then fields - 1 else fields
  if count < needed then
    .error (.wrongLength count
      s!"struct variant Block::{kind.title} with {BlockKind.elements fields}")
  else if fields < count then
    .error (.wrongLength count s!"{BlockKind.elements fields} in sequence")
  else .ok ()

mutual

/-- Decodes a block. A date has no kind, like a table without one. -/
def ofValue : Value → Except Misfit Block
  | .table entries => do
    let kind ← kindIn entries
    let fields ← fieldsOfEntries kind .none entries
    fields.build kind
  | .array [] => .error (.missingField "kind")
  | .array (first :: items) => do
    let kind ← kindOf first
    let fields ← fieldsOfItems .none kind.fields items
    checkLength kind items.length
    fields.build kind
  | .datetime _ => .error (.missingField "kind")
  | value => .error (.ofValue value "internally tagged enum Block")

def ofItems : List Value → Except Misfit (List Block)
  | [] => .ok []
  | item :: rest => do
    let block ← ofValue item
    let blocks ← ofItems rest
    return block :: blocks

/-- Decodes a field and adds it to those read before. -/
def readField (fields : BlockFields) (field : BlockField) : Value → Except Misfit BlockFields
  | .array items =>
    match field with
    | .body => do return { fields with body := some (← ofItems items) }
    | .value => .error (.noVariant "Value")
    | _ => .error (.ofValue (.array items) "a string")
  | value =>
    match field with
    | .name => do return { fields with name := some (← textOf value) }
    | .criterion => do return { fields with criterion := some (← textOf value) }
    | .matcher => do return { fields with matcher := some (← textOf value) }
    | .parameter => do return { fields with parameter := some (← textOf value) }
    | .value => do return { fields with value := some (← scalarOf value) }
    | .body => .error (.ofValue value "a sequence")

/-- Decodes the entries of a table that are fields of its kind, in order. -/
def fieldsOfEntries (kind : BlockKind) (fields : BlockFields) :
    List (String × Value) → Except Misfit BlockFields
  | [] => .ok fields
  | (key, value) :: rest =>
    match kind.fields.find? (·.key == key) with
    | none => fieldsOfEntries kind fields rest
    | some field => do
      let fields ← readField fields field value
      fieldsOfEntries kind fields rest

/-- Decodes items as fields in order. Items beyond the last field are left alone. -/
def fieldsOfItems (fields : BlockFields) :
    List BlockField → List Value → Except Misfit BlockFields
  | field :: others, item :: rest => do
    let fields ← readField fields field item
    fieldsOfItems fields others rest
  | _, _ => .ok fields

end

end Block

namespace Description

/-- Decodes the table of a document: its blocks stand under `block`, and nothing else is looked
at. -/
def ofEntries (entries : List (String × Toml.Value)) : Except Toml.Misfit Description :=
  match entries.lookup "block" with
  | none => .ok []
  | some (.array items) => Block.ofItems items
  | some value => .error (.ofValue value "a sequence")

def ofToml (document : String) : Except Toml.Fault Description :=
  Toml.decode document ofEntries

end Description

end SettingsLang
