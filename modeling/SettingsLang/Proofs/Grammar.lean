import SettingsLang.Block.Decode

/-!
The grammar of descriptions: which values stand for which blocks. It is said of finished blocks, so
it knows no order in which keys are read and no faults. A block is a table or an array, and the two
forms may be mixed; both say for each field of the block's kind what is given for it, the table
under the field's key and the array at the field's place.
-/

namespace SettingsLang

/-- The kind that a block is written as. -/
def Block.kind : Block → BlockKind
  | .space level _ _ => .space level
  | .rule .. => .rule
  | .set .. => .set
  | .component _ => .component
  | .confType _ => .confType

namespace Toml

/-- A value is a scalar of its own kind. -/
inductive Value.IsScalar : Value → Scalar → Prop where
  | boolean (value : Bool) : IsScalar (.boolean value) (.boolean value)
  | integer (value : Int) : IsScalar (.integer value) (.integer value)
  | float (value : Binary64) : IsScalar (.float value) (.float value)
  | text (value : String) : IsScalar (.text value) (.text value)

mutual

/-- A value stands for a block. Keys of a table that are no fields of the kind say nothing; an array
has no items but the kind and the fields. -/
inductive Encodes : Value → Block → Prop where
  | table {entries : List (String × Value)} {block : Block}
      (kind : entries.lookup "kind" = some (.text block.kind.keyword))
      (fields : ∀ field ∈ block.kind.fields, FieldGiven block field (entries.lookup field.key)) :
      Encodes (.table entries) block
  | array {items : List Value} {block : Block}
      (size : items.length ≤ block.kind.fields.length)
      (fields : ∀ field ∈ block.kind.fields,
        FieldGiven block field ((block.kind.fields.zip items).lookup field)) :
      Encodes (.array (.text block.kind.keyword :: items)) block

/-- What is given for a field of a block, if anything is. Only an empty body may be left off. -/
inductive FieldGiven : Block → BlockField → Option Value → Prop where
  | name {level : Level} {name : String} {body : List Block} :
      FieldGiven (.space level name body) .name (some (.text name))
  | body {level : Level} {name : String} {body : List Block} {items : List Value}
      (blocks : EncodesAll items body) :
      FieldGiven (.space level name body) .body (some (.array items))
  | noBody {level : Level} {name : String} : FieldGiven (.space level name []) .body none
  | criterion {criterion symbol : String} {value : Scalar} :
      FieldGiven (.rule criterion symbol value) .criterion (some (.text criterion))
  | matcher {criterion symbol : String} {value : Scalar} :
      FieldGiven (.rule criterion symbol value) .matcher (some (.text symbol))
  | ruleValue {criterion symbol : String} {value : Scalar} {given : Value}
      (scalar : given.IsScalar value) :
      FieldGiven (.rule criterion symbol value) .value (some given)
  | parameter {parameter : String} {value : Scalar} :
      FieldGiven (.set parameter value) .parameter (some (.text parameter))
  | setValue {parameter : String} {value : Scalar} {given : Value}
      (scalar : given.IsScalar value) : FieldGiven (.set parameter value) .value (some given)
  | componentName {name : String} : FieldGiven (.component name) .name (some (.text name))
  | confTypeName {name : String} : FieldGiven (.confType name) .name (some (.text name))

/-- Values stand for blocks, one for each in order. -/
inductive EncodesAll : List Value → List Block → Prop where
  | nil : EncodesAll [] []
  | cons {item : Value} {items : List Value} {block : Block} {blocks : List Block}
      (first : Encodes item block) (rest : EncodesAll items blocks) :
      EncodesAll (item :: items) (block :: blocks)

end

/-- The table of a document stands for blocks: they are in an array under `block`, and without such
a key there are none. -/
inductive EncodesDocument : List (String × Value) → Description → Prop where
  | blocks {entries : List (String × Value)} {items : List Value} {blocks : Description}
      (given : entries.lookup "block" = some (.array items)) (all : EncodesAll items blocks) :
      EncodesDocument entries blocks
  | empty {entries : List (String × Value)} (absent : entries.lookup "block" = none) :
      EncodesDocument entries []

/-- No table in a value has a key twice. -/
inductive Value.KeysDistinct : Value → Prop where
  | text (value : String) : KeysDistinct (.text value)
  | integer (value : Int) : KeysDistinct (.integer value)
  | float (value : Binary64) : KeysDistinct (.float value)
  | boolean (value : Bool) : KeysDistinct (.boolean value)
  | datetime (source : String) : KeysDistinct (.datetime source)
  | array {items : List Value} (items_distinct : ∀ item ∈ items, KeysDistinct item) :
      KeysDistinct (.array items)
  | table {entries : List (String × Value)} (keys : (entries.map (·.1)).Nodup)
      (values_distinct : ∀ entry ∈ entries, KeysDistinct entry.2) :
      KeysDistinct (.table entries)

end Toml

end SettingsLang
