import SettingsLang.Level
import SettingsLang.Scalar

/-!
Descriptions: trees of blocks. A matcher is kept as the symbol it was written as, since a
description with an unknown one can still be shown.
-/

namespace SettingsLang

inductive Block where
  | space (level : Level) (name : String) (body : List Block)
  | rule (criterion symbol : String) (value : Scalar)
  | set (parameter : String) (value : Scalar)
  | component (name : String)
  | confType (name : String)

/-- The blocks of a document, in order. -/
abbrev Description := List Block

namespace Block

/-- The blocks inside a block, which only namespaces have. -/
def body : Block → List Block
  | .space _ _ body => body
  | _ => []

/-- The block's own text, without what is inside it. -/
def headline : Block → String
  | .space level name _ => s!"{level.keyword} {name}"
  | .rule criterion symbol value => s!"rule {criterion} {symbol} {value.render}"
  | .set parameter value => s!"set {parameter} = {value.render}"
  | .component name => s!"component {name}"
  | .confType name => s!"confType {name}"

end Block

end SettingsLang
