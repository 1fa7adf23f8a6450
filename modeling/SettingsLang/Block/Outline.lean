import SettingsLang.Block

/-!
Outlines: a description drawn as a tree, one line per block. The line of a block at depth `d` has
`4 · d` characters before the block's own text: for each level around it a bar if more blocks
follow there, and a branch.
-/

namespace SettingsLang

namespace Outline

/-- What stands before a line on account of a surrounding block, by whether that block is the last
of its siblings. -/
def bar (last : Bool) : String :=
  if last then "    " else "│   "

def branch (last : Bool) : String :=
  if last then "└── " else "├── "

mutual

/-- The lines of a block and all blocks inside it, after the margin drawn for the blocks around
it. -/
def lines (margin : String) (last : Bool) : Block → List String
  | .space level name body =>
    (margin ++ branch last ++ (Block.space level name []).headline)
      :: linesAll (margin ++ bar last) body
  | block => [margin ++ branch last ++ block.headline]

def linesAll (margin : String) : List Block → List String
  | [] => []
  | block :: rest => lines margin rest.isEmpty block ++ linesAll margin rest

end

end Outline

/-- The outline of a description under the label of its root, a newline after each line. -/
def Description.outline (description : Description) (root : String) : String :=
  String.join ((root :: Outline.linesAll "" description).map (· ++ "\n"))

end SettingsLang
