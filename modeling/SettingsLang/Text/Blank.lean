/-!
White space as the Unicode property `White_Space` has it: 25 characters, of which core's
`Char.isWhitespace` knows four.
-/

namespace SettingsLang.Text

/-- The code points of the property `White_Space`, as closed ranges in rising order. -/
def blankRanges : List (Nat × Nat) :=
  [(0x09, 0x0D), (0x20, 0x20), (0x85, 0x85), (0xA0, 0xA0), (0x1680, 0x1680), (0x2000, 0x200A),
    (0x2028, 0x2029), (0x202F, 0x202F), (0x205F, 0x205F), (0x3000, 0x3000)]

def isBlank (c : Char) : Bool :=
  blankRanges.any fun (low, high) => low ≤ c.toNat && c.toNat ≤ high

/-- There are 25 of them. -/
example : (blankRanges.map fun (low, high) => high + 1 - low).sum = 25 := by decide

end SettingsLang.Text
