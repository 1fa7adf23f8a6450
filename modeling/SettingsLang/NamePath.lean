import SettingsLang.Text.Blank

/-!
Names and dotted paths. A path is a list of names, outermost first; what may be a name is decided
where a level is opened, so that a path by itself can hold any text.
-/

namespace SettingsLang

/-- What keeps a text from being a name. -/
inductive NameFault where
  | empty
  | dotted
  | blank
  deriving DecidableEq, Repr

namespace NameFault

/-- The first fault of a text as a name: no characters, a point, white space. -/
def find? (name : String) : Option NameFault :=
  if name.toList.isEmpty then some .empty
  else if name.toList.any (· == '.') then some .dotted
  else if name.toList.any Text.isBlank then some .blank
  else none

def reason : NameFault → String
  | .empty => "name must not be empty"
  | .dotted => "name must not contain '.'"
  | .blank => "name must not contain whitespace"

end NameFault

structure NamePath where
  segments : List String
  deriving DecidableEq, Repr

namespace NamePath

def root : NamePath := ⟨[]⟩

def push (path : NamePath) (name : String) : NamePath :=
  ⟨path.segments ++ [name]⟩

/-- The innermost name, if there is one, and the path without it. -/
def pop (path : NamePath) : Option String × NamePath :=
  (path.segments.getLast?, ⟨path.segments.dropLast⟩)

def size (path : NamePath) : Nat :=
  path.segments.length

def isEmpty (path : NamePath) : Bool :=
  path.segments.isEmpty

/-- The names with points between them. -/
def render (path : NamePath) : String :=
  ".".intercalate path.segments

theorem pop_push (path : NamePath) (name : String) : (path.push name).pop = (some name, path) := by
  simp [push, pop]

end NamePath

end SettingsLang
