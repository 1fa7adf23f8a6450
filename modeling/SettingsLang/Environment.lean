import SettingsLang.Text.Word

/-!
Environments, and texts that refer to their variables: `$NAME`, `${NAME}`, `${NAME:-default}` and
a `~` in front for the home directory. A text is read into pieces first; it is expanded only if all
its pieces can be, and left as it is otherwise.
-/

namespace SettingsLang

/-- The variables of a program, and the home directory that the system has on record for the account
that runs it. -/
structure Environment where
  entries : List (String × String)
  accountHome : Option String

namespace Environment

/-- The value of a variable, which may be empty. A system keeps a variable as one text, its name and
its value with an equals sign between them, and looks for a text that starts with a name and an
equals sign. So a name with an equals sign in it can reach into a value. -/
def value? (environment : Environment) (name : String) : Option String :=
  environment.entries.findSome? fun (entry, value) =>
    ((name.toList ++ ['=']).isPrefixOf? (entry.toList ++ '=' :: value.toList)).map String.ofList

/-- The home directory that the environment names, or else the one on record. An empty text names
none. -/
def home? (environment : Environment) : Option String :=
  ((environment.value? "HOME").filter (!·.isEmpty)).or
    (environment.accountHome.filter (!·.isEmpty))

/-- A piece of a text: a character that stands for itself, or a variable with the text that takes
its place where it is not set. -/
inductive Piece where
  | literal (char : Char)
  | variable (name : String) (default : Option String)
  deriving DecidableEq, Repr

namespace Piece

/-- Cuts a text at the first `:-` in it. -/
def cutAtDefault : List Char → List Char × Option (List Char)
  | [] => ([], none)
  | ':' :: '-' :: rest => ([], some rest)
  | c :: rest =>
    let (name, default) := cutAtDefault rest
    (c :: name, default)

/-- The variable that the text between braces stands for. A name before the mark of a default is
not empty; without one the whole text is the name. -/
def ofBraced (inside : List Char) : Piece :=
  match cutAtDefault inside with
  | ([], _) | (_, none) => .variable (String.ofList inside) none
  | (name, some default) => .variable (String.ofList name) (some (String.ofList default))

/-- The pieces of a text. `$$` is a dollar sign, and so is one that no name or closed brace
follows. -/
def ofChars : List Char → List Piece
  | [] => []
  | '$' :: '$' :: rest => .literal '$' :: ofChars rest
  | '$' :: '\x7b' :: rest =>
    match h : rest.dropWhile (· != '\x7d') with
    | [] => .literal '$' :: .literal '\x7b' :: ofChars rest
    | _ :: after =>
      have : after.length < rest.length := by
        have := (List.dropWhile_suffix (l := rest) (· != '\x7d')).length_le
        simp only [h, List.length_cons] at this
        omega
      ofBraced (rest.takeWhile (· != '\x7d')) :: ofChars after
  | '$' :: rest =>
    let name := rest.takeWhile Text.isWordChar
    have := (List.dropWhile_suffix (l := rest) Text.isWordChar).length_le
    if name.isEmpty then .literal '$' :: ofChars rest
    else .variable (String.ofList name) none :: ofChars (rest.dropWhile Text.isWordChar)
  | c :: rest => .literal c :: ofChars rest
termination_by cs => cs.length

/-- What a piece stands for, unless it is a variable that is neither set nor has a default. A
value is not looked at again. -/
def expand? (environment : Environment) : Piece → Option String
  | .literal char => some (String.singleton char)
  | .variable name default => environment.value? name <|> default

end Piece

/-- The text with the values of its variables, unless one of them has none. -/
def substitute? (environment : Environment) (text : String) : Option String :=
  ((Piece.ofChars text.toList).mapM (Piece.expand? environment)).map String.join

/-- The text with the home directory for a `~` that is its first part. -/
def expandHome (environment : Environment) (text : String) : String :=
  match environment.home?, text.toList with
  | some home, ['~'] => home
  | some home, '~' :: '/' :: rest => home ++ String.ofList ('/' :: rest)
  | _, _ => text

/-- The text with variables and home directory put in. A `~` counts only if it stands in the text
itself and not in a value; without a value for each variable nothing is put in at all. -/
def expand (environment : Environment) (text : String) : String :=
  match environment.substitute? text with
  | none => text
  | some expanded =>
    if text.toList.head? = some '~' then environment.expandHome expanded else expanded

end Environment

end SettingsLang
