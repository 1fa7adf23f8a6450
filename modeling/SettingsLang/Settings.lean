import SettingsLang.CommitMode
import SettingsLang.Environment
import SettingsLang.Failure
import SettingsLang.Files
import SettingsLang.Files.Path
import SettingsLang.Toml.Misfit
import SettingsLang.Toml.Quote

/-!
Settings, in layers. Over the defaults lie the user's file, the file of a directory and the
environment, in this order; a layer counts where it says something. Variables in the output path
are put in once, after all layers.
-/

namespace SettingsLang

/-- What the program can be told once for all its runs. -/
structure Settings where
  mode : CommitMode
  output : Option String
  deriving DecidableEq, Repr

/-- What one source says about the settings. -/
structure SettingsLayer where
  mode : Option CommitMode
  output : Option String
  deriving DecidableEq, Repr

namespace SettingsLayer

open Toml (Value Misfit)

def empty : SettingsLayer := ⟨none, none⟩

def modeNamed (name : String) : Except Misfit CommitMode :=
  match CommitMode.ofKeyword? name with
  | some mode => .ok mode
  | none => .error (.unknownVariant name [CommitMode.everySet.keyword, CommitMode.once.keyword])

/-- A mode: its name, or a table with the name as its only key and nothing under it. -/
def modeOf : Value → Except Misfit CommitMode
  | .text name => modeNamed name
  | .table [(name, content)] => do
    let mode ← modeNamed name
    match content with
    | .table [] | .array [] => return mode
    | _ => throw .notAVariant
  | _ => .error .notAVariant

def pathOf : Value → Except Misfit String
  | .text path => .ok path
  | value => .error (.ofValue value "path string")

/-- The layer with what one entry of a document says. Entries under other keys say nothing. -/
def read (layer : SettingsLayer) : String × Value → Except Misfit SettingsLayer
  | ("rule_commit", value) => do return { layer with mode := some (← modeOf value) }
  | ("output", value) => do return { layer with output := some (← pathOf value) }
  | _ => .ok layer

/-- What a document says. Its entries are looked at in order. -/
def ofToml (document : String) : Except Toml.Fault SettingsLayer :=
  Toml.decode document fun entries => entries.foldlM read empty

/-- A text with a point for each two underscores in it, first to last. -/
def pointed : List Char → List Char
  | [] => []
  | '_' :: '_' :: rest => '.' :: pointed rest
  | c :: rest => c :: pointed rest

/-- The key that a variable stands for: what comes after the prefix in its name, in small
letters. Points divide a key into the names of tables around a value. -/
def keyOf? (name : String) : Option String :=
  ("pfsettings_".toList.isPrefixOf? name.toLower.toList).map fun rest => String.ofList (pointed rest)

/-- The value of the last variable that stands for a key. Variables for keys below it, such as
`output.x`, make a table of the key and give it no text. Where an environment has both for a key,
it is left open which of them stays; here it is the text. -/
def valueAt? (environment : Environment) (key : String) : Option String :=
  (environment.entries.filter (keyOf? ·.1 == some key)).getLast?.map (·.2)

def ofEnvironment (environment : Environment) : Except Failure SettingsLayer := do
  let mode ← match valueAt? environment "rule_commit" with
    | none => .ok none
    | some name =>
      match CommitMode.ofKeyword? name with
      | some mode => .ok (some mode)
      | none => .error (.config (CommitMode.unknownMessage name))
  return ⟨mode, valueAt? environment "output"⟩

end SettingsLayer

namespace Settings

def default : Settings := ⟨.default, none⟩

def overlay (settings : Settings) (layer : SettingsLayer) : Settings :=
  ⟨layer.mode.getD settings.mode, layer.output <|> settings.output⟩

/-- The settings with the values of variables in the output path. -/
def expand (settings : Settings) (environment : Environment) : Settings :=
  { settings with output := settings.output.map environment.expand }

/-- The user's file: below the directory for configuration that the environment names by an
absolute path, or else below the home directory. Without a home directory there is none. -/
def userFile? (environment : Environment) : Option String :=
  environment.home?.map fun home =>
    let named := (environment.value? "XDG_CONFIG_HOME").filter (·.startsWith "/")
    let directory := named.getD (Path.join home ".config")
    Path.join (Path.join directory "pfsettings") "pfsettings.toml"

def fileIn (directory : String) : String :=
  Path.join directory ".pfsettings.toml"

variable {m : Type → Type} [Monad m] [FileAccess m]

/-- What a file says; one that is not there says nothing. -/
def layerOf (path : String) : ExceptT Failure m SettingsLayer := do
  unless ← (FileAccess.present path : m Bool) do
    return .empty
  match ← (FileAccess.readText path : m (Except String String)) with
  | .error cause => throw (.config s!"read {path}: {cause}")
  | .ok document =>
    match SettingsLayer.ofToml document with
    | .error fault => throw (.config s!"parse {path}: {fault.message}")
    | .ok layer => return layer

def layerOf? : Option String → ExceptT Failure m SettingsLayer
  | none => return .empty
  | some path => layerOf path

/-- The settings that hold in an environment, with the file of a directory if one is given. -/
def load (environment : Environment) (directory : Option String) : ExceptT Failure m Settings := do
  let user ← layerOf? (m := m) (userFile? environment)
  let around ← layerOf? (m := m) (directory.map fileIn)
  let override ← SettingsLayer.ofEnvironment environment
  return (((default.overlay user).overlay around).overlay override).expand environment

def toToml (settings : Settings) : String :=
  s!"rule_commit = {Toml.quoted settings.mode.keyword}\n" ++
    match settings.output with
    | none => ""
    | some path => s!"output = {Toml.quoted path}\n"

end Settings

end SettingsLang
