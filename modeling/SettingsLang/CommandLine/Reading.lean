import SettingsLang.CommandLine

/-!
Reading of arguments, from left to right. A value is not looked at when it is read but when the
next known argument comes, or the end: until then it is pending. So of two faults the one that is
noticed first need not be the one that stands first.
-/

namespace SettingsLang

structure Given where
  directory : Option String
  output : Option String
  mode : Option CommitMode
  file : Option String
  shell : Option Shell

namespace Given

def none : Given := ⟨.none, .none, .none, .none, .none⟩

/-- Any text but the empty one is a path. -/
def path? (text : String) : Option String :=
  if text.isEmpty then .none else some text

def fill {α : Type} (old : Option α) (read? : String → Option α) (text : String) :
    Except Stop (Option α) :=
  if old.isSome then .error (.misuse .repeated)
  else
    match read? text with
    | some value => .ok (some value)
    | .none => .error (.misuse .invalidValue)

def put (given : Given) (parameter : Parameter) (text : String) : Except Stop Given :=
  match parameter with
  | .directory => do return { given with directory := ← fill given.directory path? text }
  | .output => do return { given with output := ← fill given.output path? text }
  | .mode => do return { given with mode := ← fill given.mode CommitMode.ofKeyword? text }
  | .file => do return { given with file := ← fill given.file path? text }
  | .shell => do return { given with shell := ← fill given.shell Shell.ofName? text }

end Given

/-- Arguments read so far, before a command or after it: the values that have been looked at, the
place that is pending with its value if that has come, whether the operand has come, and whether
dashes have lost their meaning. -/
structure Reading where
  verb : Option Verb
  given : Given
  pending : Option (Parameter × Option String)
  operandSeen : Bool
  dashesDone : Bool

namespace Reading

def start (verb : Option Verb) : Reading :=
  ⟨verb, .none, none, false, false⟩

def resolve (reading : Reading) : Except Stop Reading :=
  match reading.pending with
  | none => .ok reading
  | some (_, none) => .error (.misuse .invalidValue)
  | some (parameter, some text) => do
    return { reading with given := ← reading.given.put parameter text, pending := none }

/-- Whether the next argument is the value of a switch. -/
def awaitsValue (reading : Reading) : Bool :=
  !reading.dashesDone && reading.pending matches some (_, none)

/-- Makes a place pending. -/
def await (reading : Reading) (parameter : Parameter) (text : Option String) :
    Except Stop Reading := do
  return { ← reading.resolve with pending := some (parameter, text) }

def flag (reading : Reading) : Switch → Except Stop Reading
  | .debug => reading.resolve
  | .help => do
    let _ ← reading.resolve
    throw .help
  | .version => do
    let _ ← reading.resolve
    throw .version
  | .takes parameter => reading.await parameter none

/-- Reads a value that is written together with its switch. It is looked at at once. -/
def attached (reading : Reading) (parameter : Parameter) (text : String) :
    Except Stop Reading := do
  let reading ← reading.resolve
  return { reading with given := ← reading.given.put parameter text }

def long (reading : Reading) (name : String) (value : Option String) : Except Stop Reading :=
  match Switch.ofLong? reading.verb name, value with
  | none, _ => .error (.misuse .unknownArgument)
  | some switch, none => reading.flag switch
  | some (.takes parameter), some text => reading.attached parameter text
  | some _, some _ => .error (.misuse .unexpectedValue)

/-- Reads letters after one dash. What follows the letter of a switch with a value is the value,
an equals sign before it or not. -/
def short (reading : Reading) : List Char → Except Stop Reading
  | [] => .ok reading
  | letter :: rest =>
    match Switch.ofShort? reading.verb letter, rest with
    | none, _ => .error (.misuse .unknownArgument)
    | some (.takes parameter), '=' :: text => reading.attached parameter (String.ofList text)
    | some (.takes parameter), c :: text => reading.attached parameter (String.ofList (c :: text))
    | some switch, rest => do (← reading.flag switch).short rest

def isCommand (text : String) : Bool :=
  text == "help" || (Verb.ofWord? text).isSome

/-- Reads an argument that is no switch and no value of one. -/
def operand (reading : Reading) (text : String) : Except Stop Reading :=
  match reading.verb, reading.verb.bind Verb.operand?, reading.operandSeen with
  | some _, some parameter, false => do
    return { ← reading.await parameter (some text) with operandSeen := true }
  | some _, _, _ => .error (.misuse .unknownArgument)
  | none, _, _ =>
    if reading.dashesDone && isCommand text then .error (.misuse .unknownArgument)
    else .error (.misuse .unknownCommand)

def read (reading : Reading) (text : String) : Except Stop Reading :=
  if reading.dashesDone then reading.operand text
  else
    match ArgumentForm.ofText text, reading.pending with
    | .separator, _ => .ok { reading with dashesDone := true }
    | .long name value, _ => reading.long name value
    | .short letters, _ => reading.short letters
    | .plain, some (parameter, none) =>
      .ok { reading with pending := some (parameter, some text) }
    | .plain, _ => reading.operand text

/-- Whether an argument is a command: one may stand where no value has to come first. -/
def startsCommand (reading : Reading) (text : String) : Bool :=
  !reading.dashesDone && !reading.awaitsValue && isCommand text

/-- Reads arguments up to a command: the reading so far, and the command with the arguments after
it. -/
def beforeCommand (reading : Reading) :
    List String → Except Stop (Reading × Option (String × List String))
  | [] => .ok (reading, none)
  | text :: rest =>
    if reading.startsCommand text then .ok (reading, some (text, rest))
    else do (← reading.read text).beforeCommand rest

/-- What follows the command for help can only be one command. -/
def helpOn : List String → Stop
  | [] => .help
  | [word] => if isCommand word then .help else .misuse .unknownCommand
  | _ => .misuse .unknownCommand

def need {α : Type} : Option α → Except Stop α
  | some value => .ok value
  | none => .error (.misuse .missingArgument)

def action (given : Given) : Verb → Except Stop Action
  | .generate => do return .generate (← need given.file) given.output given.mode
  | .check => do return .check (← need given.file)
  | .tree => do return .tree (← need given.file)
  | .matchers => .ok .matchers
  | .config => .ok .config
  | .completion => do return .completion (← need given.shell)

end Reading

/-- The call that a list of arguments makes. What stands before the command is looked at last, and
a value after the command counts more than the same one before it. -/
def Invocation.ofArguments (arguments : List String) : Except Stop Invocation := do
  match ← (Reading.start none).beforeCommand arguments with
  | (before, none) => return ⟨(← before.resolve).given.directory, none⟩
  | (before, some (word, rest)) =>
    match Verb.ofWord? word with
    | none => throw (Reading.helpOn rest)
    | some verb =>
      let after ← (← rest.foldlM Reading.read (.start (some verb))).resolve
      let action ← Reading.action after.given verb
      let before ← before.resolve
      return ⟨after.given.directory <|> before.given.directory, some action⟩

end SettingsLang
