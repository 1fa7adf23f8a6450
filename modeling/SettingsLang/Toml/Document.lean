import SettingsLang.Toml.Bare
import SettingsLang.Toml.Table

/-!
TOML documents. A document is read into sections, the lines under one header, and the sections
are then put into one table.
-/

namespace SettingsLang.Toml

/-- The document after white space, line breaks and comments; `inComment` says that the line at
hand is a comment. -/
def skipLayout (inComment : Bool) : List Char → List Char
  | [] => []
  | '\n' :: rest => skipLayout false rest
  | '\r' :: '\n' :: rest => skipLayout false rest
  | c :: rest =>
    if inComment then if isPlain c then skipLayout true rest else c :: rest
    else if isSpace c then skipLayout false rest
    else if c = '#' then skipLayout true rest
    else c :: rest

/-- The document after the rest of a line that holds nothing but white space and a comment. -/
def lineEnd? (cs : List Char) : Option (List Char) :=
  let rest := match skipSpace cs with
    | '#' :: comment => comment.dropWhile isPlain
    | rest => rest
  match rest with
  | [] => some []
  | rest => lineBreak? rest

def isBareKeyChar (c : Char) : Bool :=
  c.isAlphanum || c == '-' || c == '_'

/-- Reads a key that is no path. -/
def simpleKey? : Reader String := fun cs =>
  match cs with
  | '"' :: _ | '\'' :: _ => lineString? cs
  | cs =>
    let key := cs.takeWhile isBareKeyChar
    if key.isEmpty then none else some (String.ofList key, cs.dropWhile isBareKeyChar)

/-- Reads keys with points between them and white space around them, at most `room` of them. -/
def keys? : (room : Nat) → Reader KeyPath
  | 0, _ => none
  | room + 1, cs => do
    let (key, rest) ← simpleKey? (skipSpace cs)
    match skipSpace rest with
    | '.' :: rest =>
      let (path, rest) ← keys? room rest
      some (⟨key :: path.outer, path.key⟩, rest)
    | rest => some (⟨[], key⟩, rest)

/-- The greatest depth of a document: the number of arrays and inline tables inside one another,
and that of the keys in a path. -/
def depthLimit : Nat := 79

def keyPath? : Reader KeyPath :=
  keys? depthLimit

def pair? (value : Reader Value) : Reader (KeyPath × Value) := fun cs => do
  let (path, rest) ← keyPath? cs
  let rest ← expect? '=' rest
  let (value, rest) ← value (skipSpace rest)
  some ((path, value), rest)

/-- Reads the items of an array after its bracket. They may stand on several lines with comments,
and a comma may follow the last one. -/
def items? (value : Reader Value) : (fuel : Nat) → Reader (List Value)
  | 0, _ => none
  | fuel + 1, cs =>
    match skipLayout false cs with
    | ']' :: rest => some ([], rest)
    | cs => do
      let (item, rest) ← value cs
      match skipLayout false rest with
      | ']' :: rest => some ([item], rest)
      | ',' :: rest =>
        let (items, rest) ← items? value fuel rest
        some (item :: items, rest)
      | _ => none

/-- Reads the pairs of an inline table, at least one, up to its closing brace. They stand on one
line and no comma follows the last one. -/
def inlinePairs? (value : Reader Value) : (fuel : Nat) → Reader (List (KeyPath × Value))
  | 0, _ => none
  | fuel + 1, cs => do
    let (pair, rest) ← pair? value cs
    match skipSpace rest with
    | '\x7d' :: rest => some ([pair], rest)
    | ',' :: rest =>
      let (pairs, rest) ← inlinePairs? value fuel rest
      some (pair :: pairs, rest)
    | _ => none

def inlineTable? (value : Reader Value) : Reader Value := fun cs =>
  match skipSpace cs with
  | '\x7d' :: rest => some (.table [], rest)
  | cs => do
    let (pairs, rest) ← inlinePairs? value cs.length cs
    let entries ← Draft.Entries.fill [] pairs
    some (.table (Draft.closeEntries entries), rest)

def flat? : Reader Value := fun cs =>
  match cs with
  | '"' :: _ | '\'' :: _ => (string? cs).map fun (text, rest) => (.text text, rest)
  | cs => bare? cs

/-- Reads a value. At most `room` arrays and inline tables may stand inside one another. -/
def value? : (room : Nat) → Reader Value
  | 0 => flat?
  | room + 1 => fun cs =>
    match cs with
    | '[' :: rest =>
      (items? (value? room) rest.length rest).map fun (items, rest) => (.array items, rest)
    | '\x7b' :: rest => inlineTable? (value? room) rest
    | cs => flat? cs

/-- A header: the path of a table, or of an array of tables that gets one more element. -/
structure Header where
  isElement : Bool
  path : KeyPath

inductive Line where
  | header (header : Header)
  | pair (path : KeyPath) (value : Value)

/-- Reads a line that is not empty, with its end. -/
def line? : Reader Line := fun cs =>
  match cs with
  | '[' :: '[' :: rest => do
    let (path, rest) ← keyPath? rest
    let rest ← expect? ']' rest
    let rest ← expect? ']' rest
    let rest ← lineEnd? rest
    some (.header ⟨true, path⟩, rest)
  | '[' :: rest => do
    let (path, rest) ← keyPath? rest
    let rest ← expect? ']' rest
    let rest ← lineEnd? rest
    some (.header ⟨false, path⟩, rest)
  | cs => do
    let ((path, value), rest) ← pair? (value? depthLimit) cs
    let rest ← lineEnd? rest
    some (.pair path value, rest)

def lines? : (fuel : Nat) → List Char → Option (List Line)
  | 0, _ => none
  | fuel + 1, cs =>
    match skipLayout false cs with
    | [] => some []
    | cs => do
      let (line, rest) ← line? cs
      let lines ← lines? fuel rest
      some (line :: lines)

structure Section where
  header : Header
  pairs : List (KeyPath × Value)

def sections : List Line → List (KeyPath × Value) × List Section
  | [] => ([], [])
  | .pair path value :: rest =>
    let (pairs, sections) := sections rest
    ((path, value) :: pairs, sections)
  | .header header :: rest =>
    let (pairs, sections) := sections rest
    ([], ⟨header, pairs⟩ :: sections)

/-- Puts a section into the table of the document. -/
def Section.place (entries : Draft.Entries) (part : Section) : Option Draft.Entries :=
  let add := if part.header.isElement then Draft.Entries.addElement else Draft.Entries.addTable
  Draft.Entries.within (add part.header.path.key part.pairs) part.header.path.outer entries

/-- The table of a document, unless it is not well-formed. A byte order mark may stand first. -/
def parse? (document : String) : Option (List (String × Value)) := do
  let cs := match document.toList with
    | '\uFEFF' :: rest => rest
    | cs => cs
  let lines ← lines? (cs.length + 1) cs
  let (pairs, parts) := sections lines
  let entries ← Draft.Entries.fill [] pairs
  let entries ← parts.foldlM Section.place entries
  some (Draft.closeEntries entries)

end SettingsLang.Toml
