import SettingsLang.Toml.Value

/-!
Tables under construction. A table of a document is filled from several places: lines with dotted
keys, a header of its own, headers of tables inside it. What may still be added to a table depends
on how it came to be, so each one keeps its origin until the document is closed.
-/

namespace SettingsLang.Toml

/-- A key with the keys of the tables around it, outermost first. -/
structure KeyPath where
  outer : List String
  key : String

/-- How a table came to be: by its own header, by the header of a table inside it, or by dotted
keys. -/
inductive Origin where
  | header
  | implied
  | dotted
  deriving DecidableEq, Repr

/-- A part of a document that may still grow. Values are closed: arrays and tables that are
written out in one place take nothing more. -/
inductive Draft where
  | closed (value : Value)
  | table (origin : Origin) (entries : List (String × Draft))
  | tables (elements : List (List (String × Draft)))

/-- The entries of a table under construction, in order. -/
abbrev Draft.Entries := List (String × Draft)

namespace Draft.Entries

def replace (entries : Entries) (key : String) (draft : Draft) : Entries :=
  entries.map fun entry => if entry.1 == key then (key, draft) else entry

def erase (entries : Entries) (key : String) : Entries :=
  entries.filter (·.1 != key)

def onLast (entries : Entries) (key : String) (elements : List Entries)
    (change : Entries → Option Entries) : Option Entries :=
  match elements.getLast? with
  | none => none
  | some last =>
    (change last).map fun last => entries.replace key (.tables (elements.dropLast ++ [last]))

/-- Adds a value under a dotted key. The tables named on the way are made where they are missing.
One that has a header of its own takes no dotted key, and the innermost one must have come to be
by dotted keys alone. -/
def insert (key : String) (value : Value) : (outer : List String) → Entries → Option Entries
  | [], entries =>
    match entries.lookup key with
    | none => some (entries ++ [(key, .closed value)])
    | some _ => none
  | name :: inner, entries =>
    match entries.lookup name with
    | none => (insert key value inner []).map fun sub => entries ++ [(name, .table .dotted sub)]
    | some (.table .dotted sub) =>
      (insert key value inner sub).map fun sub => entries.replace name (.table .dotted sub)
    | some (.table .implied sub) =>
      if inner.isEmpty then none
      else (insert key value inner sub).map fun sub => entries.replace name (.table .implied sub)
    | some (.tables elements) =>
      if inner.isEmpty then none else entries.onLast name elements (insert key value inner)
    | some (.table .header _) | some (.closed _) => none

def fill (entries : Entries) (pairs : List (KeyPath × Value)) : Option Entries :=
  pairs.foldlM (fun entries (path, value) => insert path.key value path.outer entries) entries

/-- Changes the table that a list of keys leads to. Missing tables are implied, and an array of
tables stands for its last element. -/
def within (change : Entries → Option Entries) : (outer : List String) → Entries → Option Entries
  | [], entries => change entries
  | name :: inner, entries =>
    match entries.lookup name with
    | none => (within change inner []).map fun sub => entries ++ [(name, .table .implied sub)]
    | some (.table origin sub) =>
      (within change inner sub).map fun sub => entries.replace name (.table origin sub)
    | some (.tables elements) => entries.onLast name elements (within change inner)
    | some (.closed _) => none

/-- Adds a table with its own header. A table that only headers inside it have implied so far is
the same one, and moves to the place of its header. -/
def addTable (key : String) (pairs : List (KeyPath × Value)) (entries : Entries) :
    Option Entries :=
  match entries.lookup key with
  | none => (fill [] pairs).map fun sub => entries ++ [(key, .table .header sub)]
  | some (.table .implied sub) =>
    (fill sub pairs).map fun sub => entries.erase key ++ [(key, .table .header sub)]
  | some _ => none

/-- Adds an element to an array of tables, which starts with its first element. -/
def addElement (key : String) (pairs : List (KeyPath × Value)) (entries : Entries) :
    Option Entries :=
  match entries.lookup key with
  | none => (fill [] pairs).map fun element => entries ++ [(key, .tables [element])]
  | some (.tables elements) =>
    (fill [] pairs).map fun element => entries.replace key (.tables (elements ++ [element]))
  | some _ => none

end Draft.Entries

namespace Draft

mutual

def close : Draft → Value
  | .closed value => value
  | .table _ entries => .table (closeEntries entries)
  | .tables elements => .array (closeElements elements)

def closeEntries : List (String × Draft) → List (String × Value)
  | [] => []
  | (key, draft) :: rest => (key, close draft) :: closeEntries rest

def closeElements : List (List (String × Draft)) → List Value
  | [] => []
  | entries :: rest => .table (closeEntries entries) :: closeElements rest

end

end Draft

end SettingsLang.Toml
