import SettingsLang.Files
import SettingsLang.Files.Path

/-!
Files kept in memory: texts under paths, without directories. Single paths can be locked against
reading or writing.
-/

namespace SettingsLang

/-- Texts under paths. No two of the paths are the same. -/
structure MemoryFiles where
  texts : List (String × String)
  unreadable : List String
  readOnly : List String

namespace MemoryFiles

def text? (files : MemoryFiles) (path : String) : Option String :=
  (files.texts.find? fun (other, _) => Path.same path other).map (·.2)

/-- The files with a text put under a path. A path that is there already stays as it was
written. -/
def put (files : MemoryFiles) (path text : String) : MemoryFiles :=
  { files with
    texts :=
      if (files.text? path).isSome then
        files.texts.map fun (other, old) => (other, if Path.same path other then text else old)
      else files.texts ++ [(path, text)] }

/-- The files of a list, a later one in place of an earlier one with the same path. -/
def ofList (texts : List (String × String)) (unreadable readOnly : List String) : MemoryFiles :=
  texts.foldl (fun files (path, text) => files.put path text) ⟨[], unreadable, readOnly⟩

def paths (files : MemoryFiles) : List String :=
  (files.texts.map (·.1)).mergeSort Path.notAfter

/-- Something is at a path also if it cannot be read. -/
def present (files : MemoryFiles) (path : String) : Bool :=
  files.unreadable.any (Path.same path) || (files.text? path).isSome

def read (files : MemoryFiles) (path : String) : Except String String :=
  if files.unreadable.any (Path.same path) then .error "denied"
  else
    match files.text? path with
    | some text => .ok text
    | none => .error "missing"

def write (files : MemoryFiles) (path text : String) : Except String MemoryFiles :=
  if files.readOnly.any (Path.same path) then .error "read-only"
  else .ok (files.put path text)

end MemoryFiles

instance : FileAccess (StateM MemoryFiles) where
  present path := do return (← get).present path
  readText path := do return (← get).read path
  writeText path text := do
    match (← get).write path text with
    | .ok files => do
      set files
      return .ok ()
    | .error cause => return .error cause

end SettingsLang
