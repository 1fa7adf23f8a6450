import SettingsLang.Files
import SettingsLang.Files.Path

/-!
A disk: directories and files of bytes below one root, and a working directory. Paths are followed
part by part as Linux does it, and what cannot be done is refused with its message.
-/

namespace SettingsLang

inductive DiskFault where
  | missing
  | occupied
  | notDirectory
  | isDirectory
  | nameTooLong
  | zeroInPath
  | notText
  deriving DecidableEq, Repr

def DiskFault.message : DiskFault → String
  | .missing => "No such file or directory (os error 2)"
  | .occupied => "File exists (os error 17)"
  | .notDirectory => "Not a directory (os error 20)"
  | .isDirectory => "Is a directory (os error 21)"
  | .nameTooLong => "File name too long (os error 36)"
  | .zeroInPath => "file name contained an unexpected NUL byte"
  | .notText => "stream did not contain valid UTF-8"

/-- The names from the root down to a file or directory. -/
abbrev Place := List String

inductive DiskEntry where
  | directory
  | file (bytes : ByteArray)

/-- Files and directories by their places, and the working directory. The root is always there. -/
structure Disk where
  entries : List (Place × DiskEntry)
  working : Place

namespace Disk

def entry? (disk : Disk) (place : Place) : Option DiskEntry :=
  if place.isEmpty then some .directory else disk.entries.lookup place

def isDirectory (disk : Disk) (place : Place) : Bool :=
  disk.entry? place matches some .directory

def put (disk : Disk) (place : Place) (entry : DiskEntry) : Disk :=
  { disk with entries := (place, entry) :: disk.entries.filter (·.1 != place) }

/-- The place that a part of a path leads to from a directory, whether anything is there or
not. -/
def next (disk : Disk) (place : Place) (part : String) : Except DiskFault Place :=
  if !disk.isDirectory place then .error .notDirectory
  else if part = "" ∨ part = "." then .ok place
  else if part = ".." then .ok place.dropLast
  else if 255 < part.utf8ByteSize then .error .nameTooLong
  else .ok (place ++ [part])

def step (disk : Disk) (place : Place) (part : String) : Except DiskFault Place := do
  let found ← disk.next place part
  if (disk.entry? found).isSome then .ok found else .error .missing

def start (disk : Disk) (path : String) : Place :=
  if path.startsWith "/" then [] else disk.working

/-- A text that can be a path at all. -/
def checkPath (path : String) : Except DiskFault Unit :=
  if path.isEmpty then .error .missing
  else if path.contains '\x00' then .error .zeroInPath
  else if 4095 < path.utf8ByteSize then .error .nameTooLong
  else .ok ()

/-- The place that a path leads to, if something is there. -/
def locate (disk : Disk) (path : String) : Except DiskFault Place := do
  checkPath path
  (Path.parts path).foldlM disk.step (disk.start path)

def present (disk : Disk) (path : String) : Bool :=
  (disk.locate path).isOk

/-- The text of the file that a path leads to. -/
def read (disk : Disk) (path : String) : Except DiskFault String := do
  match disk.entry? (← disk.locate path) with
  | some (.file bytes) =>
    match String.fromUTF8? bytes with
    | some text => .ok text
    | none => .error .notText
  | some .directory => .error .isDirectory
  | none => .error .missing

def partOf : Path.Component → String
  | .root => ""
  | .current => "."
  | .parent => ".."
  | .name name => name

def startOf (disk : Disk) : List Path.Component → Place
  | .root :: _ => []
  | _ => disk.working

/-- The place of the directory that components lead to, if there is one. -/
def directory? (disk : Disk) (path : List Path.Component) : Option Place :=
  match (path.map partOf).foldlM disk.step (disk.startOf path) with
  | .ok place => if disk.isDirectory place then some place else none
  | .error _ => none

/-- Makes one directory, whose own name is the last of the components. -/
def makeDirectory (disk : Disk) (path : List Path.Component) : Except DiskFault Disk := do
  let around ← (path.dropLast.map partOf).foldlM disk.step (disk.startOf path)
  match path.getLast? with
  | some (.name name) =>
    let place ← disk.next around name
    if (disk.entry? place).isSome then .error .occupied else .ok (disk.put place .directory)
  | some _ => if disk.isDirectory around then .error .occupied else .error .notDirectory
  | none => .error .missing

/-- Makes a directory and those around it that are missing. The innermost is tried first, so that
a file further up is noticed as something that is no directory. Components are given innermost
first. -/
def makeDirectories (disk : Disk) : List Path.Component → Except DiskFault Disk
  | [] => .ok disk
  | last :: around =>
    let path := (last :: around).reverse
    let settle (disk : Disk) : Except DiskFault Disk → Except DiskFault Disk
      | .ok made => .ok made
      | .error fault => if (disk.directory? path).isSome then .ok disk else .error fault
    match disk.makeDirectory path with
    | .error .missing => do
      let disk ← disk.makeDirectories around
      settle disk (disk.makeDirectory path)
    | tried => settle disk tried

/-- Puts bytes into the file that a path leads to, which is made if it is missing. A path that ends
with a slash or in a point leads to a directory, whatever is there and however long its last name
is. -/
def writeFile (disk : Disk) (path : String) (bytes : ByteArray) : Except DiskFault Disk := do
  checkPath path
  let parts := Path.parts path
  match parts.reverse.dropWhile (· == "") with
  | [] => .error .isDirectory
  | last :: before =>
    let around ← before.reverse.foldlM disk.step (disk.start path)
    if !disk.isDirectory around then .error .notDirectory
    else if parts.getLast? = some "" ∨ last = "." ∨ last = ".." then .error .isDirectory
    else
      let place ← disk.next around last
      if disk.isDirectory place then .error .isDirectory else .ok (disk.put place (.file bytes))

/-- Makes the directories around a file, if its path names any. -/
def makeParents (disk : Disk) (path : String) : Except DiskFault Disk :=
  let parent := Path.parent path
  if parent.isEmpty then .ok disk
  else do
    checkPath parent
    disk.makeDirectories (Path.components parent).reverse

/-- Puts a text into a file. The directories around it are made first. If the file itself cannot be
made, the disk is as it was before: a run ends there, so it cannot tell whether the directories
have stayed. -/
def write (disk : Disk) (path text : String) : Except DiskFault Disk := do
  let disk ← disk.makeParents path
  disk.writeFile path text.toUTF8

end Disk

instance : FileAccess (StateM Disk) where
  present path := do return (← get).present path
  readText path := do return ((← get).read path).mapError DiskFault.message
  writeText path text := do
    match (← get).write path text with
    | .ok disk => do
      set disk
      return .ok ()
    | .error fault => return .error fault.message

end SettingsLang
