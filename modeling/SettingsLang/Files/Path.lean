/-!
Paths as texts. Two texts are the same path if their components are the same: a slash more and a
`.` inside make no difference, but `..` stays, since what it leads to is up to the store.
-/

namespace SettingsLang.Path

inductive Component where
  | root
  | current
  | parent
  | name (name : String)
  deriving DecidableEq, Ord, Repr

def parts (path : String) : List String :=
  path.splitOn "/"

def inner (parts : List String) : List Component :=
  (parts.filter fun part => part != "" && part != ".").map fun part =>
    if part == ".." then .parent else .name part

/-- The components of a path. A `.` counts only as the first of a relative path. -/
def components (path : String) : List Component :=
  match parts path with
  | [""] => []
  | "" :: rest => .root :: inner rest
  | "." :: rest => .current :: inner rest
  | rest => inner rest

/-- A text between slashes that no component comes from. -/
def isVoid (part : String) : Bool :=
  part == "" || part == "."

/-- The path without its last component, as the text in front of it. It is empty if there is only
one, and the root is kept. -/
def parent (path : String) : String :=
  match parts path with
  | [] => ""
  | first :: rest =>
    match rest.reverse.dropWhile isVoid with
    | [] => if first == "" then "/" else ""
    | _ :: before =>
      match before.dropWhile isVoid with
      | [] => if first == "" then "/" else first
      | before => "/".intercalate (first :: before.reverse)

def same (path other : String) : Bool :=
  components path == components other

/-- Not after the other path: the order is that of the components, one by one, a directory before
what is in it. -/
def notAfter (path other : String) : Bool :=
  (compare (components path) (components other)).isLE

def join (directory name : String) : String :=
  if directory.isEmpty || directory.endsWith "/" then directory ++ name
  else directory ++ "/" ++ name

end SettingsLang.Path
