import ClusterSnapshot.CommandLine.Host

/-!
# Files as a value

`FileTree.host` is a host whose files are a value. It follows a path step by step, and every step
begins in a directory.
-/

namespace ClusterSnapshot.CommandLine

/-- What can be at a place. -/
inductive FileNode where
  | directory
  | text (content : String)
  deriving DecidableEq, Repr

/-- Files by place, a place being the names on the way from the root. The working directory and
all directories above it are always there. -/
structure FileTree where
  /-- The place of the working directory. -/
  working : List String
  nodes : List (List String × FileNode)

namespace FileTree

/-- No files, seen from a working directory. -/
def empty (working : List String) : FileTree := ⟨working, []⟩

instance : Inhabited FileTree := ⟨empty []⟩

/-- What is at a place. -/
def at? (t : FileTree) (place : List String) : Option FileNode :=
  if place.isPrefixOf t.working then some .directory
  else (t.nodes.find? (·.1 == place)).map (·.2)

/-- Whether there is a directory at a place. -/
def hasDirectory (t : FileTree) (place : List String) : Bool := t.at? place == some .directory

/-- The tree with something put at a place. -/
def put (t : FileTree) (place : List String) (x : FileNode) : FileTree :=
  { t with nodes := (place, x) :: t.nodes.filter (·.1 != place) }

/-- The place that names lead to from a place. Every step must begin in a directory. -/
def walk? (t : FileTree) (place : List String) : List String → Option (List String)
  | [] => some place
  | name :: rest =>
    if !t.hasDirectory place then none
    else if Path.isIdle name then t.walk? place rest
    else if name == ".." then t.walk? place.dropLast rest
    else if Path.maxNameBytes < name.utf8ByteSize then none
    else t.walk? (place ++ [name]) rest

/-- The place that a path leads to, whether or not anything is there. -/
def place? (t : FileTree) (path : String) : Option (List String) :=
  if Path.isUsable path then
    t.walk? (if Path.isRooted path then [] else t.working) (Path.names path)
  else none

/-- What a path leads to. -/
def find? (t : FileTree) (path : String) : Option FileNode := (t.place? path).bind t.at?

/-- The tree with a directory at a path; `none` where that cannot be. -/
def makeDirectory? (t : FileTree) (path : String) : Option FileTree := do
  let place ← t.place? path
  match t.at? place with
  | some .directory => some t
  | some (.text _) => none
  | none => some (t.put place .directory)

/-- The tree with a text written to a path; `none` where that cannot be. -/
def write? (t : FileTree) (path content : String) : Option FileTree := do
  let place ← t.place? path
  if t.hasDirectory place.dropLast && !t.hasDirectory place then
    some (t.put place (.text content))
  else none

/-- Replaces the tree by another one, if there is one; whether there is. -/
def replace (t? : Option FileTree) : StateM FileTree Bool :=
  match t? with
  | some t => do set t; return true
  | none => return false

/-- A host whose files are a value. -/
def host : Host (StateM FileTree) where
  readText path := do
    match (← get).find? path with
    | some (.text content) => return .text content
    | _ => return .unreadable
  pathExists path := do return ((← get).find? path).isSome
  isDirectory path := do return (← get).find? path == some .directory
  writeText path content := do replace ((← get).write? path content)
  makeDirectory path := do replace ((← get).makeDirectory? path)
  sameFile p q := do
    let t ← get
    return (t.place? p).isSome && t.place? p == t.place? q

end FileTree

end ClusterSnapshot.CommandLine
