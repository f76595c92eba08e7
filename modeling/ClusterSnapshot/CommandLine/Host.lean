import ClusterSnapshot.Path

/-!
# Hosts

The commands of the program reach files through a `Host`.
-/

namespace ClusterSnapshot.CommandLine

/-- What reading a file gives. -/
inductive Reading where
  /-- There is no file that can be read. -/
  | unreadable
  /-- There is a file, but it holds no text. -/
  | notText
  | text (content : String)
  deriving DecidableEq, Repr

/-- How files are reached. -/
structure Host (m : Type → Type) where
  readText : String → m Reading
  /-- Whether there is something at a path. -/
  pathExists : String → m Bool
  /-- Whether there is a directory at a path. -/
  isDirectory : String → m Bool
  /-- Writes a file, in place of one that is there; whether it could. -/
  writeText : String → String → m Bool
  /-- Makes a directory in one that is there; whether there is a directory at the path now. -/
  makeDirectory : String → m Bool
  /-- Whether two paths lead to the same file. -/
  sameFile : String → String → m Bool

/-- Makes a directory with all directories above it; whether there is a directory at the path now.
Directories made on the way stay when a later one cannot be made. A path that cannot lead anywhere
makes none, and the empty path needs none. -/
def Host.makeDirectories {m : Type → Type} [Monad m] (host : Host m) (path : String) :
    m Bool := do
  if path == "" then return true
  if !Path.isUsable path then return false
  if ← (Path.directories path).allM host.makeDirectory then host.isDirectory path
  else return false

end ClusterSnapshot.CommandLine
