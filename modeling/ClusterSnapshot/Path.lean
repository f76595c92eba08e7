/-!
# Paths

A path is a text of names with slashes between them. It begins at the root if it begins with a
slash, and at the working directory otherwise. Empty names and single dots mean nothing, two dots
lead back to the directory above. Names and whole paths have a greatest length, counted in bytes,
and no path holds the character with code zero.
-/

namespace ClusterSnapshot

namespace Path

/-- The greatest number of bytes in a path. -/
def maxBytes : Nat := 4095

/-- The greatest number of bytes in a name. -/
def maxNameBytes : Nat := 255

/-- Whether a text can lead anywhere at all. -/
def isUsable (path : String) : Bool :=
  path != "" && path.utf8ByteSize ≤ maxBytes && !path.toList.contains '\x00'

/-- Whether a path begins at the root. -/
def isRooted (path : String) : Bool := path.toList.head? == some '/'

/-- The names in a path. -/
def names (path : String) : List String := (path.toList.splitOn '/').map String.ofList

/-- Whether a name in a path leads nowhere. -/
def isIdle (name : String) : Bool := name == "" || name == "."

/-- The names in a path that lead somewhere. -/
def steps (path : String) : List String := (names path).filter fun name => !isIdle name

/-- Whether a path begins in a single dot. -/
def beginsInDot (path : String) : Bool := (names path).head? == some "."

/-- Whether two paths go from the same beginning through the same names. How many slashes stand
between names does not matter, nor does a single dot after the beginning; but a path that begins in
a dot is told from one that does not. -/
def agree (p q : String) : Bool :=
  isRooted p == isRooted q && beginsInDot p == beginsInDot q && steps p == steps q

/-- Whether a path ends in a single dot, slashes after it not counted. -/
def endsInDot (path : String) : Bool :=
  ((names path).reverse.dropWhile (· == "")).head? == some "."

/-- The path of an entry of a directory. -/
def join (directory entry : String) : String :=
  if directory == "" || directory.toList.getLast? == some '/' then directory ++ entry
  else directory ++ "/" ++ entry

/-- The paths that lead along names after a beginning, each one name further. -/
def along (beginning : String) : List String → List String
  | [] => []
  | name :: rest => (beginning ++ name) :: along (beginning ++ name ++ "/") rest

/-- The directories to make so that there is one at a path, the outermost first. The last one is
at the path itself, unless that ends in a single dot: no directory can be made by that name. -/
def directories (path : String) : List String :=
  along (if isRooted path then "/" else "")
    (if endsInDot path then (steps path).dropLast else steps path)

end Path

end ClusterSnapshot
