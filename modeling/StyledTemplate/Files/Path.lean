import StyledTemplate.Text.Name

/-!
# Paths

A path names a file by its components. Repeated slashes, a slash at the end and single dots do not
count, except for a dot that a path starts with.
-/

namespace StyledTemplate

/-- The pieces of a path between its slashes. -/
def pathPieces (path : String) : List String := (Text.splitOn '/' path.toList).map String.ofList

/-- Does the path start at the root? -/
def isAbsolutePath (path : String) : Bool := path.toList.head? == some '/'

/-- Does a piece of a path count, if it is not the first? -/
def isProperPiece (piece : String) : Bool := piece ≠ "" && piece ≠ "."

/-- The components of a path. A path that starts at the root has a slash as its first component. -/
def components (path : String) : List String :=
  match pathPieces path with
  | [] => []
  | first :: rest =>
    let start :=
      if isAbsolutePath path then ["/"] else if first = "" then [] else [first]
    start ++ rest.filter isProperPiece

/-- A path below a directory. A path that starts at the root stays as it is. -/
def joinPath (dir path : String) : String :=
  if isAbsolutePath path then path
  else if dir = "" ∨ dir.toList.getLast? = some '/' then dir ++ path
  else dir ++ "/" ++ path

end StyledTemplate
