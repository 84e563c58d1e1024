/-
  Paths of files, as texts whose steps are separated by slashes.

  `join` reads a path as seen from a directory, `parent` gives the directory that a
  path stands in. Both work on the text alone and cancel no `..`, so a message shows
  a path as it was put together.
-/

namespace Autopilot.Path

/-- The steps of a path; a leading, doubled or trailing slash leaves an empty step. -/
def steps (path : String) : List String :=
  (path.toList.splitOn '/').map String.ofList

/-- Whether a path starts at the root. -/
def isAbsolute (path : String) : Bool :=
  path.toList.head? == some '/'

/-- The path as seen from a directory. -/
def join (directory path : String) : String :=
  if isAbsolute path || directory = "" then path
  else if directory.toList.getLast? = some '/' then directory ++ path
  else directory ++ "/" ++ path

/-- Drops steps that lead nowhere from the end of a path, given from its end; the first step of the
    path stays. -/
def dropIdle : List String → List String
  | [] => []
  | [first] => [first]
  | step :: next :: outer =>
    if step = "" ∨ step = "." then dropIdle (next :: outer) else step :: next :: outer

/-- The directory that a path stands in; empty for a bare name. -/
def parent (path : String) : String :=
  match (dropIdle ((steps path).reverse.drop 1)).reverse with
  | [""] => "/"
  | outer => "/".intercalate outer

end Autopilot.Path
