/-!
# HexPulse — FileTree — Path

Paths of files as texts.  A path is shown without the parts that lead nowhere.
-/

namespace HexPulse.Path

/-- The parts of a path that lead somewhere. -/
def parts (path : String) : List String := (path.splitOn "/").filter fun p => p ≠ "" && p ≠ "."

/-- The slashes that a path from the root starts with: one, unless there are exactly two. -/
def root (path : String) : String :=
  match path.toList.takeWhile (· = '/') with
  | [] => ""
  | ['/', '/'] => "//"
  | _ => "/"

/-- The path without parts that lead nowhere; a point if nothing is left. -/
def normal (path : String) : String :=
  let shown := root path ++ "/".intercalate (parts path)
  if shown.isEmpty then "." else shown

/-- A path continued by another one. -/
def join (path more : String) : String :=
  normal (root path ++ "/".intercalate (parts path ++ parts more))

/-- The folder that a path is in. -/
def parent (path : String) : String := normal (root path ++ "/".intercalate (parts path).dropLast)

/-- The last part of a path. -/
def name (path : String) : String := (parts path).getLastD ""

end HexPulse.Path
