import ExScript.Text.Blank

/-!
# Paths

A path is kept as it was written, because that is how it is shown. Two paths are the same if they
have the same parts: separators that repeat or end a path do not count, and neither does a dot,
unless it begins the path.
-/

namespace ExScript.Path

/-- What stands between the separators of a path. -/
def pieces (path : String) : List (List Char) :=
  (path.toList.splitOnP (· == '/')).filter fun piece => !piece.isEmpty

/-- Whether a path starts at the root of the system. -/
def isAbsolute (path : String) : Bool :=
  path.toList.head? == some '/'

/-- Whether a path ends in a separator, and so can only be a directory. -/
def namesDirectory (path : String) : Bool :=
  path.toList.getLast? == some '/'

/-- The parts of a path by which paths are compared. -/
def parts (path : String) : List (List Char) :=
  match isAbsolute path, pieces path with
  | true, all => ['/'] :: all.filter (· != ['.'])
  | false, first :: rest => first :: rest.filter (· != ['.'])
  | false, [] => []

/-- Whether two paths are the same. -/
def same (p q : String) : Bool :=
  parts p == parts q

theorem same_refl (p : String) : same p p := by
  simp [same]

/-- The path of a file in a directory. -/
def join (directory file : String) : String :=
  if directory.isEmpty || namesDirectory directory then directory ++ file
  else directory ++ "/" ++ file

end ExScript.Path
