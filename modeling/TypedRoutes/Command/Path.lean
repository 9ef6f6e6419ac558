/-!
# Paths of files

* `pathPieces` : the pieces of a path between its slashes;
* `parent?` : the path of the directory around a path, empty if the path has one piece;
* `inside` : the path of a file in a directory;
* `directoryOf` : the directory around a path, the current one if the path names none.

Behind the first piece of a path an empty piece and a single dot lead nowhere.
-/

namespace TypedRoutes.Command

/-- The pieces of a path between its slashes. -/
def pathPieces (path : String) : List String :=
  (path.toList.splitOnP (· == '/')).map String.ofList

def ofPieces (ps : List String) : String :=
  "/".intercalate ps

/-- Whether a piece leads nowhere. -/
def isIdle (piece : String) : Bool :=
  piece = "" || piece = "."

/-- The pieces without those at the end that lead nowhere. -/
def dropIdle (ps : List String) : List String :=
  (ps.reverse.dropWhile isIdle).reverse

/-- The pieces without the last that leads somewhere and all around it that lead nowhere. -/
def dropLast (ps : List String) : List String :=
  dropIdle (dropIdle ps).dropLast

/-- The path of the directory around a path. -/
def parent? (path : String) : Option String :=
  match pathPieces path with
  | [] => none
  | head :: rest =>
    if (dropIdle rest).isEmpty then
      if head = "" then none else some ""
    else if head = "" then some ("/" ++ ofPieces (dropLast rest))
    else some (ofPieces (head :: dropLast rest))

/-- The path of a file in a directory. -/
def inside (directory file : String) : String :=
  if directory = "" ∨ directory.toList.getLast? = some '/' then directory ++ file
  else directory ++ "/" ++ file

/-- The directory around a path. -/
def directoryOf (path : String) : String :=
  match parent? path with
  | none | some "" => "."
  | some d => d

end TypedRoutes.Command
