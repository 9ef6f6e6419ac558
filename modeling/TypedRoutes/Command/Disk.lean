import TypedRoutes.Command.Path

/-!
# Where files are kept

* `Disk` : reading a file, looking for it, and replacing it as a whole;
* `MoveError`, `WriteError` : why a file is not replaced;
* `Files` : files by the pieces of their paths; a directory is there if something is in it;
* `Files.find?` : what a path leads to; `Files.read?`, `Files.replace` : the operations of a disk;
* `Files.disk` : files in memory as a disk.

The directories around the outermost one are there too, with nothing else in them.
-/

namespace TypedRoutes.Command

/-- Why a file cannot be moved to a place. -/
inductive MoveError
  /-- The path leads through something that is not there. -/
  | notFound
  /-- The path goes on behind a file. -/
  | notDirectory
  /-- A directory stands there. -/
  | isDirectory
  /-- The path names a directory by its relation to another one. -/
  | busy
  deriving DecidableEq, Repr

/-- What the system says about it. -/
def MoveError.message : MoveError → String
  | notFound => "No such file or directory (os error 2)"
  | notDirectory => "Not a directory (os error 20)"
  | isDirectory => "Is a directory (os error 21)"
  | busy => "Device or resource busy (os error 16)"

/-- Why a file cannot be replaced. -/
inductive WriteError
  /-- There is no directory to hold it. -/
  | noDirectory
  /-- The new file cannot be moved there. -/
  | unmoved (cause : MoveError)
  deriving DecidableEq, Repr

/-- What a command does with files. -/
structure Disk (m : Type → Type) where
  /-- The text of a file. -/
  read? : String → m (Option String)
  isFile : String → m Bool
  /-- Put a text in the place of a file, all of it or nothing. -/
  replace : String → String → m (Except WriteError Unit)

/-- Files by the pieces of their paths. -/
structure Files where
  entries : List (List String × String) := []
  deriving Repr, Inhabited

namespace Files

/-- Files by their paths. -/
def ofList (fs : List (String × String)) : Files :=
  ⟨fs.map fun (path, text) => (pathPieces path, text)⟩

/-- Whether a place is the outermost directory or one around it. -/
def isOuter (place : List String) : Bool :=
  place.all (· = "..")

/-- Whether a place is a directory: an outer one, or one below which something is kept. -/
def isDirectory (fs : Files) (place : List String) : Bool :=
  isOuter place ||
    fs.entries.any fun (ps, _) => place.isPrefixOf ps && place.length < ps.length

/-- Where pieces lead from a place. -/
def follow (fs : Files) (place : List String) : List String → Option (List String)
  | [] => some place
  | p :: rest =>
    if !fs.isDirectory place then none
    else if isIdle p then fs.follow place rest
    else if p = ".." && !isOuter place then fs.follow place.dropLast rest
    else fs.follow (place ++ [p]) rest

/-- Where a path leads. -/
def find? (fs : Files) (path : String) : Option (List String) :=
  match pathPieces path with
  | [] | "" :: _ => none
  | ps => fs.follow [] ps

/-- The text of a file. -/
def read? (fs : Files) (path : String) : Option String := do
  fs.entries.lookup (← fs.find? path)

/-- The files with a text at a place. -/
def put (fs : Files) (place : List String) (text : String) : Files :=
  ⟨(place, text) :: fs.entries.filter fun (ps, _) => ps ≠ place⟩

/-- Why a file cannot be moved to a path that ends with a single dot. -/
def relationError (fs : Files) (path : String) : MoveError :=
  match fs.follow [] (dropIdle (pathPieces path)) with
  | none => .notFound
  | some place =>
    if fs.isDirectory place then .busy
    else if (fs.entries.lookup place).isSome then .notDirectory
    else .notFound

/-- The files with a text moved from the directory around a path to the path. -/
def move (fs : Files) (directory : List String) (path text : String) : Except MoveError Files :=
  match (pathPieces path).filter (· ≠ "") |>.getLast? with
  | none | some ".." => .error .busy
  | some "." => .error (fs.relationError path)
  | some name =>
    let place := directory ++ [name]
    if (pathPieces path).getLast? = some "" then .error .notDirectory
    else if fs.isDirectory place then .error .isDirectory
    else .ok (fs.put place text)

/-- The files with a text in the place of a file. -/
def replace (fs : Files) (path text : String) : Except WriteError Files :=
  match fs.find? (directoryOf path) with
  | none => .error .noDirectory
  | some directory =>
    if !fs.isDirectory directory then .error .noDirectory
    else (fs.move directory path text).mapError .unmoved

/-- Files in memory as a disk. -/
def disk : Disk (StateM Files) where
  read? path := return (← get).read? path
  isFile path := return ((← get).read? path).isSome
  replace path text := do
    match (← get).replace path text with
    | .ok fs => set fs; return .ok ()
    | .error e => return .error e

/-! ## Small facts -/

@[simp] theorem lookup_put_self (fs : Files) (place : List String) (text : String) :
    (fs.put place text).entries.lookup place = some text := by
  simp [put]

end Files

end TypedRoutes.Command
