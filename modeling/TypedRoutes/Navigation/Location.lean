import TypedRoutes.Navigation.Match

/-!
# Locations

* `writeLocation` : a path with a query of encoded pairs;
* `splitLocation` : the path and the query of a location;
* `Query` : for every key of a query its first value, and all its values;
* `Query.parse` : the query of its text; a pair that cannot be decoded counts for nothing;
* `Request` : what a location says, and the payload passed along with it.
-/

namespace TypedRoutes.Navigation

open Text

/-! ## Writing -/

/-- A pair of a query. -/
def writePair (key value : String) : String :=
  Percent.encode key ++ "=" ++ Percent.encode value

/-- A path with a query. -/
def writeLocation (path : String) (query : List (String × String)) : String :=
  if query.isEmpty then path
  else path ++ "?" ++ "&".intercalate (query.map fun (k, v) => writePair k v)

/-! ## Reading -/

/-- What stands before and behind the first occurrence of a character. Nothing stands behind one
that does not occur. -/
def splitOnce (c : Char) (cs : List Char) : List Char × List Char :=
  (cs.takeWhile (· != c), (cs.dropWhile (· != c)).drop 1)

/-- The path and the query of a location. -/
def splitLocation (location : String) : List Char × List Char :=
  splitOnce '?' location.toList

/-- For every key of a query its first value, and all its values in order. -/
structure Query where
  first : List (String × String) := []
  all : List (String × List String) := []
  deriving Repr, Inhabited

namespace Query

/-- The values by key with one more value of a key. -/
def append (key value : String) : List (String × List String) → List (String × List String)
  | [] => [(key, [value])]
  | (k, vs) :: rest =>
    if k = key then (k, vs ++ [value]) :: rest else (k, vs) :: append key value rest

/-- The query with one more pair. -/
def add (q : Query) (key value : String) : Query where
  first := if (q.first.lookup key).isSome then q.first else q.first ++ [(key, value)]
  all := append key value q.all

/-- A decoded pair of a query. -/
def readPair (pair : List Char) : Option (String × String) := do
  let (key, value) := splitOnce '=' pair
  return (← Percent.decode (String.ofList key), ← Percent.decode (String.ofList value))

/-- The decoded pairs of a query in order. -/
def pairs (query : List Char) : List (String × String) :=
  ((query.splitOnP (· == '&')).filter fun p => !p.isEmpty).filterMap readPair

/-- The query of its text. -/
def parse (query : List Char) : Query :=
  (pairs query).foldl (fun q (k, v) => q.add k v) {}

end Query

/-- What a location says, and the payload passed along with it. -/
structure Request (π : Type) where
  params : Params
  query : Query
  payload : Option π

namespace Request

variable {π : Type}

/-- The value of a parameter of the matched template. -/
def param? (r : Request π) (name : String) : Option String :=
  boundTo? r.params name

/-- The first value of a key. -/
def first? (r : Request π) (key : String) : Option String :=
  r.query.first.lookup key

/-- All values of a key in order. -/
def all? (r : Request π) (key : String) : Option (List String) :=
  r.query.all.lookup key

end Request

end TypedRoutes.Navigation
