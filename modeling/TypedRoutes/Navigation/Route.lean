import TypedRoutes.Navigation.Location

/-!
# Routes at run time

* `Route` : a tree of navigable routes and shells, each navigable one with a target;
* `Route.find` : the first route in post-order whose joined template matches a path;
* `Route.decode` : the value of a location, made by the target of the route found;
* `ReadError` : why a target makes no value.
-/

namespace TypedRoutes.Navigation

/-- Why a value cannot be made of a request. -/
inductive ReadError
  /-- A required value is absent. -/
  | missing (key : String)
  /-- A value is there but does not convert. -/
  | invalid (key raw : String)
  deriving DecidableEq, Repr

/-- A tree of routes with targets of type `τ`. -/
inductive Route (τ : Type)
  | go (path : String) (name? parentKey? : Option String) (target : τ) (routes : List (Route τ))
  | shell (key? parentKey? : Option String) (routes : List (Route τ))
  deriving Inhabited

namespace Route

variable {τ : Type}

mutual

/-- The first route in post-order whose joined template matches a path, with the values of its
parameters. `parent` is the joined template of the routes above. -/
def findBelow (path parent : List Char) : Route τ → Option (τ × Params)
  | go own _ _ target routes =>
    let joined := pathBelow parent own.toList
    match findAmong path joined routes with
    | some found => some found
    | none => (matchTemplate joined path).map (target, ·)
  | shell _ _ routes => findAmong path parent routes

def findAmong (path parent : List Char) : List (Route τ) → Option (τ × Params)
  | [] => none
  | r :: rest =>
    match findBelow path parent r with
    | some found => some found
    | none => findAmong path parent rest

end

/-- The route whose joined template matches a path. -/
def find (r : Route τ) (path : List Char) : Option (τ × Params) :=
  r.findBelow path []

/-- The value of a location: `none` when no route matches. -/
def decode {π α : Type} (r : Route (Request π → Except ReadError α)) (location : String)
    (payload : Option π) : Option (Except ReadError α) := do
  let (path, query) := splitLocation location
  let (target, params) ← r.find path
  return target ⟨params, Query.parse query, payload⟩

end Route

end TypedRoutes.Navigation
