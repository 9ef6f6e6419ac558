/-!
# Annotations

* `Annotation` : a route as its type is annotated, with the routes nested in it;
* `Declaration` : a top-level annotation together with the type it stands on.
-/

namespace TypedRoutes

/-- A navigable route with a path template, or a shell that only lays out its children. -/
inductive Annotation
  | go (type : String) (path name : Option String) (routes : List Annotation)
  | shell (type : String) (routes : List Annotation)
  deriving Repr, Inhabited, BEq

namespace Annotation

/-- A route with a path and nothing nested in it. -/
def ofPath (type path : String) : Annotation :=
  .go type (some path) none []

/-- A shell with nothing nested in it. -/
def ofShell (type : String) : Annotation :=
  .shell type []

/-- The type that the annotation names. -/
def type : Annotation → String
  | go t _ _ _ => t
  | shell t _ => t

def routes : Annotation → List Annotation
  | go _ _ _ rs => rs
  | shell _ rs => rs

/-- Name a route. A shell has no name. -/
def withName : Annotation → String → Annotation
  | go t p _ rs, name => go t p (some name) rs
  | shell t rs, _ => shell t rs

/-- Nest a route behind those already nested. -/
def withChild : Annotation → Annotation → Annotation
  | go t p n rs, child => go t p n (rs ++ [child])
  | shell t rs, child => shell t (rs ++ [child])

end Annotation

/-- A top-level annotation and the type it stands on. -/
structure Declaration where
  type : String
  annotation : Annotation
  deriving Repr, Inhabited, BEq

end TypedRoutes
