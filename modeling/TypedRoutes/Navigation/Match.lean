import TypedRoutes.Path.Join
import TypedRoutes.Text.Percent

/-!
# Matching paths

* `pathBelow` : the template of a route below its parent's, as the navigator joins them;
* `matchTemplate` : the values of a template's parameters in a path;
* `boundTo?` : the value of a parameter.

A template is matched piece by piece between slashes. A piece that begins with a colon stands for
any piece of the path that is not empty and can be decoded; any other piece stands for itself.
-/

namespace TypedRoutes.Navigation

open Text

/-- The template of a route below its parent's. A path that begins with a slash stands alone. -/
def pathBelow (parent child : List Char) : List Char :=
  if child.head? = some '/' ∨ parent.isEmpty then '/' :: dropSlashes child
  else dropSlashesEnd parent ++ '/' :: child

/-- The pieces of a path between its slashes. -/
def pieces (path : List Char) : List (List Char) :=
  path.splitOnP (· == '/')

/-- The values of parameters, by name. -/
abbrev Params := List (String × String)

/-- The value of a parameter. Of two values for one name the later counts. -/
def boundTo? (ps : Params) (name : String) : Option String :=
  ps.reverse.lookup name

/-- The value of one parameter piece. -/
def pieceValue (got : List Char) : Option String :=
  if got.isEmpty then none else Percent.decode (String.ofList got)

/-- The values of the parameters among the pieces of a template. -/
def matchPieces : List (List Char) → List (List Char) → Option Params
  | [], [] => some []
  | (':' :: name) :: ws, got :: gs => do
    let v ← pieceValue got
    let rest ← matchPieces ws gs
    return (String.ofList name, v) :: rest
  | want :: ws, got :: gs => if want = got then matchPieces ws gs else none
  | _, _ => none

/-- The values of a template's parameters in a path. -/
def matchTemplate (template path : List Char) : Option Params :=
  matchPieces (pieces template) (pieces path)

end TypedRoutes.Navigation
