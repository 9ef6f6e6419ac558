import TypedRoutes.Json.Reader
import TypedRoutes.Json.Schema

/-!
# Input documents

* `Document` : the types and the declarations that the host hands over;
* `Document.parse` : a document from its text; `Document.toJson` : its JSON form.

What a declaration holds besides its fields is skipped, readable or not. Everything else in a
document must be readable, and nested no deeper than `Json.maxDepth`.
-/

namespace TypedRoutes

/-- What the host hands over. -/
structure Document where
  types : Catalog
  declarations : List Declaration := []

namespace Document

def fieldNames : List String :=
  ["types", "declarations"]

def toJson (d : Document) : Json :=
  .object [("types", d.types.toJson),
    ("declarations", .array (d.declarations.map Declaration.toJson))]

def ofJson? (j : Json) : Option Document := do
  let fs ← Json.fields fieldNames true j
  return {
    types := ← fs.get "types" Catalog.ofJson?
    declarations := ← fs.getOr "declarations" (Json.asList Declaration.ofJson?) [] }

/-- A declaration without what is skipped in it. -/
def trimDeclaration : Json → Json
  | .object members => .object (members.filter fun (k, _) => Declaration.fieldNames.contains k)
  | j => j

def trimDeclarations : Json → Json
  | .array items => .array (items.map trimDeclaration)
  | j => j

/-- A document without what is skipped in it. -/
def trim : Json → Json
  | .object members =>
    .object (members.map fun (k, j) => (k, if k = "declarations" then trimDeclarations j else j))
  | .array [types, declarations] => .array [types, trimDeclarations declarations]
  | j => j

/-- Read a document. -/
def parse (source : String) : Option Document := do
  let j ← Json.parse source
  let j := trim j
  if j.isReadable ∧ j.depth ≤ Json.maxDepth then ofJson? j else none

end Document

end TypedRoutes
