import TypedRoutes.Emission.Codec
import TypedRoutes.Tree.Basic

/-!
# Codec tables of enumerations

* `EnumTable` : the members of an enumeration with the texts they are written as;
* `EnumTable.ofMembers` : the table of a member list, in which no text occurs twice;
* `EnumTable.code` : the table as a constant;
* `enumsOf` : the enumerations that a node writes or reads.
-/

namespace TypedRoutes.Emission

open Syntax Code

/-- The members of an enumeration, each with the text it is written as. -/
structure EnumTable where
  /-- The name of the constant. -/
  name : String
  type : Code
  entries : List (String × String)
  deriving Inhabited

namespace EnumTable

/-- The entries of members, where `seen` are the members before with their texts. -/
def entriesFrom (place : Place) (enumeration : String) (seen : List (String × String)) :
    List String → Except Failure (List (String × String))
  | [] => .ok []
  | m :: rest => do
    let variant ← identifier place m
    let text := Text.kebab m
    match seen.find? fun (_, t) => t = text with
    | some (previous, _) => throw ⟨.sharedMemberText previous m enumeration text, place⟩
    | none =>
      return (variant, text) :: (← entriesFrom place enumeration ((m, text) :: seen) rest)

/-- The table of an enumeration's members. -/
def ofMembers (place : Place) (enumeration : String) (members : List String) :
    Except Failure EnumTable := do
  let type ← typeCode place (.named enumeration)
  let name ← tableName place enumeration
  return ⟨name, type, ← entriesFrom place enumeration [] members⟩

/-- The table as a constant. -/
def code (t : EnumTable) : Code :=
  let entries := t.entries.map fun (m, text) => tuple [member t.type m, str text]
  let slice := refer (Tokens.brackets (tuple [t.type, strRef]))
  word "const" ++ typed (word t.name) slice ++ op "=" ++ refer (brackets entries) ++ op ";"

end EnumTable

/-- The enumeration of a type or of its elements. -/
def enumIn? (catalog : Catalog) (t : TypeRef) : Option String :=
  enumName? catalog (t.element?.getD t)

/-- The types that a node writes or reads: those of its path parameters, of its query parameters,
and of the fields behind the parameters of its template. -/
def carriedTypes (n : Node) : List TypeRef :=
  (Bindings.inPath n.bindings).map Binding.type ++ (Bindings.inQuery n.bindings).map Binding.type ++
    ((n.template?.map PathTemplate.names).getD []).filterMap fun p => (n.field? p).map Field.type

/-- A list without the items that occur earlier in it or in `seen`. -/
def dropRepeated (seen : List String) : List String → List String
  | [] => []
  | a :: rest =>
    if a ∈ seen then dropRepeated seen rest else a :: dropRepeated (a :: seen) rest

/-- The enumerations that a node writes or reads, in the order of their first use. -/
def enumsOf (catalog : Catalog) (n : Node) : List String :=
  dropRepeated [] ((carriedTypes n).filterMap (enumIn? catalog))

end TypedRoutes.Emission
