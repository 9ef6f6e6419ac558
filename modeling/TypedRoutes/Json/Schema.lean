import TypedRoutes.Json.Record
import TypedRoutes.Json.Writer
import TypedRoutes.Schema.Annotation
import TypedRoutes.Schema.Catalog
import TypedRoutes.Settings

/-!
# Types, annotations and settings in JSON

For each of them `toJson` writes it and `ofJson?` reads it:

* `TypeRef`, `Parameter`, `Field`, `TypeInfo`, `Catalog`;
* `Annotation`, `Declaration`;
* `Settings`.

Fields that have a natural default may be left out. A catalog is an array of types, and a later type
of a name replaces an earlier one. A described type and an annotation carry their kind as a tag.
-/

namespace TypedRoutes

open Json

/-! ## References to types -/

namespace TypeRef

mutual

def toJson : TypeRef → Json
  | ⟨name, args, nullable⟩ =>
    .object ([("name", .string name)] ++
      (if args.isEmpty then [] else [("args", .array (toJsons args))]) ++
      [("nullable", .bool nullable)])

def toJsons : List TypeRef → List Json
  | [] => []
  | t :: rest => t.toJson :: toJsons rest

end

/-- Read a type whose arguments are nested less than `n` deep. -/
def ofJsonWithin : Nat → Json → Option TypeRef
  | 0, _ => none
  | n + 1, j => do
    let fs ← fields ["name", "args", "nullable"] false j
    return {
      name := ← fs.get "name" asString
      args := ← fs.getOr "args" (asList (ofJsonWithin n)) []
      nullable := ← fs.getOr "nullable" asBool false }

def ofJson? (j : Json) : Option TypeRef :=
  ofJsonWithin (j.depth + 1) j

end TypeRef

/-! ## Constructors and fields -/

namespace Parameter

def toJson (p : Parameter) : Json :=
  .object ([("name", .string p.name), ("type", p.type.toJson), ("positional", .bool p.positional),
    ("named", .bool p.named), ("required", .bool p.required)] ++
    (match p.default? with
      | some e => [("default_value", .string e)]
      | none => []))

def ofJson? (j : Json) : Option Parameter := do
  let fs ← fields ["name", "type", "positional", "named", "required", "default_value"] false j
  return {
    name := ← fs.get "name" asString
    type := ← fs.get "type" TypeRef.ofJson?
    positional := ← fs.getOr "positional" asBool false
    named := ← fs.getOr "named" asBool false
    required := ← fs.getOr "required" asBool false
    default? := ← fs.getOr "default_value" (asNullable asString) none }

end Parameter

namespace Field

def toJson (f : Field) : Json :=
  .object [("name", .string f.name), ("type", f.type.toJson)]

def ofJson? (j : Json) : Option Field := do
  let fs ← fields ["name", "type"] false j
  return ⟨← fs.get "name" asString, ← fs.get "type" TypeRef.ofJson?⟩

end Field

/-! ## Described types -/

namespace TypeInfo

def toJson (t : TypeInfo) : Json :=
  .object (("name", .string t.name) ::
    match t.shape with
    | .record constructor fields constants =>
      [("kind", .string "struct"), ("constructor", .array (constructor.map Parameter.toJson)),
        ("fields", .array (fields.map Field.toJson)),
        ("static_fields", .array (constants.map Field.toJson))]
    | .enumeration members =>
      [("kind", .string "enum"), ("members", .array (members.map .string))])

/-- Read the shape of a type from its tag and its other fields. -/
def shapeOfJson? (tag content : Json) : Option Shape := do
  match ← tagName ["struct", "enum"] true tag with
  | "struct" =>
    let fs ← fields ["constructor", "fields", "static_fields"] false content
    return .record (← fs.getOr "constructor" (asList Parameter.ofJson?) [])
      (← fs.getOr "fields" (asList Field.ofJson?) [])
      (← fs.getOr "static_fields" (asList Field.ofJson?) [])
  | _ =>
    let fs ← fields ["members"] false content
    return .enumeration (← fs.getOr "members" (asList asString) [])

/-- Read a type from an object. -/
def ofJson? : Json → Option TypeInfo
  | .object members => do
    let fs ← fields ["name"] false (.object members)
    let (tag, content) ← tagged "kind" (.object (members.filter fun (k, _) => k ≠ "name"))
    return ⟨← fs.get "name" asString, ← shapeOfJson? tag content⟩
  | _ => none

end TypeInfo

namespace Catalog

/-- The types in ascending order of their names. -/
def toJson (c : Catalog) : Json :=
  .array (c.types.map TypeInfo.toJson)

def ofJson? (j : Json) : Option Catalog :=
  (asList TypeInfo.ofJson? j).map Catalog.ofList

end Catalog

/-! ## Annotations -/

namespace Annotation

mutual

def toJson : Annotation → Json
  | go type path name routes =>
    .object [("kind", .string "go_route"), ("type", .string type), ("path", ofOption .string path),
      ("name", ofOption .string name), ("routes", .array (toJsons routes))]
  | shell type routes =>
    .object [("kind", .string "shell_route"), ("type", .string type),
      ("routes", .array (toJsons routes))]

def toJsons : List Annotation → List Json
  | [] => []
  | a :: rest => a.toJson :: toJsons rest

end

/-- Read an annotation whose routes are nested less than `n` deep. A nested one may give the number
of its kind. -/
def ofJsonWithin : Nat → Bool → Json → Option Annotation
  | 0, _, _ => none
  | n + 1, nested, j => do
    let (tag, content) ← tagged "kind" j
    match ← tagName ["go_route", "shell_route"] nested tag with
    | "go_route" =>
      let fs ← fields ["type", "path", "name", "routes"] false content
      return .go (← fs.get "type" asString)
        (← fs.getOr "path" (asNullable asString) none)
        (← fs.getOr "name" (asNullable asString) none)
        (← fs.getOr "routes" (asList (ofJsonWithin n true)) [])
    | _ =>
      let fs ← fields ["type", "routes"] false content
      return .shell (← fs.get "type" asString)
        (← fs.getOr "routes" (asList (ofJsonWithin n true)) [])

def ofJson? (j : Json) : Option Annotation :=
  ofJsonWithin (j.depth + 1) false j

end Annotation

namespace Declaration

def fieldNames : List String :=
  ["type_name", "annotation"]

def toJson (d : Declaration) : Json :=
  .object [("type_name", .string d.type), ("annotation", d.annotation.toJson)]

def ofJson? (j : Json) : Option Declaration := do
  let fs ← fields fieldNames false j
  return ⟨← fs.get "type_name" asString, ← fs.get "annotation" Annotation.ofJson?⟩

end Declaration

/-! ## Settings -/

namespace KeyStyle

/-- A style is given by its name, or as the only member of an object, with nothing in it. -/
def ofJson? : Json → Option KeyStyle
  | .string s => ofName? s
  | .object [(k, .null)] => ofName? k
  | _ => none

end KeyStyle

namespace Settings

def fieldNames : List String :=
  ["runtime_path", "payload_field", "navigator_key_field", "parent_navigator_key_field",
   "navigator_key_types", "query_key_style"]

def toJson (s : Settings) : Json :=
  .object [("runtime_path", .string s.runtimePath), ("payload_field", .string s.payloadField),
    ("navigator_key_field", .string s.navigatorKeyField),
    ("parent_navigator_key_field", .string s.parentNavigatorKeyField),
    ("navigator_key_types", .array (s.navigatorKeyTypes.map .string)),
    ("query_key_style", .string s.queryKeyStyle.name)]

/-- Read settings. Those left out have their defaults, and nothing else may be given. -/
def ofJson? (j : Json) : Option Settings := do
  let fs ← fields fieldNames true j
  let plain : Settings := {}
  return {
    runtimePath := ← fs.getOr "runtime_path" asString plain.runtimePath
    payloadField := ← fs.getOr "payload_field" asString plain.payloadField
    navigatorKeyField := ← fs.getOr "navigator_key_field" asString plain.navigatorKeyField
    parentNavigatorKeyField :=
      ← fs.getOr "parent_navigator_key_field" asString plain.parentNavigatorKeyField
    navigatorKeyTypes :=
      ← fs.getOr "navigator_key_types" (asList asString) plain.navigatorKeyTypes
    queryKeyStyle := ← fs.getOr "query_key_style" KeyStyle.ofJson? plain.queryKeyStyle }

end Settings

end TypedRoutes
