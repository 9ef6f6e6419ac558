import TypedRoutes.Json.Value

/-!
# Records in JSON

* `Json.fields` : the fields of a record, from an object by their names or from an array by their
  positions;
* `Json.tagged` : a value with a tag, from an object or from an array that begins with the tag;
* `Fields.get`, `Fields.getOr` : a field that must be there, or that has a fallback;
* `Json.asString`, `Json.asBool`, `Json.asList`, … : values of one kind.

A field of a record may not be given twice. Names that are no fields are ignored unless the record
is closed, and an array may not be longer than the record.
-/

namespace TypedRoutes.Json

/-! ## Values of one kind -/

def asString : Json → Option String
  | string s => some s
  | _ => none

def asBool : Json → Option Bool
  | bool b => some b
  | _ => none

def asArray : Json → Option (List Json)
  | array items => some items
  | _ => none

/-- A list of values of one kind. -/
def asList {α : Type} (item : Json → Option α) (j : Json) : Option (List α) := do
  (← j.asArray).mapM item

/-- A value of a kind, or null. -/
def asNullable {α : Type} (item : Json → Option α) : Json → Option (Option α)
  | null => some none
  | j => (item j).map some

/-! ## Records -/

/-- The fields that are given, by name. -/
abbrev Fields := List (String × Json)

/-- Whether no two of some members share a name among `names`. -/
def onceEach (names : List String) : List (String × Json) → Bool
  | [] => true
  | (k, _) :: rest => !(names.contains k && rest.any (·.1 = k)) && onceEach names rest

/-- The fields of a record with the given names. -/
def fields (names : List String) (closed : Bool) : Json → Option Fields
  | object members =>
    if onceEach names members && !(closed && members.any fun (k, _) => !names.contains k) then
      some (members.filter fun (k, _) => names.contains k)
    else none
  | array items => if items.length ≤ names.length then some (names.zip items) else none
  | _ => none

/-- A field that must be given. -/
def Fields.get {α : Type} (fs : Fields) (name : String) (read : Json → Option α) : Option α := do
  read (← fs.lookup name)

/-- A field with a fallback. -/
def Fields.getOr {α : Type} (fs : Fields) (name : String) (read : Json → Option α) (fallback : α) :
    Option α :=
  match fs.lookup name with
  | some j => read j
  | none => some fallback

/-! ## Tags -/

/-- A tag and the value without it. The tag may not be given twice. -/
def tagged (name : String) : Json → Option (Json × Json)
  | object members => do
    let tag ← members.lookup name
    if onceEach [name] members then return (tag, object (members.filter fun (k, _) => k ≠ name))
    else none
  | array (tag :: rest) => some (tag, array rest)
  | _ => none

/-- The name that a tag stands for. Inside another tagged value a tag may also be the number of the
name in the list of all. -/
def tagName (names : List String) (byNumber : Bool) : Json → Option String
  | string s => if names.contains s then some s else none
  | number t =>
    if byNumber then (names.zipIdx.find? fun (_, i) => toString i = t).map (·.1) else none
  | _ => none

end TypedRoutes.Json
