import TypedRoutes.Diagnostic
import TypedRoutes.Emission.Code
import TypedRoutes.Schema.Catalog
import TypedRoutes.Syntax.Parser.Source
import TypedRoutes.Text.Words

/-!
# Codecs of single values

* `typePath`, `typeCode`, `identifier` : a type name, a type and an identifier as code, unless they
  are none;
* `Codec` : how a single value is written as text and read back;
* `Codec.ofType` : the codec of a type; `Codec.encoder`, `Codec.decoder` : its two sides as code.

An enumeration is written through the table of its members, a text as it is, and anything else by
its own conversions.
-/

namespace TypedRoutes.Emission

open Syntax Code

/-! ## Names as code -/

/-- The helper that reads a truth value. -/
def boolReader : String :=
  "__route_bool_converter"

/-- The helper that looks enumerations up in their tables. -/
def enumCodec : String :=
  "__RouteEnumCodec"

/-- The helper that reads a value of the query. -/
def queryReader : String :=
  "__route_convert_map_value"

/-- A type name as code. -/
def typePath (place : Place) (name : String) : Except Failure Code :=
  match parsePath name, lex name with
  | some _, some ts => .ok (typeTokens ts)
  | _, _ => .error ⟨.badTypeName name, place⟩

/-- An identifier, the blanks around it dropped. -/
def identifier (place : Place) (name : String) : Except Failure String :=
  match parseIdent name with
  | some n => .ok n
  | none => .error ⟨.badIdentifier name, place⟩

mutual

/-- A type as code. -/
def typeCode (place : Place) : TypeRef → Except Failure Code
  | ⟨name, args, nullable⟩ => do
    let base ← typePath place name
    let args ← typeCodes place args
    let applied := if args.isEmpty then base else generic base args
    return if nullable then generic option [applied] else applied

def typeCodes (place : Place) : List TypeRef → Except Failure (List Code)
  | [] => .ok []
  | t :: rest => do
    let c ← typeCode place t
    return c :: (← typeCodes place rest)

end

/-- The last name of a path, without the mark of a raw name. -/
def plainSegment (path : String) : String :=
  let simple := lastSegment path
  match simple.toList with
  | 'r' :: '#' :: rest => String.ofList rest
  | _ => simple

/-- The name of the codec table of an enumeration. -/
def tableName (place : Place) (enumeration : String) : Except Failure String :=
  identifier place (Text.screaming (plainSegment enumeration) ++ "_ENUM_MAP")

/-- The enumeration that a type names, in full or by its last name. -/
def enumName? (catalog : Catalog) (t : TypeRef) : Option String :=
  [t.name, t.simpleName].find? fun n => (catalog.members? n).isSome

/-! ## Codecs -/

/-- How a single value is written as text and read back. -/
inductive Codec
  | text
  | bool
  | enumeration (type : Code) (table : String)
  | parsed (type : Code)
  deriving Inhabited

namespace Codec

/-- The codec of a type, whether or not it is nullable. A type with arguments has none. -/
def ofType (catalog : Catalog) (place : Place) (t : TypeRef) : Except Failure Codec := do
  if !t.args.isEmpty then throw ⟨.container t, place⟩
  let scalar := t.nonNullable
  if (enumName? catalog scalar).isSome then
    return .enumeration (← typeCode place scalar) (← tableName place scalar.name)
  match scalar.simpleName with
  | "String" => return .text
  | "bool" => return .bool
  | _ => return .parsed (← typeCode place scalar)

/-- The lookup in the table of an enumeration. -/
def lookup (type : Code) (function : String) : Code :=
  let slice := Tokens.brackets (tuple [type, staticStr])
  op "<" ++ slice ++ word "as" ++ generic (word enumCodec) [type] ++ op ">" ++ op "::" ++
    word function

/-- A function from text to an optional value. -/
def decoder : Codec → Code
  | text => closure (typed (word "__v") strRef) (present (stringOf (word "__v")))
  | bool => word boolReader
  | enumeration type table =>
    closure (typed (word "__v") strRef)
      (method (call (lookup type "from_name") [word table, word "__v"]) "cloned" [])
  | parsed type =>
    closure (typed (word "__v") strRef)
      (method
        (word "__v" ++ op "." ++ call (word "parse" ++ op "::" ++ op "<" ++ type ++ op ">") [])
        "ok" [])

/-- A reference to a value as text. -/
def encoder (c : Codec) (value : Code) : Code :=
  match c with
  | enumeration type table =>
    let found := method (call (lookup type "to_name") [word table, value]) "expect"
      [str "enum member has a codec entry"]
    method found "to_string" []
  | _ => method (parens value) "to_string" []

end Codec

/-- Whether a default of this type is written as a borrowed text. -/
def isText (t : TypeRef) : Bool :=
  t.args.isEmpty && t.simpleName = "String"

end TypedRoutes.Emission
