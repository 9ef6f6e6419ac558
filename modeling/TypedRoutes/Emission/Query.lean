import TypedRoutes.Emission.Codec
import TypedRoutes.Settings
import TypedRoutes.Syntax.Printer.Source
import TypedRoutes.Tree.Basic

/-!
# Parameters in the query

* `QueryForm` : how a parameter is carried in the query;
* `QueryForm.ofBinding` : the form of a bound parameter;
* `QueryForm.readCode`, `QueryForm.pushCode` : the code that reads the parameter from the query and
  that adds it to one.

A parameter that is absent from the query is absent from the value if it is nullable, has its
default if there is one, and is empty if it is a list; any other must be there. Likewise nothing is
added for an absent value or for one that equals the default.
-/

namespace TypedRoutes.Emission

open Syntax Code

/-- What code is emitted against. -/
structure Target where
  catalog : Catalog
  settings : Settings
  /-- The path of the library that emitted code calls. -/
  runtime : Code

namespace Target

/-- A name of the library that emitted code calls. -/
def name (tg : Target) (names : List String) : Code :=
  names.foldl member tg.runtime

/-- The error for a key without value. -/
def missing (tg : Target) (key : Code) : Code :=
  call (tg.name ["DecodeError", "missing"]) [key]

/-- The error for a value that does not convert. -/
def invalid (tg : Target) (key raw : Code) : Code :=
  call (tg.name ["DecodeError", "invalid"]) [key, raw]

end Target

/-- What stands in for an absent parameter. -/
inductive Fallback
  /-- The value is nullable. -/
  | absent
  | default (expr : Code)
  /-- There is none: a list is empty, anything else is required. -/
  | missing
  deriving Inhabited

/-- How a parameter is carried in the query. -/
inductive QueryForm
  /-- A single value. A default of text is a borrowed one. -/
  | scalar (codec : Codec) (fallback : Fallback) (isText : Bool)
  /-- One pair for each element. -/
  | list (codec : Codec) (fallback : Fallback)
  deriving Inhabited

/-- The default of a bound parameter as code. -/
def defaultCode (place : Place) (b : Binding) : Except Failure (Option Code) :=
  match b.default? with
  | none => .ok .none
  | some e =>
    match exprTokens? e with
    | some ts => .ok (.some ts)
    | none => .error ⟨.badDefault b.name e, place⟩

namespace QueryForm

/-- The form of a bound parameter. -/
def ofBinding (catalog : Catalog) (place : Place) (b : Binding) : Except Failure QueryForm := do
  let default? ← defaultCode place b
  let fallback :=
    if b.type.nullable then .absent
    else match default? with
      | some e => .default e
      | none => .missing
  match b.type.element? with
  | some element => return .list (← Codec.ofType catalog place element) fallback
  | none => return .scalar (← Codec.ofType catalog place b.type) fallback (isText b.type)

/-! ## Reading -/

/-- The code that reads a list from all values of a key. -/
def readList (tg : Target) (key : Code) (codec : Codec) : Code :=
  let each :=
    method (call (parens codec.decoder) [method (word "__item") "as_str" []]) "ok_or_else"
      [thunk (tg.invalid key (word "__item"))]
  let collected :=
    generic result [generic vecType [word "_"], word "_"]
  let items :=
    method (method (word "__items") "iter" []) "map" [closure (word "__item") (braces each)] ++
      op "." ++ word "collect" ++ op "::" ++ op "<" ++ collected ++ op ">" ++ tuple []
  propagate (method
    (method (method (method (word "__state") "query_parameters_all" []) "get" [key]) "map"
      [closure (word "__items") (braces items)])
    "transpose" [])

/-- The code that reads a parameter. -/
def readCode (tg : Target) (key : Code) : QueryForm → Code
  | scalar codec fallback isText =>
    let value := propagate (call (word queryReader)
      [key, method (word "__state") "query_parameters" [], codec.decoder])
    match fallback with
    | .absent => value
    | .default e => method value "unwrap_or_else" [thunk (if isText then stringOf e else e)]
    | .missing => propagate (method value "ok_or_else" [thunk (tg.missing key)])
  | list codec fallback =>
    let values := readList tg key codec
    match fallback with
    | .absent => values
    | .default e => method values "unwrap_or_else" [thunk e]
    | .missing => method values "unwrap_or_default" []

/-! ## Writing -/

/-- The statement that adds a pair to the query. -/
def pushPair (key : Code) (codec : Codec) (value : Code) : Code :=
  method (word "__query") "push" [tuple [key, codec.encoder value]] ++ op ";"

/-- The statement that adds a pair for each of some values. -/
def pushEach (key : Code) (codec : Codec) (values : Code) : Code :=
  word "for" ++ word "__value" ++ word "in" ++ values ++
    braces (pushPair key codec (word "__value"))

/-- A statement for a value that is there. -/
def whenPresent (field : Code) (held : String) (body : Code) : Code :=
  word "if" ++ word "let" ++ present (word held) ++ op "=" ++ refer field ++ braces body

/-- A statement for a value other than the default. -/
def unlessDefault (field default body : Code) : Code :=
  word "if" ++ field ++ op "!=" ++ default ++ braces body

/-- The code that adds a parameter to the query. -/
def pushCode (key field : Code) : QueryForm → Code
  | scalar codec fallback _ =>
    match fallback with
    | .absent => whenPresent field "__value" (pushPair key codec (word "__value"))
    | .default e => unlessDefault field e (pushPair key codec (refer field))
    | .missing => pushPair key codec (refer field)
  | list codec fallback =>
    match fallback with
    | .absent => whenPresent field "__values" (pushEach key codec (word "__values"))
    | .default e => unlessDefault field e (pushEach key codec (refer field))
    | .missing => pushEach key codec (refer field)

end QueryForm

end TypedRoutes.Emission
