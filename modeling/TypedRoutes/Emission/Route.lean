import TypedRoutes.Emission.Query

/-!
# Code of a route type

* `decodeFunction` : the function that makes a value from the state of the navigator;
* `locationFunction` : the function that writes a value as a location;
* `navigationFunctions` : the functions that send the navigator to a value;
* `routeCode` : all functions of a route type.

A parameter in the path is written through the field of its name, so the type must have that field.
-/

namespace TypedRoutes.Emission

open Syntax Code

/-- The function that makes a value from the state of the navigator. -/
def decodeName : String :=
  "from_state"

/-! ## Reading -/

/-- The code that reads a parameter from the path. -/
def readPath (tg : Target) (key : Code) (codec : Codec) (nullable : Bool) : Code :=
  let raw := propagate (method (method (word "__state") "path_parameter" [key]) "ok_or_else"
    [thunk (tg.missing key)])
  let value := propagate (method (call (parens codec.decoder) [word "__raw"]) "ok_or_else"
    [thunk (tg.invalid key (word "__raw"))])
  let block := braces (Code.bind (word "__raw") raw ++ value)
  if nullable then present block else block

/-- The code that takes the payload over. -/
def readPayload (tg : Target) (key type : Code) (nullable : Bool) : Code :=
  let cast := word "__extra" ++ op "." ++
    call (word "downcast_ref" ++ op "::" ++ op "<" ++ type ++ op ">") []
  let value := method
    (method (method (word "__state") "extra" []) "and_then" [closure (word "__extra") cast])
    "cloned" []
  if nullable then value else propagate (method value "ok_or_else" [thunk (tg.missing key)])

/-- The code that reads a bound parameter. -/
def readBinding (tg : Target) (place : Place) (b : Binding) : Except Failure Code :=
  match b.carrier with
  | .path => do
    return readPath tg (str b.name) (← Codec.ofType tg.catalog place b.type) b.type.nullable
  | .query => do
    let form ← QueryForm.ofBinding tg.catalog place b
    return form.readCode tg (str (tg.settings.queryKey b.name))
  | .payload => do
    return readPayload tg (str b.name) (← typeCode place b.type.nonNullable) b.type.nullable

/-- The variable that holds a bound parameter, and the statement that reads it. -/
def readLocal (tg : Target) (place : Place) (b : Binding) : Except Failure (Code × Code) := do
  let place := place.parameter b.name
  let name ← identifier place b.name
  let value ← readBinding tg place b
  return (word name, Code.bind (word name) value)

/-- The function that makes a value from the state of the navigator. -/
def decodeFunction (tg : Target) (place : Place) (n : Node) : Except Failure Code := do
  let locals ← n.bindings.mapM (readLocal tg place)
  let names := locals.map (·.1)
  let self :=
    if Bindings.anyPositional n.bindings then call (member (word "Self") "new") names
    else word "Self" ++ braces (Tokens.commaSeparated names)
  let marker := op "#" ++ Tokens.brackets (call (word "allow") [word "unused_variables"])
  return marker ++ publicFunction (word decodeName)
    [typed (word "__state") (dynRef (tg.name ["NavigationState"]))]
    (generic result [word "Self", tg.name ["DecodeError"]])
    ((locals.flatMap (·.2)) ++ success self)

/-! ## Writing -/

/-- The field that backs a parameter. -/
def backingField (place : Place) (n : Node) (name : String) : Except Failure Field :=
  match n.field? name with
  | some f => .ok f
  | none => .error ⟨.fieldMissing n.type name, place⟩

/-- The variable that holds the encoded value of a path parameter. -/
def localName (parameter : String) : String :=
  "__" ++ parameter

/-- The statement that encodes a path parameter. -/
def writePath (tg : Target) (place : Place) (n : Node) (name : String) : Except Failure Code := do
  let place := place.parameter name
  let f ← backingField place n name
  let codec ← Codec.ofType tg.catalog place f.type
  let self := Code.field (word "self") (← identifier place name)
  let encoded :=
    if f.type.nullable then
      method (method (method self "as_ref" []) "map"
        [closure (word "__value") (codec.encoder (word "__value"))]) "unwrap_or_default" []
    else codec.encoder (refer self)
  return Code.bind (word (localName name))
    (call (tg.name ["encode_component"]) [refer encoded])

/-- The statement that adds a query parameter. -/
def writeQuery (tg : Target) (place : Place) (n : Node) (b : Binding) : Except Failure Code := do
  let place := place.parameter b.name
  let _ ← backingField place n b.name
  let self := Code.field (word "self") (← identifier place b.name)
  let form ← QueryForm.ofBinding tg.catalog place b
  return form.pushCode (str (tg.settings.queryKey b.name)) self

/-- Literal text inside a format string: braces are doubled. -/
def escapeBraces (text : String) : String :=
  String.ofList (text.toList.flatMap fun c => if c = '{' ∨ c = '}' then [c, c] else [c])

/-- The segments as a format string over the variables of the path parameters. -/
def formatText : List Segment → String
  | [] => ""
  | .literal s :: rest => escapeBraces s ++ formatText rest
  | .parameter n _ :: rest => "\x7b" ++ localName n ++ "\x7d" ++ formatText rest

/-- The literal text of segments. -/
def literalText : List Segment → String
  | [] => ""
  | .literal s :: rest => s ++ literalText rest
  | .parameter _ _ :: rest => literalText rest

/-- The path of a value as code, once its parameters are encoded. -/
def pathCode (t : PathTemplate) : Code :=
  if t.names.isEmpty then str (literalText t.segments)
  else refer (invoke (path ["std", "format"]) (parens (str (formatText t.segments))))

/-- The path of a value as code. A parameter is refused in a path that is written without values. -/
def composedPath (place : Place) (t : PathTemplate) : Except Failure Code := do
  if t.names.isEmpty then
    let refuse := fun n => .error ⟨.unboundInPath n, place.parameter n⟩
    return str (← PathTemplate.render id refuse t.segments)
  else return pathCode t

theorem render_literalText {ε : Type} {segments : List Segment}
    (h : segments.filterMap Segment.name? = []) (parameter : String → Except ε String) :
    PathTemplate.render id parameter segments = .ok (literalText segments) := by
  induction segments with
  | nil => rfl
  | cons s segments ih =>
    cases s with
    | literal text =>
      rw [List.filterMap_cons_none rfl] at h
      rw [PathTemplate.render, ih h]
      rfl
    | parameter n constraint =>
      have hname : (Segment.parameter n constraint).name? = some n := rfl
      rw [List.filterMap_cons_some hname] at h
      cases h

/-- Nothing is refused: a path without values has no parameters. -/
theorem composedPath_eq (place : Place) (t : PathTemplate) :
    composedPath place t = .ok (pathCode t) := by
  unfold composedPath
  by_cases hnames : t.names.isEmpty = true
  · rw [if_pos hnames, pathCode, if_pos hnames]
    dsimp only
    rw [render_literalText (List.isEmpty_iff.1 hnames)]
    rfl
  · rw [if_neg hnames]
    rfl

theorem composedPath_ok {place : Place} {t : PathTemplate} {code : Code}
    (h : composedPath place t = .ok code) : code = pathCode t :=
  (Except.ok.inj ((composedPath_eq place t).symm.trans h)).symm

/-- The function that writes a value as a location. -/
def locationFunction (tg : Target) (place : Place) (n : Node) (t : PathTemplate) :
    Except Failure Code := do
  let paths ← t.names.mapM (writePath tg place n)
  let path ← composedPath place t
  let queries ← (Bindings.inQuery n.bindings).mapM (writeQuery tg place n)
  let pairs := generic vecType [tuple [staticStr, stringType]]
  let query :=
    word "let" ++ (if queries.isEmpty then [] else word "mut") ++ typed (word "__query") pairs ++
      op "=" ++ call (member vecType "new") [] ++ op ";"
  return publicFunction (word "location") [refer (word "self")] stringType
    (paths.flatten ++ query ++ queries.flatten ++
      call (tg.name ["location"]) [path, refer (word "__query")])

/-! ## Navigation -/

/-- The ways to send the navigator to a location. -/
def navigationMethods : List String :=
  ["go", "push", "push_replacement", "replace"]

def anyType : Code :=
  path ["core", "any", "Any"]

/-- The payload as code, as it is handed to the navigator. -/
def payloadCode (place : Place) (n : Node) : Except Failure Code :=
  match Bindings.payload? n.bindings with
  | none => .ok absent
  | some b => do
    let place := place.parameter b.name
    let _ ← backingField place n b.name
    let self := Code.field (word "self") (← identifier place b.name)
    return if b.type.nullable then
      method (method self "as_ref" []) "map"
        [closure (word "__extra") (word "__extra" ++ word "as" ++ dynRef anyType)]
    else present (refer self ++ word "as" ++ dynRef anyType)

/-- The function that sends the navigator to a value in one way. -/
def navigationFunction (tg : Target) (extra : Code) (name : String) : Code :=
  publicFunction (word name)
    [refer (word "self"), typed (word "navigator") (dynRef (tg.name ["Navigator"]))] []
    (method (word "navigator") name [refer (method (word "self") "location" []), extra] ++ op ";")

def navigationFunctions (tg : Target) (place : Place) (n : Node) : Except Failure Code := do
  let extra ← payloadCode place n
  return navigationMethods.flatMap (navigationFunction tg extra)

/-! ## All functions -/

/-- The functions of a route type. A shell has no location of its own. -/
def routeCode (tg : Target) (place : Place) (n : Node) : Except Failure Code := do
  let type ← typePath place n.type
  let decode ← decodeFunction tg place n
  let leaf ← match n.template? with
    | some t => do
      let location ← locationFunction tg place n t
      let navigation ← navigationFunctions tg place n
      pure (location ++ navigation)
    | none => pure []
  return word "impl" ++ type ++ braces (decode ++ leaf)

end TypedRoutes.Emission
