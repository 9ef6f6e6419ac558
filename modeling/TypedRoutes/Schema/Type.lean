/-!
# Types as the host describes them

* `TypeRef` : a named type with its arguments, possibly nullable; `TypeRef.display` is its text;
* `lastSegment` : the last name of a path;
* `Parameter` : a parameter of a constructor; `Field` : a field or a constant of a type;
* `TypeInfo` : a record with its constructor, or an enumeration with its members.
-/

namespace TypedRoutes

/-! ## References to types -/

/-- The characters in front of the first double colon. -/
def beforeColons : List Char → List Char
  | ':' :: ':' :: _ => []
  | c :: rest => c :: beforeColons rest
  | [] => []

/-- The text behind the last double colon. -/
def lastSegment (path : String) : String :=
  String.ofList (beforeColons path.toList.reverse).reverse

/-- A type as it is named in the host's code. -/
structure TypeRef where
  name : String
  args : List TypeRef := []
  nullable : Bool := false
  deriving Repr, Inhabited, BEq

namespace TypeRef

/-- A type without arguments. -/
def named (name : String) : TypeRef :=
  { name }

/-- The list type of an element type. -/
def list (element : TypeRef) : TypeRef :=
  { name := "Vec", args := [element] }

def asNullable (t : TypeRef) : TypeRef :=
  { t with nullable := true }

def nonNullable (t : TypeRef) : TypeRef :=
  { t with nullable := false }

/-- The last name of the type's path. -/
def simpleName (t : TypeRef) : String :=
  lastSegment t.name

/-- The element type of a list type. -/
def element? (t : TypeRef) : Option TypeRef :=
  match t.args with
  | [e] => if t.simpleName = "Vec" then some e else none
  | _ => none

mutual

/-- The type as text, a nullable one as an option. -/
def display : TypeRef → String
  | ⟨name, args, nullable⟩ =>
    let applied := if args.isEmpty then name else name ++ "<" ++ displayArgs args ++ ">"
    if nullable then "Option<" ++ applied ++ ">" else applied

def displayArgs : List TypeRef → String
  | [] => ""
  | [t] => display t
  | t :: rest => display t ++ ", " ++ displayArgs rest

end

end TypeRef

/-! ## Constructors and fields -/

/-- A parameter of a constructor. Its default is an expression of the host's language. -/
structure Parameter where
  name : String
  type : TypeRef
  positional : Bool := false
  named : Bool := false
  required : Bool := false
  default? : Option String := none
  deriving Repr, Inhabited, BEq

namespace Parameter

/-- A required parameter that is passed by name. -/
def byName (name : String) (type : TypeRef) : Parameter :=
  { name, type, named := true, required := true }

/-- A required parameter that is passed by position. -/
def byPosition (name : String) (type : TypeRef) : Parameter :=
  { name, type, positional := true, required := true }

def optional (p : Parameter) : Parameter :=
  { p with required := false }

/-- The parameter with a default, which makes it optional. -/
def withDefault (p : Parameter) (expr : String) : Parameter :=
  { p with default? := some expr, required := false }

end Parameter

/-- A field, or a constant that belongs to a type. -/
structure Field where
  name : String
  type : TypeRef
  deriving Repr, Inhabited, BEq

/-! ## Described types -/

inductive Shape
  | record (constructor : List Parameter) (fields constants : List Field)
  | enumeration (members : List String)
  deriving Repr, Inhabited, BEq

/-- A type that the host describes. -/
structure TypeInfo where
  name : String
  shape : Shape
  deriving Repr, Inhabited, BEq

namespace TypeInfo

/-- A record with a field for every parameter of its constructor. -/
def routeData (name : String) (constructor : List Parameter) : TypeInfo :=
  ⟨name, .record constructor (constructor.map fun p => ⟨p.name, p.type⟩) []⟩

def enumeration (name : String) (members : List String) : TypeInfo :=
  ⟨name, .enumeration members⟩

/-- Add a constant to a record. An enumeration has none. -/
def withConstant (t : TypeInfo) (f : Field) : TypeInfo :=
  match t.shape with
  | .record constructor fields constants =>
    { t with shape := .record constructor fields (constants ++ [f]) }
  | .enumeration _ => t

end TypeInfo

end TypedRoutes
