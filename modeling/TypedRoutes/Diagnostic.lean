import TypedRoutes.Path.Template
import TypedRoutes.Schema.Type

/-!
# Diagnostics

* `Place` : a declaration, and in it a route type and a parameter;
* `Fault` : why no code comes of a declaration;
* `Diagnostic` : a fault as it is reported, with its category, its message and its place;
* `Failure` : a fault at a place; `Failure.report` is its diagnostic.
-/

namespace TypedRoutes

/-! ## Places -/

/-- What a diagnostic is about. -/
structure Place where
  declaration : String
  route? : Option String := none
  parameter? : Option String := none
  deriving DecidableEq, Repr, Inhabited

namespace Place

/-- The place of a route type in the same declaration. -/
def route (p : Place) (type : String) : Place :=
  { p with route? := some type }

/-- The place of a parameter of the same route type. -/
def parameter (p : Place) (name : String) : Place :=
  { p with parameter? := some name }

/-- The place as text. A route type of the declaration's own name is left out. -/
def display (p : Place) : String :=
  p.declaration ++
    (match p.route? with
      | some r => if r = p.declaration then "" else " > " ++ r
      | none => "") ++
    (match p.parameter? with
      | some n => "." ++ n
      | none => "")

end Place

/-! ## Diagnostics -/

/-- The categories of faults. -/
inductive Category
  | pattern
  | missingParameter
  | missingPath
  | annotationTypeMismatch
  | nullablePathParameter
  | nullableDefaultValue
  | unresolvedField
  | malformedParameterRole
  | unknownRouteType
  | unsupportedParameterType
  | invalidDefaultValue
  | invalidIdentifier
  | render
  deriving DecidableEq, Repr, Inhabited

namespace Category

def all : List Category :=
  [pattern, missingParameter, missingPath, annotationTypeMismatch, nullablePathParameter,
   nullableDefaultValue, unresolvedField, malformedParameterRole, unknownRouteType,
   unsupportedParameterType, invalidDefaultValue, invalidIdentifier, render]

/-- The name under which a category is reported. -/
def name : Category → String
  | pattern => "PatternError"
  | missingParameter => "MissingParameterError"
  | missingPath => "MissingPathError"
  | annotationTypeMismatch => "AnnotationTypeMismatchError"
  | nullablePathParameter => "NullablePathParameterError"
  | nullableDefaultValue => "NullableDefaultValueError"
  | unresolvedField => "UnresolvedFieldError"
  | malformedParameterRole => "MalformedParameterRoleError"
  | unknownRouteType => "UnknownRouteTypeError"
  | unsupportedParameterType => "UnsupportedParameterTypeError"
  | invalidDefaultValue => "InvalidDefaultValueError"
  | invalidIdentifier => "InvalidIdentifierError"
  | render => "RenderError"

/-- The category of a name. -/
def ofName? (n : String) : Option Category :=
  all.find? fun c => c.name = n

theorem mem_all (c : Category) : c ∈ all := by
  cases c <;> decide

theorem ofName?_name (c : Category) : ofName? c.name = some c := by
  cases c <;> rfl

end Category

/-- A fault as it is reported. -/
structure Diagnostic where
  category : Category
  message : String
  place : Place
  deriving DecidableEq, Repr, Inhabited

/-- The line that reports a fault. -/
def Diagnostic.display (d : Diagnostic) : String :=
  s!"{d.category.name}: {d.message} (at {d.place.display})"

/-! ## Faults -/

/-- Why no code comes of a declaration. -/
inductive Fault
  /-- A path template that has no segments. -/
  | template (error : TemplateError)
  /-- The annotation names another type than the one it stands on. -/
  | annotatedFor (annotated attached : String)
  | pathMissing (type : String)
  | enumerationAsRoute (type : String)
  /-- A route type that nobody describes, with the known name that comes closest. -/
  | unknownRouteType (type : String) (suggestion : Option String)
  | ambiguousRole (parameter : String)
  | unusableName (parameter : String)
  | nullablePath (parameter : String)
  | listInPath (parameter : String) (type : TypeRef)
  | nullableWithDefault (parameter : String)
  | nestedList (parameter : String) (type : TypeRef)
  | badDefault (parameter expr : String)
  /-- A parameter of the joined template that the constructor does not take. -/
  | unboundInTemplate (parameter template : String)
  /-- A parameter in a path that is written without values. -/
  | unboundInPath (parameter : String)
  | badRuntimePath (path : String)
  | badTypeName (type : String)
  | badIdentifier (name : String)
  /-- A type with arguments where a single value has to be written. -/
  | container (type : TypeRef)
  | fieldMissing (type field : String)
  /-- Two enumerations whose codec tables would have one name. -/
  | sharedTable (first second table : String)
  /-- Two members of an enumeration that are written alike. -/
  | sharedMemberText (first second enumeration text : String)
  /-- Code that is no sequence of items. -/
  | unreadableCode
  /-- Code with a form that has no layout. -/
  | unwritableCode
  deriving Repr, Inhabited

namespace Fault

def category : Fault → Category
  | template _ => .pattern
  | annotatedFor _ _ => .annotationTypeMismatch
  | pathMissing _ => .missingPath
  | enumerationAsRoute _ => .unknownRouteType
  | unknownRouteType _ _ => .unknownRouteType
  | ambiguousRole _ => .malformedParameterRole
  | unusableName _ => .invalidIdentifier
  | nullablePath _ => .nullablePathParameter
  | listInPath _ _ => .unsupportedParameterType
  | nullableWithDefault _ => .nullableDefaultValue
  | nestedList _ _ => .unsupportedParameterType
  | badDefault _ _ => .invalidDefaultValue
  | unboundInTemplate _ _ => .missingParameter
  | unboundInPath _ => .missingParameter
  | badRuntimePath _ => .invalidIdentifier
  | badTypeName _ => .invalidIdentifier
  | badIdentifier _ => .invalidIdentifier
  | container _ => .unsupportedParameterType
  | fieldMissing _ _ => .unresolvedField
  | sharedTable _ _ _ => .unsupportedParameterType
  | sharedMemberText _ _ _ _ => .unsupportedParameterType
  | unreadableCode => .render
  | unwritableCode => .render

/-- A question that offers the name somebody may have meant. -/
def didYouMean : Option String → String
  | some s => s!" Did you mean '{s}'?"
  | none => ""

/-- The name of something is not among the known ones. -/
def unknownName (what got : String) (suggestion : Option String) : String :=
  s!"Unknown {what} '{got}'." ++ didYouMean suggestion

def message : Fault → String
  | template e => e.message
  | annotatedFor annotated attached =>
    s!"The annotation is declared for '{annotated}' but is attached to '{attached}'."
  | pathMissing t => s!"Route '{t}' is a go route but declares no path."
  | enumerationAsRoute t => s!"'{t}' is an enum and cannot be a route-data type."
  | unknownRouteType t suggestion => unknownName "route type" t suggestion
  | ambiguousRole p => s!"Parameter '{p}' must be either positional or named."
  | unusableName p => s!"Parameter name '{p}' is not a usable identifier."
  | nullablePath p =>
    s!"Required path parameter '{p}' cannot be nullable; a path always carries a value."
  | listInPath p t =>
    s!"Path parameter '{p}' has list type '{t.display}'; only scalar values fit in a path segment."
  | nullableWithDefault p =>
    s!"Query parameter '{p}' has a default value, so it cannot be nullable."
  | nestedList p t =>
    s!"Query parameter '{p}' has type '{t.display}'; list elements must be plain scalars."
  | badDefault p e => s!"Default value '{e}' of '{p}' is not a valid expression."
  | unboundInTemplate p t =>
    s!"Path parameter '{p}' of '{t}' has no matching constructor parameter."
  | unboundInPath p => s!"Path parameter '{p}' has no binding."
  | badRuntimePath p => s!"runtime_path '{p}' is not a valid Rust path"
  | badTypeName t => s!"Type name '{t}' is not a valid Rust path."
  | badIdentifier n => s!"'{n}' cannot be used as an identifier in generated code."
  | container t =>
    s!"Type '{t.display}' is a container; only scalar values can be encoded."
  | fieldMissing t f => s!"'{t}' has no field '{f}' to encode into its location."
  | sharedTable first second table =>
    s!"Enums '{first}' and '{second}' would both emit the codec table '{table}'."
  | sharedMemberText first second enumeration text =>
    s!"Members '{first}' and '{second}' of enum '{enumeration}' both encode as '{text}'."
  | unreadableCode => "Generated code does not parse as Rust items"
  | unwritableCode => "Generated code has no layout"

end Fault

/-- A fault at a place. -/
structure Failure where
  fault : Fault
  place : Place
  deriving Repr, Inhabited

def Failure.report (f : Failure) : Diagnostic :=
  ⟨f.fault.category, f.fault.message, f.place⟩

end TypedRoutes
