import TypedRoutes.Diagnostic
import TypedRoutes.Syntax.Parser.Source

/-!
# Binding of constructor parameters

* `Binding` : a constructor parameter with the way its value travels;
* `bind?` : one parameter looked at alone: its binding, or its first fault;
* `bindAll` : the bindings of a constructor, or the first fault of the first faulty parameter.

The payload parameter is known by its name. Of the others, those that the template names travel in
the path and the rest in the query. A value in a path is there and fills one segment, so it is no
list, and a required one is not nullable; a value in the query is not both nullable and defaulted,
and a list there holds single values.
-/

namespace TypedRoutes

/-- How the value of a parameter travels. -/
inductive Carrier
  | path
  | query
  | payload
  deriving DecidableEq, Repr, Inhabited

/-- A constructor parameter with the way its value travels. -/
structure Binding where
  name : String
  carrier : Carrier
  type : TypeRef
  positional : Bool
  required : Bool
  default? : Option String
  deriving Repr, Inhabited

/-- Whether a text can name a variable in emitted code. -/
def isUsableName (name : String) : Bool :=
  Text.isPlainIdentifier name && (Syntax.parseIdent name).isSome

/-- How a parameter of this name travels. -/
def carrierOf (template? : Option PathTemplate) (payload name : String) : Carrier :=
  if name = payload then .payload
  else if template?.any (·.hasParameter name) then .path
  else .query

/-- A parameter as it would be bound, faults left aside. -/
def Binding.ofParameter (template? : Option PathTemplate) (payload : String) (p : Parameter) :
    Binding where
  name := p.name
  carrier := carrierOf template? payload p.name
  type := p.type
  positional := p.positional
  required := p.required
  default? := p.default?

namespace Binding

def hasDefault (b : Binding) : Bool :=
  b.default?.isSome

/-- The fault of a binding for the way it travels. -/
def carrierFault? (b : Binding) : Option Fault :=
  match b.carrier with
  | .path =>
    if b.required && b.type.nullable then some (.nullablePath b.name)
    else if b.type.element?.isSome then some (.listInPath b.name b.type)
    else none
  | .query =>
    if b.hasDefault && b.type.nullable then some (.nullableWithDefault b.name)
    else if b.type.element?.any fun e => e.nullable || !e.args.isEmpty then
      some (.nestedList b.name b.type)
    else none
  | .payload => none

/-- The fault of a binding's default. -/
def defaultFault? (b : Binding) : Option Fault :=
  match b.default? with
  | some e => if (Syntax.parseExpr e).isSome then none else some (.badDefault b.name e)
  | none => none

end Binding

/-- The first fault of a parameter, looked at alone. -/
def parameterFault? (template? : Option PathTemplate) (payload : String) (p : Parameter) :
    Option Fault :=
  if p.positional = p.named then some (.ambiguousRole p.name)
  else if !isUsableName p.name then some (.unusableName p.name)
  else
    let b := Binding.ofParameter template? payload p
    b.carrierFault? <|> b.defaultFault?

/-- The binding of a parameter, or its first fault. -/
def bind? (template? : Option PathTemplate) (payload : String) (place : Place) (p : Parameter) :
    Except Failure Binding :=
  match parameterFault? template? payload p with
  | some fault => .error ⟨fault, place.parameter p.name⟩
  | none => .ok (.ofParameter template? payload p)

/-- The bindings of a constructor's parameters in its order. -/
def bindAll (template? : Option PathTemplate) (payload : String) (place : Place)
    (ps : List Parameter) : Except Failure (List Binding) :=
  ps.mapM (bind? template? payload place)

/-! ## Views -/

namespace Bindings

/-- The bindings that travel in one way, in constructor order. -/
def carriedBy (c : Carrier) (bs : List Binding) : List Binding :=
  bs.filter (·.carrier = c)

def inPath (bs : List Binding) : List Binding :=
  carriedBy .path bs

def inQuery (bs : List Binding) : List Binding :=
  carriedBy .query bs

/-- The first payload parameter. -/
def payload? (bs : List Binding) : Option Binding :=
  (carriedBy .payload bs).head?

/-- Whether the constructor takes any parameter by position. -/
def anyPositional (bs : List Binding) : Bool :=
  bs.any Binding.positional

end Bindings

end TypedRoutes
