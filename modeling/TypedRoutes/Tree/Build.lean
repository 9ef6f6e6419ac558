import TypedRoutes.Path.Join
import TypedRoutes.Schema.Annotation
import TypedRoutes.Schema.Catalog
import TypedRoutes.Settings
import TypedRoutes.Suggestion
import TypedRoutes.Tree.Basic

/-!
# Building route trees

* `checkNode` : the node of an annotation looked at alone, or the first fault in it;
* `buildTree` : the tree of an annotation, or the first fault in pre-order;
* `RouteTree.ofDeclaration` : the tree of a declaration.

A node needs of its surroundings only the joined path of the leaves above it and the navigator it is
placed on if it names none. A leaf binds every parameter of its joined template; a shell is decoded
against the template of the nearest leaf above it.
-/

namespace TypedRoutes

/-- What is known besides the annotation. -/
structure Context where
  catalog : Catalog
  settings : Settings
  declaration : String

/-- What a node needs of the nodes above it. -/
structure Surroundings where
  /-- The joined path of the leaves above, empty if there is none. -/
  path : String := ""
  key? : Option KeyBinding := none

namespace Context

/-- The place of a route type. -/
def place (cx : Context) (type : String) : Place :=
  { declaration := cx.declaration, route? := some type }

/-- Constructor, fields and constants of a route type. -/
def describe (cx : Context) (type : String) :
    Except Failure (List Parameter × List Field × List Field) :=
  match cx.catalog.find? type with
  | some ⟨_, .record ps fields constants⟩ => .ok (ps, fields, constants)
  | some ⟨_, .enumeration _⟩ => .error ⟨.enumerationAsRoute type, cx.place type⟩
  | none => .error ⟨.unknownRouteType type (closest type cx.catalog.names), cx.place type⟩

/-- The constant of a name that a route type has for a navigator. -/
def ownKey? (cx : Context) (type field : String) (constants : List Field) : Option KeyBinding :=
  (constants.find? fun f => f.name = field && cx.settings.isNavigatorKeyType f.type.simpleName).map
    fun f => ⟨type, f.name, false⟩

/-- A template whose faults are those of a route type. -/
def parseTemplate (cx : Context) (type text : String) : Except Failure PathTemplate :=
  match PathTemplate.parse text with
  | .ok t => .ok t
  | .error e => .error ⟨.template e, cx.place type⟩

/-- The bindings of a route type against a template. -/
def bindings (cx : Context) (type : String) (template? : Option PathTemplate)
    (ps : List Parameter) : Except Failure (List Binding) :=
  bindAll template? cx.settings.payloadField (cx.place type) ps

/-- Refuse a template with a parameter that is not bound in the path. -/
def checkBound (cx : Context) (type : String) (t : PathTemplate) (bs : List Binding) :
    Except Failure Unit :=
  match t.names.find? fun n => !(Bindings.inPath bs).any (·.name = n) with
  | some n => .error ⟨.unboundInTemplate n t.text, (cx.place type).parameter n⟩
  | none => .ok ()

end Context

/-- The node of an annotation, its children left aside, or the first fault in it. -/
def checkNode (cx : Context) (around : Surroundings) (a : Annotation) : Except Failure Node := do
  let (ps, fields, constants) ← cx.describe a.type
  let parentKey? :=
    cx.ownKey? a.type cx.settings.parentNavigatorKeyField constants <|> around.key?
  match a with
  | .go type none _ _ => throw ⟨.pathMissing type, cx.place type⟩
  | .go type (some path) name? _ =>
    let template ← cx.parseTemplate type (joinTemplates around.path path)
    let bindings ← cx.bindings type (some template) ps
    cx.checkBound type template bindings
    return ⟨type, .leaf path name? template, parentKey?, bindings, fields⟩
  | .shell type _ =>
    let template? ←
      if around.path.isEmpty then pure none else some <$> cx.parseTemplate type around.path
    let bindings ← cx.bindings type template? ps
    let key? := cx.ownKey? type cx.settings.navigatorKeyField constants
    return ⟨type, .shell key?, parentKey?, bindings, fields⟩

/-- What the children of a node need of it. -/
def Surroundings.below (around : Surroundings) (n : Node) : Surroundings where
  path :=
    match n.template? with
    | some t => t.text
    | none => around.path
  key? := n.keyForChildren?.map KeyBinding.handDown

mutual

/-- The tree of an annotation. -/
def buildTree (cx : Context) (around : Surroundings) : Annotation → Except Failure RouteTree
  | .go type path name routes => do
    let n ← checkNode cx around (.go type path name routes)
    return .node n (← buildAll cx (around.below n) routes)
  | .shell type routes => do
    let n ← checkNode cx around (.shell type routes)
    return .node n (← buildAll cx (around.below n) routes)

def buildAll (cx : Context) (around : Surroundings) :
    List Annotation → Except Failure (List RouteTree)
  | [] => .ok []
  | a :: rest => do
    let t ← buildTree cx around a
    return t :: (← buildAll cx around rest)

end

/-- The tree of a declaration. The annotation must name the type it stands on. -/
def RouteTree.ofDeclaration (catalog : Catalog) (settings : Settings) (d : Declaration) :
    Except Failure RouteTree :=
  if d.annotation.type = d.type then buildTree ⟨catalog, settings, d.type⟩ {} d.annotation
  else .error ⟨.annotatedFor d.annotation.type d.type, { declaration := d.type }⟩

end TypedRoutes
