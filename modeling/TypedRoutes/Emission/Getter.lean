import TypedRoutes.Emission.Route

/-!
# Code of the route tree

* `Builder` : an expression that builds a route at run time;
* `builderOf` : the builder of a tree; `Builder.code` : a builder as code;
* `getterCode` : the function that returns the built tree.

A builder sets only the navigators that the route's own type names. Those it takes over from routes
further up are found at run time.
-/

namespace TypedRoutes.Emission

open Syntax Code

/-- An expression that builds a route. `type` is the path of the route type, whose decoding function
is the route's factory. -/
inductive Builder
  | go (path : String) (type : Code)
  | shell (type : Code)
  | name (route : Builder) (name : String)
  | navigatorKey (route : Builder) (key : Code)
  | parentNavigatorKey (route : Builder) (key : Code)
  | routes (route : Builder) (children : List Builder)
  deriving Inhabited

namespace Builder

mutual

/-- The builder as code, before it is turned into a route. -/
def code (tg : Target) : Builder → Code
  | go path type =>
    call (tg.name ["GoRoute", "new"]) [str path, member type decodeName]
  | shell type => call (tg.name ["ShellRoute", "new"]) [member type decodeName]
  | name route n => method (code tg route) "name" [str n]
  | navigatorKey route key => method (code tg route) "navigator_key" [key]
  | parentNavigatorKey route key => method (code tg route) "parent_navigator_key" [key]
  | routes route children =>
    method (code tg route) "routes"
      [invoke (path ["std", "vec"]) (brackets (routeCodes tg children))]

/-- The builders of some routes, each turned into a route. -/
def routeCodes (tg : Target) : List Builder → List Code
  | [] => []
  | b :: rest => method (code tg b) "into" [] :: routeCodes tg rest

end

end Builder

/-- The constant of a navigator as code, if the route's own type has it. -/
def ownKeyCode (place : Place) (key? : Option KeyBinding) : Except Failure (Option Code) :=
  match key?.filter (!·.inherited) with
  | none => .ok none
  | some key => do
    let place := place.parameter key.field
    let owner ← typePath place key.owner
    return some (member owner (← identifier place key.field))

/-- Set something of a route if it is there. -/
def Builder.with? {α : Type} (set : Builder → α → Builder) (b : Builder) : Option α → Builder
  | some a => set b a
  | none => b

/-- The builder of a node, its children left aside. -/
def nodeBuilder (place : Place) (n : Node) : Except Failure Builder := do
  let type ← typePath place n.type
  match n.role with
  | .leaf path name? _ =>
    let parent? ← ownKeyCode place n.parentKey?
    return ((Builder.go path type).with? .name name?).with? .parentNavigatorKey parent?
  | .shell key? =>
    let own? ← ownKeyCode place key?
    let parent? ← ownKeyCode place n.parentKey?
    return ((Builder.shell type).with? .navigatorKey own?).with? .parentNavigatorKey parent?

mutual

/-- The builder of a tree. -/
def builderOf (declaration : String) : RouteTree → Except Failure Builder
  | .node n children => do
    let b ← nodeBuilder (n.place declaration) n
    let bs ← buildersOf declaration children
    return if bs.isEmpty then b else .routes b bs

def buildersOf (declaration : String) : List RouteTree → Except Failure (List Builder)
  | [] => .ok []
  | t :: rest => do
    let b ← builderOf declaration t
    return b :: (← buildersOf declaration rest)

end

/-- The function that returns the built tree. -/
def getterCode (tg : Target) (declaration : String) (t : RouteTree) : Except Failure Code := do
  let name ← identifier (t.root.place declaration) (Text.snake (plainSegment declaration))
  let b ← builderOf declaration t
  return publicFunction (word name) [] (tg.name ["RouteBase"]) (method (b.code tg) "into" [])

end TypedRoutes.Emission
