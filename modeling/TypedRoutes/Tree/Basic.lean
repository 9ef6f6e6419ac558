import TypedRoutes.Binding

/-!
# Route trees

* `Node` : one route of a tree, a leaf with a path or a shell; `KeyBinding` : the constant that
  names a navigator, with the type it belongs to;
* `RouteTree` : a node with the trees of its children;
* `RouteTree.nodes` : the nodes in pre-order, the root first;
* `RouteTree.entries` : the nodes in pre-order, each with its number and the numbers of its parent,
  its children and its ancestors.
-/

namespace TypedRoutes

/-- The constant that names a navigator. -/
structure KeyBinding where
  /-- The type that the constant belongs to. -/
  owner : String
  field : String
  /-- Whether the constant belongs to a route further up. -/
  inherited : Bool
  deriving DecidableEq, Repr, Inhabited

/-- The same constant, seen from a route further down. -/
def KeyBinding.handDown (b : KeyBinding) : KeyBinding :=
  { b with inherited := true }

/-- What only a leaf or only a shell has. -/
inductive Role
  /-- A leaf has its path as annotated, its name, and the template that its ancestors' paths and its
  own make up. -/
  | leaf (path : String) (name? : Option String) (template : PathTemplate)
  /-- A shell may name the navigator that its children are placed on. -/
  | shell (key? : Option KeyBinding)
  deriving Repr, Inhabited

/-- One route of a tree. -/
structure Node where
  type : String
  role : Role
  /-- The navigator that the route is placed on. -/
  parentKey? : Option KeyBinding
  bindings : List Binding
  fields : List Field
  deriving Repr, Inhabited

namespace Node

/-- The joined template of a leaf. -/
def template? (n : Node) : Option PathTemplate :=
  match n.role with
  | .leaf _ _ t => some t
  | .shell _ => none

/-- The first field of a name. -/
def field? (n : Node) (name : String) : Option Field :=
  n.fields.find? (·.name = name)

/-- The navigator that a child is placed on if it names none. -/
def keyForChildren? (n : Node) : Option KeyBinding :=
  match n.role with
  | .leaf _ _ _ => n.parentKey?
  | .shell key? => key? <|> n.parentKey?

/-- The place of a node of a declaration. -/
def place (n : Node) (declaration : String) : Place :=
  { declaration, route? := some n.type }

end Node

/-- A node with the trees of its children. -/
inductive RouteTree
  | node (root : Node) (children : List RouteTree)
  deriving Repr, Inhabited

/-- A node with its number in pre-order and those of the nodes around it. -/
structure Entry where
  id : Nat
  parent? : Option Nat
  children : List Nat
  /-- The numbers of the nodes above, the nearest first. -/
  ancestors : List Nat
  node : Node
  deriving Repr, Inhabited

namespace RouteTree

def root : RouteTree → Node
  | node n _ => n

def children : RouteTree → List RouteTree
  | node _ ts => ts

/-! ## Pre-order -/

mutual

/-- The nodes in pre-order. -/
def nodes : RouteTree → List Node
  | node n ts => n :: nodesAll ts

def nodesAll : List RouteTree → List Node
  | [] => []
  | t :: rest => t.nodes ++ nodesAll rest

end

/-- The number of nodes. -/
def size (t : RouteTree) : Nat :=
  t.nodes.length

/-- The numbers of trees that follow each other in pre-order from `start` on. -/
def rootIds (start : Nat) : List RouteTree → List Nat
  | [] => []
  | t :: rest => start :: rootIds (start + t.size) rest

mutual

/-- The entries of a tree whose root has the number `start` below `ancestors`. -/
def entriesFrom (ancestors : List Nat) (start : Nat) : RouteTree → List Entry
  | node n ts =>
    ⟨start, ancestors.head?, rootIds (start + 1) ts, ancestors, n⟩ ::
      entriesAll (start :: ancestors) (start + 1) ts

def entriesAll (ancestors : List Nat) (start : Nat) : List RouteTree → List Entry
  | [] => []
  | t :: rest => entriesFrom ancestors start t ++ entriesAll ancestors (start + t.size) rest

end

/-- The nodes in pre-order with their numbers. -/
def entries (t : RouteTree) : List Entry :=
  entriesFrom [] 0 t

end RouteTree

end TypedRoutes
