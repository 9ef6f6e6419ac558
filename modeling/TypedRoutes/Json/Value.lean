/-!
# JSON values

* `Json` : a value; an object keeps its members in the order they were written, repeated names
  included, and a number keeps its text;
* `Json.depth` : how deep arrays and objects are nested; `Json.isReadable` : whether all of a value
  can be read;
* `Json.lastWins` : objects with the last of the members that share a name;
* `Json.get?` : the first member of a name.
-/

namespace TypedRoutes

inductive Json
  | null
  | bool (b : Bool)
  | number (text : String)
  | string (s : String)
  | array (items : List Json)
  | object (members : List (String × Json))
  /-- A number that is too large, or a text with half of a character: it can be skipped but not
  read. -/
  | unreadable
  deriving Repr, Inhabited, BEq

namespace Json

/-! ## Nesting -/

mutual

/-- How deep arrays and objects are nested. -/
def depth : Json → Nat
  | array items => depthAll items + 1
  | object members => depthMembers members + 1
  | _ => 0

def depthAll : List Json → Nat
  | [] => 0
  | j :: rest => max j.depth (depthAll rest)

def depthMembers : List (String × Json) → Nat
  | [] => 0
  | (_, j) :: rest => max j.depth (depthMembers rest)

end

mutual

/-- Whether all of a value can be read. -/
def isReadable : Json → Bool
  | array items => areReadable items
  | object members => membersReadable members
  | unreadable => false
  | _ => true

def areReadable : List Json → Bool
  | [] => true
  | j :: rest => j.isReadable && areReadable rest

def membersReadable : List (String × Json) → Bool
  | [] => true
  | (_, j) :: rest => j.isReadable && membersReadable rest

end

/-! ## Members -/

/-- The first member of a name. -/
def get? (j : Json) (name : String) : Option Json :=
  match j with
  | object members => members.lookup name
  | _ => none

/-- Members without those that a later member of the same name replaces. -/
def dropReplaced : List (String × Json) → List (String × Json)
  | [] => []
  | (k, j) :: rest =>
    if rest.any (·.1 = k) then dropReplaced rest else (k, j) :: dropReplaced rest

mutual

/-- The value in which every object has the last of the members that share a name. -/
def lastWins : Json → Json
  | array items => array (lastWinsAll items)
  | object members => object (dropReplaced (lastWinsMembers members))
  | j => j

def lastWinsAll : List Json → List Json
  | [] => []
  | j :: rest => j.lastWins :: lastWinsAll rest

def lastWinsMembers : List (String × Json) → List (String × Json)
  | [] => []
  | (k, j) :: rest => (k, j.lastWins) :: lastWinsMembers rest

end

end Json

end TypedRoutes
