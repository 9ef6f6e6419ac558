import TypedRoutes.Navigation.Route
import TypedRoutes.Text.Decimal

/-!
# Values of the sample application

* `Color`, `Draft` : what the application's values are made of;
* `Value` : a place in the application;
* `Value.location`, `Value.payload?` : how the navigator is told about a place;
* `readHome`, `readFamily`, … : how a place is made of a request.

What equals its default is left out of a location, and so is an absent note.
-/

namespace TypedRoutes.Sample

open Navigation Text

inductive Color
  | red
  | darkBlue
  | green
  deriving DecidableEq, Repr, Inhabited

namespace Color

/-- The members with the texts they are written as. -/
def table : List (Color × String) :=
  [(red, "red"), (darkBlue, "dark-blue"), (green, "green")]

/-- The member of a text. -/
def ofText? (s : String) : Option Color :=
  (table.find? fun (_, t) => t = s).map (·.1)

/-- The text of a member. -/
def text (c : Color) : String :=
  ((table.find? fun (d, _) => d = c).map (·.2)).getD ""

theorem ofText?_text (c : Color) : ofText? c.text = some c := by
  cases c <;> decide

end Color

/-- A payload that is passed along with a location. -/
structure Draft where
  text : String
  deriving DecidableEq, Repr, Inhabited

/-- A place in the application. -/
inductive Value
  | home
  | family (fid : String)
  | person (fid : String) (pid : UInt32) (color : Color) (tags : List Color) (note? : Option String)
      (extra? : Option Draft)
  | search (q : String) (pageSize : UInt32) (exact : Bool) (sort : String)
  | settings (extra : Draft)
  deriving DecidableEq, Repr, Inhabited

/-! ## Writing -/

def boolText (b : Bool) : String :=
  if b then "true" else "false"

/-- A pair for a value other than its default. -/
def pairUnless {α : Type} [DecidableEq α] (default : α) (key : String) (text : α → String) (a : α) :
    List (String × String) :=
  if a = default then [] else [(key, text a)]

namespace Value

/-- The path of a place. -/
def path : Value → String
  | home => "/"
  | family fid => "/family/" ++ Percent.encode fid
  | person fid pid _ _ _ _ =>
    "/family/" ++ Percent.encode fid ++ "/person/" ++ Percent.encode (toString pid.toNat)
  | search _ _ _ _ => "/search"
  | settings _ => "/settings"

/-- The query of a place. -/
def query : Value → List (String × String)
  | person _ _ color tags note? _ =>
    pairUnless .red "color" Color.text color ++ tags.map (fun t => ("tags", t.text)) ++
      (note?.map fun n => ("note", n)).toList
  | search q pageSize exact sort =>
    [("q", q)] ++ pairUnless 20 "page-size" (fun n => toString n.toNat) pageSize ++
      pairUnless false "exact" boolText exact ++ pairUnless "name" "sort" id sort
  | _ => []

def location (v : Value) : String :=
  writeLocation v.path v.query

/-- What is passed along with the location. -/
def payload? : Value → Option Draft
  | person _ _ _ _ _ extra? => extra?
  | settings extra => some extra
  | _ => none

end Value

/-! ## Reading -/

/-- A reader of places. -/
abbrev Reader := Request Draft → Except ReadError Value

/-- A value that has to be there. -/
def require {α : Type} (key : String) : Option α → Except ReadError α
  | some a => .ok a
  | none => .error (.missing key)

/-- A converted value. -/
def convert {α : Type} (key raw : String) (read : String → Option α) : Except ReadError α :=
  match read raw with
  | some a => .ok a
  | none => .error (.invalid key raw)

/-- A converted value if there is one. -/
def convert? {α : Type} (key : String) (raw? : Option String) (read : String → Option α) :
    Except ReadError (Option α) :=
  match raw? with
  | some raw => (convert key raw read).map some
  | none => .ok none

def boolOfText? : String → Option Bool
  | "true" => some true
  | "false" => some false
  | _ => none

def readHome : Reader := fun _ =>
  .ok .home

def readFamily : Reader := fun r => do
  let fid ← require "fid" (r.param? "fid")
  return .family fid

def readPerson : Reader := fun r => do
  let fid ← require "fid" (r.param? "fid")
  let pid ← convert "pid" (← require "pid" (r.param? "pid")) Decimal.word?
  let color ← convert? "color" (r.first? "color") Color.ofText?
  let tags ← ((r.all? "tags").getD []).mapM fun raw => convert "tags" raw Color.ofText?
  let note? ← convert? "note" (r.first? "note") some
  return .person fid pid (color.getD .red) tags note? r.payload

def readSearch : Reader := fun r => do
  let q ← require "q" (r.first? "q")
  let pageSize ← convert? "page-size" (r.first? "page-size") Decimal.word?
  let exact ← convert? "exact" (r.first? "exact") boolOfText?
  let sort ← convert? "sort" (r.first? "sort") some
  return .search q (pageSize.getD 20) (exact.getD false) (sort.getD "name")

def readSettings : Reader := fun r => do
  let extra ← require "extra" r.payload
  return .settings extra

end TypedRoutes.Sample
