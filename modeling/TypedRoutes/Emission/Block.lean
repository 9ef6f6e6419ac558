import TypedRoutes.Emission.EnumTable
import TypedRoutes.Emission.Getter
import TypedRoutes.Emission.Helper
import TypedRoutes.Syntax.Printer.Source

/-!
# Blocks of code

* `Block` : a laid-out piece of code with what it declares;
* `treeBlocks` : the blocks of a route tree: its getter, and for every node in pre-order its
  functions and the tables of the enumerations it is the first to use;
* `helperBlocks` : the helpers that blocks use.

No two enumerations of a tree share the name of their tables.
-/

namespace TypedRoutes.Emission

open Syntax

/-- What a block declares. -/
inductive BlockKind
  | routeTree
  | routeData
  | enumCodec
  | helper
  deriving DecidableEq, Repr, Inhabited

def BlockKind.name : BlockKind → String
  | routeTree => "RouteTree"
  | routeData => "RouteData"
  | enumCodec => "EnumCodec"
  | helper => "Helper"

/-- A piece of code in lines. -/
structure Block where
  kind : BlockKind
  /-- The name of what is declared. -/
  key : String
  text : String
  deriving DecidableEq, Repr, Inhabited

/-- Lay code out in lines. Code that is no sequence of items is refused, and so is code with a form
that has no layout. -/
def layOutCode (place : Place) (code : Code) : Except Failure String :=
  match layOut code with
  | .ok text => .ok text
  | .error .unreadable => .error ⟨.unreadableCode, place⟩
  | .error .unwritable => .error ⟨.unwritableCode, place⟩

def block (kind : BlockKind) (key : String) (place : Place) (code : Code) :
    Except Failure Block := do
  return ⟨kind, key, ← layOutCode place code⟩

/-! ## Tables -/

/-- The tables emitted so far: their names with the enumerations. -/
abbrev Tables := List (String × String)

/-- The blocks of the tables that are not emitted yet. -/
def tableBlocks (tg : Target) (place : Place) (tables : Tables) :
    List String → Except Failure (List Block × Tables)
  | [] => .ok ([], tables)
  | e :: rest => do
    let name ← tableName place e
    match tables.lookup name with
    | some owner =>
      if owner = e then tableBlocks tg place tables rest
      else throw ⟨.sharedTable owner e name, place⟩
    | none =>
      let table ← EnumTable.ofMembers place e ((tg.catalog.members? e).getD [])
      let b ← block .enumCodec e place table.code
      let (bs, tables) ← tableBlocks tg place ((name, e) :: tables) rest
      return (b :: bs, tables)

/-! ## Trees -/

/-- The blocks of nodes in order. -/
def nodeBlocks (tg : Target) (declaration : String) (tables : Tables) :
    List Node → Except Failure (List Block)
  | [] => .ok []
  | n :: rest => do
    let place := n.place declaration
    let b ← block .routeData n.type place (← routeCode tg place n)
    let (bs, tables) ← tableBlocks tg place tables (enumsOf tg.catalog n)
    return b :: bs ++ (← nodeBlocks tg declaration tables rest)

/-- The blocks of a tree. -/
def treeBlocks (tg : Target) (declaration : String) (t : RouteTree) :
    Except Failure (List Block) := do
  let getter ← getterCode tg declaration t
  let b ← block .routeTree declaration { declaration } getter
  return b :: (← nodeBlocks tg declaration [] t.nodes)

/-! ## Helpers -/

/-- The text of blocks with an empty line between neighbours. -/
def joinBlocks (bs : List Block) : String :=
  "\n".intercalate (bs.map Block.text)

/-- The blocks of the helpers that other blocks use. -/
def helperBlocks (tg : Target) (place : Place) (bs : List Block) : Except Failure (List Block) :=
  (referenced (joinBlocks (bs.filter (·.kind ≠ .helper)))).mapM fun h =>
    block .helper h.name place (h.code tg)

end TypedRoutes.Emission
