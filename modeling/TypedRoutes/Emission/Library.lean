import TypedRoutes.Emission.Block
import TypedRoutes.Tree.Build

/-!
# Generated code

* `Output` : the blocks of one declaration, its helpers last;
* `generate` : the output of a declaration, or its first fault; `generateAll` : those of several;
* `assemble` : one text of several outputs, in which every block occurs once.
-/

namespace TypedRoutes.Emission

/-- The blocks of one declaration. -/
structure Output where
  declaration : String
  blocks : List Block
  deriving DecidableEq, Repr, Inhabited

namespace Output

/-- The helpers among the blocks. -/
def helpers (o : Output) : List Block :=
  o.blocks.filter (·.kind = .helper)

def text (o : Output) : String :=
  joinBlocks o.blocks

end Output

/-- What code is emitted against, unless the runtime path is none. -/
def target? (catalog : Catalog) (settings : Settings) : Option Target :=
  settings.runtime?.map fun ts => ⟨catalog, settings, typeTokens ts⟩

/-- The output of a declaration. -/
def generate (catalog : Catalog) (settings : Settings) (d : Declaration) :
    Except Failure Output := do
  let place : Place := { declaration := d.type }
  match target? catalog settings with
  | none => throw ⟨.badRuntimePath settings.runtimePath, place⟩
  | some tg =>
    let tree ← RouteTree.ofDeclaration catalog settings d
    let blocks ← treeBlocks tg d.type tree
    let helpers ← helperBlocks tg place blocks
    return ⟨d.type, blocks ++ helpers⟩

/-- The outputs of several declarations. A fault in one leaves the others alone. -/
def generateAll (catalog : Catalog) (settings : Settings) (ds : List Declaration) :
    List (Except Failure Output) :=
  ds.map (generate catalog settings)

/-! ## Assembly -/

/-- The first line of assembled code. -/
def header : String :=
  "// Code generated by routegen. DO NOT EDIT."

/-- A list without the items whose key occurs earlier in it or in `seen`. -/
def firstByKey {α κ : Type} [DecidableEq κ] (key : α → κ) (seen : List κ) : List α → List α
  | [] => []
  | a :: rest =>
    if key a ∈ seen then firstByKey key seen rest else a :: firstByKey key (key a :: seen) rest

/-- The blocks of an assembly: each once, and the helpers last, one of each name. -/
def assembledBlocks (outputs : List Output) : List Block :=
  let distinct := firstByKey id [] (outputs.flatMap Output.blocks)
  distinct.filter (·.kind ≠ .helper) ++
    firstByKey Block.key [] (distinct.filter (·.kind = .helper))

/-- One text of several outputs. -/
def assemble (outputs : List Output) : String :=
  header ++ "\n\n" ++ joinBlocks (assembledBlocks outputs)

end TypedRoutes.Emission
