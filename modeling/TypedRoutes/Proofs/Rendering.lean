import TypedRoutes.Proofs.EmissionFaults
import TypedRoutes.Proofs.FirstFault
import TypedRoutes.Proofs.ReadableBlocks

/-!
# Generation never fails at reading its own code

* `Renders` : a computation that does not fail with code that is no sequence of items;
* `codeCategories` : the categories of all other faults of code; `routeCode_renders`,
  `getterCode_renders`, `ofMembers_renders` : the code of a block is made without such a fault;
* `treeBlocks_renders`, `helperBlocks_renders` : the blocks of plain routes are laid out without one;
* `generate_renders` : so is the output of a declaration whose routes are plain.
-/

namespace TypedRoutes.Emission

open Syntax Code

variable {α β : Type}

/-- A computation that does not fail with code that is no sequence of items. -/
def Renders (x : Except Failure α) : Prop :=
  ∀ place, x ≠ .error ⟨.unreadableCode, place⟩

namespace Renders

theorem ok {a : α} : Renders (.ok a) :=
  nofun

theorem pure {a : α} : Renders (pure a) :=
  nofun

theorem error {fault : Fault} {place : Place} (h : fault ≠ .unreadableCode) :
    Renders (.error ⟨fault, place⟩ : Except Failure α) :=
  fun _ heq => h (congrArg Failure.fault (Except.error.inj heq))

/-- A step is looked at where the one in front of it has a value. -/
theorem bind {x : Except Failure α} {f : α → Except Failure β} (hx : Renders x)
    (hf : ∀ a, x = .ok a → Renders (f a)) : Renders (x >>= f) := by
  intro place h
  rcases bind_eq_error.1 h with h | ⟨a, ha, h⟩
  · exact hx place h
  · exact hf a ha place h

theorem mapM {f : α → Except Failure β} {as : List α} (h : ∀ a ∈ as, Renders (f a)) :
    Renders (as.mapM f) := by
  intro place herror
  obtain ⟨before, a, behind, rfl, -, ha⟩ := mapM_eq_error.1 herror
  exact h a (by simp) place ha

end Renders

/-! ## Codes -/

/-- The categories that the faults of code have. Code that is no sequence of items is of none. -/
def codeCategories : List Category :=
  [.invalidIdentifier, .unsupportedParameterType, .unresolvedField, .invalidDefaultValue]

theorem covers_codeCategories : Covers codeCategories :=
  ⟨by decide, by decide, by decide⟩

theorem Renders.of_failsIn {x : Except Failure α} (h : FailsIn codeCategories x) : Renders x := by
  intro place heq
  have hrender : Category.render ∉ codeCategories := by decide
  exact hrender (h _ heq)

section Codes

variable {tg : Target} {place : Place} {declaration : String}

theorem routeCode_renders {n : Node} : Renders (routeCode tg place n) :=
  .of_failsIn (routeCode_failsIn covers_codeCategories fun _ _ => Or.inl (by decide))

theorem getterCode_renders (t : RouteTree) : Renders (getterCode tg declaration t) :=
  .of_failsIn (getterCode_failsIn covers_codeCategories t)

theorem tableName_renders {enumeration : String} : Renders (tableName place enumeration) :=
  .of_failsIn (tableName_failsIn covers_codeCategories)

theorem ofMembers_renders {enumeration : String} {members : List String} :
    Renders (EnumTable.ofMembers place enumeration members) :=
  .of_failsIn (ofMembers_failsIn covers_codeCategories)

end Codes

/-! ## Blocks -/

section Blocks

variable {tg : Target} {place : Place} {declaration : String}

/-- Code that is read as items is laid out, or has a form without layout. -/
theorem block_renders {kind : BlockKind} {key : String} {code : Code}
    (h : (itemsOf? code).isSome = true) : Renders (block kind key place code) := by
  refine .bind ?_ fun _ _ => .pure
  unfold layOutCode layOut
  cases hitems : itemsOf? code with
  | none =>
    rw [hitems] at h
    cases h
  | some items =>
    dsimp only
    split
    · exact .ok
    · next hlayout =>
      split at hlayout <;> cases hlayout
    · exact .error nofun

theorem tableBlocks_renders {enumerations : List String}
    (h : ∀ e ∈ enumerations, isPlainTypeName e = true) (tables : Tables) :
    Renders (tableBlocks tg place tables enumerations) := by
  induction enumerations generalizing tables with
  | nil => exact .ok
  | cons e rest ih =>
    obtain ⟨he, hrest⟩ := List.forall_mem_cons.1 h
    rw [tableBlocks]
    refine tableName_renders.bind fun name _ => ?_
    dsimp only
    split
    · split
      · exact ih hrest tables
      · exact .error (by simp)
    · exact ofMembers_renders.bind fun table hmembers =>
        (block_renders (isSome_tableCode he hmembers)).bind fun _ _ =>
          (ih hrest _).bind fun _ _ => .pure

theorem nodeBlocks_renders (h : isPlainPath tg.runtime = true) {nodes : List Node}
    (hnodes : ∀ n ∈ nodes, Node.IsPlain tg.catalog n) (tables : Tables) :
    Renders (nodeBlocks tg declaration tables nodes) := by
  induction nodes generalizing tables with
  | nil => exact .ok
  | cons n rest ih =>
    obtain ⟨hn, hrest⟩ := List.forall_mem_cons.1 hnodes
    rw [nodeBlocks]
    refine routeCode_renders.bind fun code hcode => ?_
    exact (block_renders (isSome_routeCode h hn hcode)).bind fun _ _ =>
      (tableBlocks_renders hn.enums tables).bind fun _ _ => (ih hrest _).bind fun _ _ => .pure

theorem treeBlocks_renders (h : isPlainPath tg.runtime = true) {t : RouteTree}
    (hnodes : ∀ n ∈ t.nodes, Node.IsPlain tg.catalog n) :
    Renders (treeBlocks tg declaration t) := by
  have hroot : Node.IsPlain tg.catalog t.root := by
    obtain ⟨n, children⟩ := t
    exact hnodes n (by simp [RouteTree.nodes])
  exact (getterCode_renders t).bind fun _ hgetter =>
    (block_renders (isSome_getterCode h hroot hgetter)).bind fun _ _ =>
      (nodeBlocks_renders h hnodes []).bind fun _ _ => .pure

theorem helperBlocks_renders (h : isPlainPath tg.runtime = true) (bs : List Block) :
    Renders (helperBlocks tg place bs) :=
  .mapM fun helper _ => block_renders (isSome_helperCode h helper)

end Blocks

/-! ## Declarations -/

section Declarations

variable {catalog : Catalog} {settings : Settings} {d : Declaration}

theorem parameterFault?_ne {template? : Option PathTemplate} {payload : String} {p : Parameter} :
    parameterFault? template? payload p ≠ some .unreadableCode := by
  intro h
  have hcategory := parameterFault?_category h
  exact absurd hcategory (by decide)

theorem ofDeclaration_renders : Renders (RouteTree.ofDeclaration catalog settings d) := by
  unfold RouteTree.ofDeclaration
  split
  · intro place h
    obtain ⟨before, s, behind, -, -, hfault⟩ := (buildTree_eq_error _ _ _ _).1 h
    cases hfault with
    | parameter _ _ _ _ faulty => exact parameterFault?_ne faulty
  · exact .error nofun

/-- Against a library whose path is plain, the code for routes that are plain is always read: the
output of a declaration never fails at it, whatever its tree, its parameters and its enumerations. -/
theorem generate_renders
    (hruntime : ((target? catalog settings).all fun tg => isPlainPath tg.runtime) = true)
    (hplain : ∀ t, RouteTree.ofDeclaration catalog settings d = .ok t →
      ∀ n ∈ t.nodes, Node.IsPlain catalog n) :
    ∀ place, generate catalog settings d ≠ .error ⟨.unreadableCode, place⟩ := by
  show Renders (generate catalog settings d)
  unfold generate
  dsimp only
  split
  · exact .error nofun
  · next tg htarget =>
    have hpath : isPlainPath tg.runtime = true := by rwa [htarget] at hruntime
    have hcatalog : tg.catalog = catalog := by
      obtain ⟨ts, -, rfl⟩ := Option.map_eq_some_iff.1 htarget
      rfl
    refine ofDeclaration_renders.bind fun t ht => ?_
    exact (treeBlocks_renders hpath (by rw [hcatalog]; exact hplain t ht)).bind fun bs _ =>
      (helperBlocks_renders hpath bs).bind fun _ _ => .pure

/-- A tree with parameters in the path, a defaulted one in the query, and a payload. -/
theorem generate_renders_family :
    ((target? familyCatalog {}).all fun tg => isPlainPath tg.runtime) = true ∧
      (∀ t, RouteTree.ofDeclaration familyCatalog {} familyDeclaration = .ok t →
        ∀ n ∈ t.nodes, Node.IsPlain familyCatalog n) ∧
      ∀ place, generate familyCatalog {} familyDeclaration ≠ .error ⟨.unreadableCode, place⟩ := by
  have hruntime : ((target? familyCatalog {}).all fun tg => isPlainPath tg.runtime) = true := by
    decide +kernel
  have hfamily : ∀ n ∈ familyTree.nodes, Node.IsPlain familyCatalog n := by
    decide +kernel
  have hplain : ∀ t, RouteTree.ofDeclaration familyCatalog {} familyDeclaration = .ok t →
      ∀ n ∈ t.nodes, Node.IsPlain familyCatalog n := by
    intro t ht
    obtain rfl := Except.ok.inj (ofDeclaration_family.symm.trans ht)
    exact hfamily
  exact ⟨hruntime, hplain, generate_renders hruntime hplain⟩

/-- A comparison as a default makes two comparisons in a row, which are no condition. -/
example (body : Code) :
    condition? (QueryForm.unlessDefault (selfField "exact") ([.literal "1"] ++ op "<" ++
      [.literal "2"]) body) = none := by
  rfl

end Declarations

end TypedRoutes.Emission
