import TypedRoutes.Emission.Library
import TypedRoutes.Proofs.Binding

/-!
# What can be at fault in emitted code

* `FailsIn` : a computation whose faults are of some categories only;
* `Covers` : categories that have all faults of code, those of defaults aside;
* `isSome_exprTokens?` : a default that was read as an expression has tokens;
* `routeCode_failsIn`, `getterCode_failsIn`, `ofMembers_failsIn` : the faults of the code of a block;
* `treeBlocks_failsIn` : the faults of all blocks of a tree.

Only the default of a parameter was looked at before; where it was not, its fault is allowed.
-/

namespace TypedRoutes.Emission

open Syntax Code

/-! ## Faults of some categories -/

section FailsIn

variable {α β : Type} {cs : List Category}

/-- A computation that fails with faults of some categories only. -/
def FailsIn (cs : List Category) (x : Except Failure α) : Prop :=
  ∀ f, x = .error f → f.fault.category ∈ cs

namespace FailsIn

theorem ok {a : α} : FailsIn cs (.ok a) :=
  nofun

theorem pure {a : α} : FailsIn cs (pure a) :=
  nofun

theorem error {fault : Fault} {place : Place} (h : fault.category ∈ cs) :
    FailsIn cs (.error ⟨fault, place⟩ : Except Failure α) := by
  intro f heq
  obtain rfl := Except.error.inj heq
  exact h

/-- A step is looked at where the one in front of it has a value. -/
theorem bind {x : Except Failure α} {f : α → Except Failure β} (hx : FailsIn cs x)
    (hf : ∀ a, x = .ok a → FailsIn cs (f a)) : FailsIn cs (x >>= f) := by
  intro failure h
  rcases bind_eq_error.1 h with h | ⟨a, ha, h⟩
  · exact hx failure h
  · exact hf a ha failure h

theorem mapM {f : α → Except Failure β} {as : List α} (h : ∀ a ∈ as, FailsIn cs (f a)) :
    FailsIn cs (as.mapM f) := by
  intro failure herror
  obtain ⟨before, a, behind, rfl, -, ha⟩ := mapM_eq_error.1 herror
  exact h a (by simp) failure ha

end FailsIn

end FailsIn

/-- Categories that have all faults of code, those of defaults aside: names that are none, types that
cannot be written, and fields that are not there. -/
structure Covers (cs : List Category) : Prop where
  name : .invalidIdentifier ∈ cs
  type : .unsupportedParameterType ∈ cs
  field : .unresolvedField ∈ cs

/-- The default of a parameter is without fault, unless such a fault is allowed. -/
def AllowsDefault (cs : List Category) (b : Binding) : Prop :=
  .invalidDefaultValue ∈ cs ∨ b.defaultFault? = none

/-- A default that was read as an expression has tokens. -/
theorem isSome_exprTokens? {text : String} (h : (parseExpr text).isSome = true) :
    (exprTokens? text).isSome = true := by
  obtain ⟨e, he⟩ := Option.isSome_iff_exists.1 h
  obtain ⟨ts, hts, hread⟩ := Option.bind_eq_some_iff.1 he
  unfold exprTokens?
  rw [hts, Option.bind_eq_bind, Option.bind_some, hread, Option.bind_eq_bind, Option.bind_some]
  dsimp only
  split <;> rfl

/-! ## Codes -/

section Codes

variable {cs : List Category} {tg : Target} {catalog : Catalog} {place : Place} {n : Node}
  {name : String} {b : Binding}

theorem identifier_failsIn (h : Covers cs) : FailsIn cs (identifier place name) := by
  unfold identifier
  split
  · exact .ok
  · exact .error h.name

theorem typePath_failsIn (h : Covers cs) : FailsIn cs (typePath place name) := by
  unfold typePath
  split
  · exact .ok
  · exact .error h.name

mutual

theorem typeCode_failsIn (h : Covers cs) : ∀ t : TypeRef, FailsIn cs (typeCode place t)
  | ⟨name, args, nullable⟩ => by
    rw [typeCode]
    exact (typePath_failsIn h).bind fun _ _ => (typeCodes_failsIn h args).bind fun _ _ => .pure

theorem typeCodes_failsIn (h : Covers cs) : ∀ ts : List TypeRef, FailsIn cs (typeCodes place ts)
  | [] => by
    rw [typeCodes]
    exact .ok
  | t :: rest => by
    rw [typeCodes]
    exact (typeCode_failsIn h t).bind fun _ _ => (typeCodes_failsIn h rest).bind fun _ _ => .pure

end

theorem tableName_failsIn (h : Covers cs) : FailsIn cs (tableName place name) :=
  identifier_failsIn h

theorem ofType_failsIn (h : Covers cs) (t : TypeRef) : FailsIn cs (Codec.ofType catalog place t) := by
  unfold Codec.ofType
  split
  · exact .error h.type
  · dsimp only
    split
    · exact (typeCode_failsIn h _).bind fun _ _ => (tableName_failsIn h).bind fun _ _ => .pure
    · split
      · exact .pure
      · exact .pure
      · exact (typeCode_failsIn h _).bind fun _ _ => .pure

/-- A default fails to be written just if it failed to be read before. -/
theorem defaultCode_failsIn (hb : AllowsDefault cs b) : FailsIn cs (defaultCode place b) := by
  unfold defaultCode
  cases hdefault : b.default? with
  | none => exact .ok
  | some e =>
    dsimp only
    split
    · exact .ok
    · next htokens =>
      rcases hb with hallowed | hfault
      · exact .error hallowed
      · have hsome := isSome_exprTokens? (default_parses hfault e hdefault)
        rw [htokens] at hsome
        cases hsome

theorem ofBinding_failsIn (h : Covers cs) (hb : AllowsDefault cs b) :
    FailsIn cs (QueryForm.ofBinding catalog place b) := by
  unfold QueryForm.ofBinding
  refine (defaultCode_failsIn hb).bind fun _ _ => ?_
  dsimp only
  split
  · exact (ofType_failsIn h _).bind fun _ _ => .pure
  · exact (ofType_failsIn h _).bind fun _ _ => .pure

theorem readLocal_failsIn (h : Covers cs) (hb : AllowsDefault cs b) :
    FailsIn cs (readLocal tg place b) := by
  refine (identifier_failsIn h).bind fun _ _ => .bind ?_ fun _ _ => .pure
  unfold readBinding
  split
  · exact (ofType_failsIn h _).bind fun _ _ => .pure
  · exact (ofBinding_failsIn h hb).bind fun _ _ => .pure
  · exact (typeCode_failsIn h _).bind fun _ _ => .pure

theorem decodeFunction_failsIn (h : Covers cs) (hn : ∀ b ∈ n.bindings, AllowsDefault cs b) :
    FailsIn cs (decodeFunction tg place n) :=
  .bind (.mapM fun b hb => readLocal_failsIn h (hn b hb)) fun _ _ => .pure

theorem backingField_failsIn (h : Covers cs) : FailsIn cs (backingField place n name) := by
  unfold backingField
  split
  · exact .ok
  · exact .error h.field

theorem writePath_failsIn (h : Covers cs) : FailsIn cs (writePath tg place n name) :=
  (backingField_failsIn h).bind fun _ _ => (ofType_failsIn h _).bind fun _ _ =>
    (identifier_failsIn h).bind fun _ _ => .pure

theorem writeQuery_failsIn (h : Covers cs) (hb : AllowsDefault cs b) :
    FailsIn cs (writeQuery tg place n b) :=
  (backingField_failsIn h).bind fun _ _ => (identifier_failsIn h).bind fun _ _ =>
    (ofBinding_failsIn h hb).bind fun _ _ => .pure

theorem composedPath_failsIn {t : PathTemplate} : FailsIn cs (composedPath place t) := by
  rw [composedPath_eq]
  exact .ok

theorem locationFunction_failsIn (h : Covers cs) (hn : ∀ b ∈ n.bindings, AllowsDefault cs b)
    {t : PathTemplate} : FailsIn cs (locationFunction tg place n t) := by
  refine .bind (.mapM fun _ _ => writePath_failsIn h) fun _ _ => ?_
  refine composedPath_failsIn.bind fun _ _ => ?_
  refine .bind (.mapM fun b hb => writeQuery_failsIn h ?_) fun _ _ => .pure
  exact hn b (mem_carriedBy.1 hb).1

theorem navigationFunctions_failsIn (h : Covers cs) : FailsIn cs (navigationFunctions tg place n) := by
  refine .bind ?_ fun _ _ => .pure
  unfold payloadCode
  split
  · exact .ok
  · exact (backingField_failsIn h).bind fun _ _ => (identifier_failsIn h).bind fun _ _ => .pure

theorem routeCode_failsIn (h : Covers cs) (hn : ∀ b ∈ n.bindings, AllowsDefault cs b) :
    FailsIn cs (routeCode tg place n) := by
  refine (typePath_failsIn h).bind fun _ _ => (decodeFunction_failsIn h hn).bind fun _ _ => ?_
  cases n.template? with
  | none => exact .pure
  | some t =>
    exact (locationFunction_failsIn h hn).bind fun _ _ =>
      (navigationFunctions_failsIn h).bind fun _ _ => .pure

end Codes

section Getter

variable {cs : List Category} {tg : Target} {place : Place} {declaration : String}

theorem ownKeyCode_failsIn (h : Covers cs) {key? : Option KeyBinding} :
    FailsIn cs (ownKeyCode place key?) := by
  unfold ownKeyCode
  split
  · exact .ok
  · exact (typePath_failsIn h).bind fun _ _ => (identifier_failsIn h).bind fun _ _ => .pure

theorem nodeBuilder_failsIn (h : Covers cs) {n : Node} : FailsIn cs (nodeBuilder place n) := by
  refine (typePath_failsIn h).bind fun _ _ => ?_
  split
  · exact (ownKeyCode_failsIn h).bind fun _ _ => .pure
  · exact (ownKeyCode_failsIn h).bind fun _ _ => (ownKeyCode_failsIn h).bind fun _ _ => .pure

mutual

theorem builderOf_failsIn (h : Covers cs) : ∀ t : RouteTree, FailsIn cs (builderOf declaration t)
  | .node n children => by
    rw [builderOf]
    exact (nodeBuilder_failsIn h).bind fun _ _ => (buildersOf_failsIn h children).bind fun _ _ =>
      .pure

theorem buildersOf_failsIn (h : Covers cs) :
    ∀ ts : List RouteTree, FailsIn cs (buildersOf declaration ts)
  | [] => by
    rw [buildersOf]
    exact .ok
  | t :: rest => by
    rw [buildersOf]
    exact (builderOf_failsIn h t).bind fun _ _ => (buildersOf_failsIn h rest).bind fun _ _ => .pure

end

theorem getterCode_failsIn (h : Covers cs) (t : RouteTree) :
    FailsIn cs (getterCode tg declaration t) :=
  (identifier_failsIn h).bind fun _ _ => (builderOf_failsIn h t).bind fun _ _ => .pure

end Getter

section Tables

variable {cs : List Category} {place : Place} {enumeration : String}

theorem entriesFrom_failsIn (h : Covers cs) (members : List String) (seen : List (String × String)) :
    FailsIn cs (EnumTable.entriesFrom place enumeration seen members) := by
  induction members generalizing seen with
  | nil => exact .ok
  | cons m rest ih =>
    rw [EnumTable.entriesFrom]
    refine (identifier_failsIn h).bind fun _ _ => ?_
    dsimp only
    split
    · exact .error h.type
    · exact (ih _).bind fun _ _ => .pure

theorem ofMembers_failsIn (h : Covers cs) {members : List String} :
    FailsIn cs (EnumTable.ofMembers place enumeration members) :=
  (typeCode_failsIn h _).bind fun _ _ => (tableName_failsIn h).bind fun _ _ =>
    (entriesFrom_failsIn h members []).bind fun _ _ => .pure

end Tables

/-! ## Blocks -/

section Blocks

variable {cs : List Category} {tg : Target} {place : Place} {declaration : String}

theorem block_failsIn (hrender : .render ∈ cs) {kind : BlockKind} {key : String} {code : Code} :
    FailsIn cs (block kind key place code) := by
  refine .bind ?_ fun _ _ => .pure
  unfold layOutCode
  split
  · exact .ok
  · exact .error hrender
  · exact .error hrender

theorem tableBlocks_failsIn (h : Covers cs) (hrender : .render ∈ cs) (enumerations : List String)
    (tables : Tables) : FailsIn cs (tableBlocks tg place tables enumerations) := by
  induction enumerations generalizing tables with
  | nil => exact .ok
  | cons e rest ih =>
    rw [tableBlocks]
    refine (tableName_failsIn h).bind fun name _ => ?_
    dsimp only
    split
    · split
      · exact ih tables
      · exact .error h.type
    · exact (ofMembers_failsIn h).bind fun _ _ => (block_failsIn hrender).bind fun _ _ =>
        (ih _).bind fun _ _ => .pure

theorem nodeBlocks_failsIn (h : Covers cs) (hrender : .render ∈ cs) {nodes : List Node}
    (hnodes : ∀ n ∈ nodes, ∀ b ∈ n.bindings, AllowsDefault cs b) (tables : Tables) :
    FailsIn cs (nodeBlocks tg declaration tables nodes) := by
  induction nodes generalizing tables with
  | nil => exact .ok
  | cons n rest ih =>
    obtain ⟨hn, hrest⟩ := List.forall_mem_cons.1 hnodes
    rw [nodeBlocks]
    refine (routeCode_failsIn h hn).bind fun _ _ => (block_failsIn hrender).bind fun _ _ => ?_
    exact (tableBlocks_failsIn h hrender _ _).bind fun _ _ => (ih hrest _).bind fun _ _ => .pure

/-- Where the defaults of all parameters are without fault, a tree fails at names, types, fields and
the layout of its code. -/
theorem treeBlocks_failsIn (h : Covers cs) (hrender : .render ∈ cs) {t : RouteTree}
    (hnodes : ∀ n ∈ t.nodes, ∀ b ∈ n.bindings, AllowsDefault cs b) :
    FailsIn cs (treeBlocks tg declaration t) :=
  (getterCode_failsIn h t).bind fun _ _ => (block_failsIn hrender).bind fun _ _ =>
    (nodeBlocks_failsIn h hrender hnodes []).bind fun _ _ => .pure

end Blocks

end TypedRoutes.Emission
