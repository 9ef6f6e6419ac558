import TypedRoutes.Proofs.Arena
import TypedRoutes.Proofs.References

/-!
# What output depends on in a catalog

* `footprint` : the route types of an annotation, and the names under which enumerations are looked
  for among the types of their parameters and fields;
* `Catalog.AgreeOn` : two catalogs that have the same under some names;
* `ofType_congr`, `routeCode_congr`, … : the code of a node under two catalogs that agree on the
  types it carries;
* `Alike` : outcomes that differ in nothing but the name suggested for an unknown route type;
* `alike_buildTree` : trees under two catalogs that agree on the route types;
* `types_of_mem_nodes` : a tree carries no types but those of its route types;
* `alike_generate`, `generate_congr` : output under two catalogs that agree on the footprint.
-/

namespace TypedRoutes

/-! ## Footprints -/

namespace Annotation

mutual

/-- The route types of an annotation in pre-order. -/
def types : Annotation → List String
  | go type _ _ routes => type :: typesAll routes
  | shell type routes => type :: typesAll routes

def typesAll : List Annotation → List String
  | [] => []
  | a :: rest => a.types ++ typesAll rest

end

theorem types_eq (a : Annotation) : a.types = a.type :: typesAll a.routes := by
  cases a <;> rfl

end Annotation

open Annotation (typesAll types_eq)

/-- The names under which an enumeration is looked for that a type names: in full and the last one.
A list names the enumeration of its elements. -/
def TypeRef.lookups (t : TypeRef) : List String :=
  let scalar := t.element?.getD t
  [scalar.name, scalar.simpleName]

namespace Catalog

/-- The types of the constructor parameters and of the fields of a record. -/
def typesIn (c : Catalog) (type : String) : List TypeRef :=
  match c.find? type with
  | some ⟨_, .record ps fields _⟩ => ps.map Parameter.type ++ fields.map Field.type
  | _ => []

/-- Two catalogs that have the same under some names. -/
def AgreeOn (c c' : Catalog) (names : List String) : Prop :=
  ∀ name ∈ names, c.find? name = c'.find? name

theorem AgreeOn.mono {c c' : Catalog} {names names' : List String} (h : c.AgreeOn c' names)
    (hsub : names' ⊆ names) : c.AgreeOn c' names' :=
  fun name hname => h name (hsub hname)

theorem AgreeOn.members? {c c' : Catalog} {names : List String} (h : c.AgreeOn c' names)
    {name : String} (hname : name ∈ names) : c.members? name = c'.members? name := by
  unfold Catalog.members?
  rw [h name hname]

end Catalog

/-- The names that output depends on in a catalog. -/
def footprint (c : Catalog) (a : Annotation) : List String :=
  a.types ++ (a.types.flatMap c.typesIn).flatMap TypeRef.lookups

/-- The types of the parameters and of the fields of a node. -/
def Node.types (n : Node) : List TypeRef :=
  n.bindings.map Binding.type ++ n.fields.map Field.type

/-! ## Code of a node -/

namespace Emission

open Syntax Code

variable {c c' : Catalog} {place : Place}

/-- The same target, against another catalog. -/
def Target.against (tg : Target) (catalog : Catalog) : Target :=
  { tg with catalog }

section Types

variable {t : TypeRef}

theorem enumIn?_congr (h : c.AgreeOn c' t.lookups) : enumIn? c t = enumIn? c' t := by
  have hfull : c.members? (t.element?.getD t).name = c'.members? (t.element?.getD t).name :=
    h.members? List.mem_cons_self
  have hlast : c.members? (t.element?.getD t).simpleName =
      c'.members? (t.element?.getD t).simpleName :=
    h.members? (List.mem_cons_of_mem _ List.mem_cons_self)
  simp only [enumIn?, enumName?, List.find?_cons, List.find?_nil, hfull, hlast]

theorem ofType_congr (h : enumName? c t = enumName? c' t) :
    Codec.ofType c place t = Codec.ofType c' place t := by
  have hscalar : enumName? c t.nonNullable = enumName? c' t.nonNullable := h
  simp only [Codec.ofType, hscalar]

/-- A type with arguments has no codec, whatever is found for the elements of a list. -/
theorem ofType_congr_in (h : enumIn? c t = enumIn? c' t) :
    Codec.ofType c place t = Codec.ofType c' place t := by
  obtain ⟨name, args, nullable⟩ := t
  cases args with
  | nil => exact ofType_congr h
  -- refused for its arguments, in front of any lookup
  | cons a args => rfl

end Types

theorem ofBinding_congr {b : Binding} (h : enumIn? c b.type = enumIn? c' b.type) :
    QueryForm.ofBinding c place b = QueryForm.ofBinding c' place b := by
  unfold QueryForm.ofBinding
  refine bind_congr fun default? => ?_
  dsimp only
  cases helement : b.type.element? with
  | none => rw [ofType_congr_in h]
  | some e =>
    rw [enumIn?, enumIn?, helement] at h
    dsimp only [Option.getD_some] at h ⊢
    rw [ofType_congr h]

section Bindings

variable {tg : Target} {b : Binding} (h : enumIn? tg.catalog b.type = enumIn? c' b.type)

include h

theorem readBinding_congr : readBinding tg place b = readBinding (tg.against c') place b := by
  unfold readBinding
  cases b.carrier with
  | path =>
    dsimp only
    rw [ofType_congr_in h]
    rfl
  | query =>
    dsimp only
    rw [ofBinding_congr h]
    rfl
  | payload => rfl

theorem readLocal_congr : readLocal tg place b = readLocal (tg.against c') place b := by
  unfold readLocal
  dsimp only
  rw [readBinding_congr h]

theorem writeQuery_congr {n : Node} :
    writeQuery tg place n b = writeQuery (tg.against c') place n b := by
  unfold writeQuery
  dsimp only
  rw [ofBinding_congr h]
  rfl

end Bindings

section Nodes

variable {tg : Target} {n : Node} (h : ∀ t ∈ n.types, tg.catalog.AgreeOn c' t.lookups)

include h

theorem enumIn?_congr_binding {b : Binding} (hb : b ∈ n.bindings) :
    enumIn? tg.catalog b.type = enumIn? c' b.type :=
  enumIn?_congr (h b.type (List.mem_append_left _ (List.mem_map_of_mem hb)))

theorem enumIn?_congr_field {f : Field} {name : String} (hf : n.field? name = some f) :
    enumIn? tg.catalog f.type = enumIn? c' f.type :=
  enumIn?_congr
    (h f.type (List.mem_append_right _ (List.mem_map_of_mem (List.mem_of_find?_eq_some hf))))

theorem decodeFunction_congr :
    decodeFunction tg place n = decodeFunction (tg.against c') place n := by
  have hlocals : n.bindings.mapM (readLocal tg place) =
      n.bindings.mapM (readLocal (tg.against c') place) :=
    mapM_congr fun b hb => readLocal_congr (enumIn?_congr_binding h hb)
  unfold decodeFunction
  rw [hlocals]
  rfl

theorem writePath_congr (name : String) :
    writePath tg place n name = writePath (tg.against c') place n name := by
  unfold writePath backingField
  dsimp only
  cases hfield : n.field? name with
  | none => rfl
  | some f =>
    have hcodec : Codec.ofType tg.catalog (place.parameter name) f.type =
        Codec.ofType c' (place.parameter name) f.type :=
      ofType_congr_in (enumIn?_congr_field h hfield)
    change Codec.ofType tg.catalog _ f.type >>= _ = Codec.ofType c' _ f.type >>= _
    rw [hcodec]
    rfl

theorem locationFunction_congr (t : PathTemplate) :
    locationFunction tg place n t = locationFunction (tg.against c') place n t := by
  have hpaths : t.names.mapM (writePath tg place n) =
      t.names.mapM (writePath (tg.against c') place n) :=
    mapM_congr fun name _ => writePath_congr h name
  have hqueries : (Bindings.inQuery n.bindings).mapM (writeQuery tg place n) =
      (Bindings.inQuery n.bindings).mapM (writeQuery (tg.against c') place n) :=
    mapM_congr fun b hb => writeQuery_congr (enumIn?_congr_binding h (mem_carriedBy.1 hb).1)
  unfold locationFunction
  rw [hpaths, hqueries]
  rfl

theorem routeCode_congr : routeCode tg place n = routeCode (tg.against c') place n := by
  unfold routeCode
  rw [decodeFunction_congr h]
  cases n.template? with
  | none => rfl
  | some t =>
    dsimp only
    rw [locationFunction_congr h t]
    rfl

/-- The enumerations that a node carries are found under names at which the catalogs agree. -/
theorem enumsOf_congr :
    enumsOf tg.catalog n = enumsOf c' n ∧
      ∀ e ∈ enumsOf tg.catalog n, tg.catalog.members? e = c'.members? e := by
  have htypes : ∀ t ∈ carriedTypes n, t ∈ n.types := by
    intro t ht
    rcases mem_carriedTypes.1 ht with ⟨b, hb, rfl⟩ | ⟨b, hb, rfl⟩ | ⟨_, -, name, -, f, hf, rfl⟩
    · exact List.mem_append_left _ (List.mem_map_of_mem (mem_carriedBy.1 hb).1)
    · exact List.mem_append_left _ (List.mem_map_of_mem (mem_carriedBy.1 hb).1)
    · exact List.mem_append_right _ (List.mem_map_of_mem (List.mem_of_find?_eq_some hf))
  constructor
  · have hcarried : (carriedTypes n).filterMap (enumIn? tg.catalog) =
        (carriedTypes n).filterMap (enumIn? c') :=
      List.filterMap_congr fun t ht => enumIn?_congr (h t (htypes t ht))
    rw [enumsOf, hcarried, enumsOf]
  · intro e he
    obtain ⟨t, ht, hname⟩ := mem_enumsOf.1 he
    unfold enumIn? enumName? at hname
    exact (h t (htypes t ht)).members? (List.mem_of_find?_eq_some hname)

end Nodes

/-! ## Code of a tree -/

section Trees

variable {tg : Target}

theorem tableBlocks_congr {es : List String} (h : ∀ e ∈ es, tg.catalog.members? e = c'.members? e)
    (tables : Tables) :
    tableBlocks tg place tables es = tableBlocks (tg.against c') place tables es := by
  induction es generalizing tables with
  | nil => rfl
  | cons e es ih =>
    obtain ⟨he, hes⟩ := List.forall_mem_cons.1 h
    rw [tableBlocks, tableBlocks]
    refine bind_congr fun name => ?_
    cases tables.lookup name with
    | some owner =>
      dsimp only
      rw [ih hes]
    | none =>
      have hagainst : (tg.against c').catalog = c' := rfl
      simp only [hagainst, he, ih hes]

theorem nodeBlocks_congr {declaration : String} {ns : List Node}
    (h : ∀ n ∈ ns, ∀ t ∈ n.types, tg.catalog.AgreeOn c' t.lookups) (tables : Tables) :
    nodeBlocks tg declaration tables ns = nodeBlocks (tg.against c') declaration tables ns := by
  induction ns generalizing tables with
  | nil => rfl
  | cons n ns ih =>
    obtain ⟨hn, hns⟩ := List.forall_mem_cons.1 h
    obtain ⟨henums, hmembers⟩ := enumsOf_congr hn
    have hown : ∀ place, tableBlocks tg place tables (enumsOf tg.catalog n) =
        tableBlocks (tg.against c') place tables (enumsOf c' n) := fun place => by
      rw [tableBlocks_congr hmembers, henums]
    rw [nodeBlocks, nodeBlocks]
    dsimp only
    rw [routeCode_congr hn, hown]
    refine bind_congr fun code => bind_congr fun b => bind_congr fun own => ?_
    obtain ⟨bs, tables'⟩ := own
    dsimp only
    rw [ih hns]

mutual

/-- The builder of a route names the runtime, and no type of the catalog. -/
theorem code_against (c : Catalog) : ∀ b : Builder, b.code (tg.against c) = b.code tg
  | .go path type => rfl
  | .shell type => rfl
  | .name route n => by rw [Builder.code, Builder.code, code_against c route]
  | .navigatorKey route key => by rw [Builder.code, Builder.code, code_against c route]
  | .parentNavigatorKey route key => by rw [Builder.code, Builder.code, code_against c route]
  | .routes route children => by
    rw [Builder.code, Builder.code, code_against c route, routeCodes_against c children]

theorem routeCodes_against (c : Catalog) :
    ∀ bs : List Builder, Builder.routeCodes (tg.against c) bs = Builder.routeCodes tg bs
  | [] => rfl
  | b :: rest => by
    rw [Builder.routeCodes, Builder.routeCodes, code_against c b, routeCodes_against c rest]

end

theorem getterCode_against (c : Catalog) (declaration : String) (t : RouteTree) :
    getterCode (tg.against c) declaration t = getterCode tg declaration t := by
  unfold getterCode
  simp only [code_against]
  rfl

theorem treeBlocks_congr {declaration : String} {t : RouteTree}
    (h : ∀ n ∈ t.nodes, ∀ u ∈ n.types, tg.catalog.AgreeOn c' u.lookups) :
    treeBlocks tg declaration t = treeBlocks (tg.against c') declaration t := by
  unfold treeBlocks
  rw [getterCode_against c', nodeBlocks_congr h]

theorem helperBlocks_against (c : Catalog) (bs : List Block) :
    helperBlocks (tg.against c) place bs = helperBlocks tg place bs := by
  unfold helperBlocks
  refine mapM_congr fun helper _ => ?_
  rw [@code_eq_of_runtime_eq (tg.against c) tg rfl helper]

end Trees

end Emission

/-! ## Outcomes -/

/-- Outcomes that differ in nothing but the name that is suggested for an unknown route type. -/
inductive Alike {α : Type} : Except Failure α → Except Failure α → Prop
  | same (x : Except Failure α) : Alike x x
  | unknown (type : String) (s s' : Option String) (place : Place) :
    Alike (.error ⟨.unknownRouteType type s, place⟩) (.error ⟨.unknownRouteType type s', place⟩)

namespace Alike

variable {α β : Type} {x y : Except Failure α}

theorem of_eq (h : x = y) : Alike x y := by
  rw [h]
  exact .same y

theorem bind {f g : α → Except Failure β} (h : Alike x y)
    (hstep : ∀ a, x = .ok a → Alike (f a) (g a)) : Alike (x >>= f) (y >>= g) := by
  cases h with
  | same =>
    cases x with
    | error e => exact .same _
    | ok a => exact hstep a rfl
  | unknown type s s' place => exact .unknown type s s' place

theorem eq_ok_iff (h : Alike x y) {a : α} : x = .ok a ↔ y = .ok a := by
  cases h with
  | same => rfl
  | unknown => simp

theorem eq_error_iff (h : Alike x y) {f : Failure} (hf : f.fault.category ≠ .unknownRouteType) :
    x = .error f ↔ y = .error f := by
  cases h with
  | same => rfl
  | unknown type s s' place =>
    refine iff_of_false ?_ ?_
    · rintro ⟨⟩
      exact hf rfl
    · rintro ⟨⟩
      exact hf rfl

end Alike

section Building

variable {cx : Context} {c' : Catalog}

/-- The same context, with another catalog. -/
def Context.against (cx : Context) (catalog : Catalog) : Context :=
  { cx with catalog }

theorem alike_describe {type : String} (h : cx.catalog.find? type = c'.find? type) :
    Alike (cx.describe type) ((cx.against c').describe type) := by
  have hfind : (cx.against c').catalog.find? type = c'.find? type := rfl
  unfold Context.describe
  rw [hfind, ← h]
  cases cx.catalog.find? type with
  | none => exact .unknown type _ _ _
  | some info =>
    obtain ⟨name, shape⟩ := info
    cases shape <;> exact .same _

theorem alike_checkNode {around : Surroundings} {a : Annotation}
    (h : cx.catalog.find? a.type = c'.find? a.type) :
    Alike (checkNode cx around a) (checkNode (cx.against c') around a) :=
  (alike_describe h).bind fun _ _ => .same _

mutual

/-- A tree depends on nothing in a catalog but the route types. -/
theorem alike_buildTree :
    ∀ (a : Annotation) (around : Surroundings), cx.catalog.AgreeOn c' a.types →
      Alike (buildTree cx around a) (buildTree (cx.against c') around a)
  | a, around, h => by
    rw [types_eq] at h
    obtain ⟨htype, hroutes⟩ := List.forall_mem_cons.1 h
    rw [buildTree_eq, buildTree_eq]
    refine (alike_checkNode htype).bind fun n _ => ?_
    rw [← bind_pure_comp, ← bind_pure_comp]
    exact (alike_buildAll a.routes _ hroutes).bind fun _ _ => .same _
termination_by a => sizeOf a
decreasing_by all_goals exact a.sizeOf_routes_lt

theorem alike_buildAll :
    ∀ (as : List Annotation) (around : Surroundings),
      cx.catalog.AgreeOn c' (typesAll as) →
      Alike (buildAll cx around as) (buildAll (cx.against c') around as)
  | [], around, _ => .same _
  | a :: rest, around, h => by
    rw [typesAll] at h
    rw [buildAll, buildAll]
    refine (alike_buildTree a around (h.mono (List.subset_append_left _ _))).bind fun t _ => ?_
    refine (alike_buildAll rest around (h.mono (List.subset_append_right _ _))).bind fun _ _ => ?_
    exact .same _
termination_by as => sizeOf as

end

theorem typesIn_of_describe {type : String} {ps : List Parameter} {fields constants : List Field}
    (h : cx.describe type = .ok (ps, fields, constants)) :
    cx.catalog.typesIn type = ps.map Parameter.type ++ fields.map Field.type := by
  unfold Context.describe at h
  unfold Catalog.typesIn
  split at h
  · next hfind =>
    cases h
    rw [hfind]
  · cases h
  · cases h

/-- A node carries the types of its route type. -/
theorem types_of_checkNode {around : Surroundings} {a : Annotation} {n : Node}
    (h : checkNode cx around a = .ok n) : n.type = a.type ∧ n.types = cx.catalog.typesIn a.type := by
  have hbound : ∀ {template? ps bs}, cx.bindings a.type template? ps = .ok bs →
      bs.map Binding.type = ps.map Parameter.type := by
    intro template? ps bs hbs
    rw [← map_parameter_of_bindAll hbs, List.map_map]
    rfl
  cases a with
  | go type path? name? routes =>
    obtain ⟨path, ps, fields, constants, template, bindings, -, hdescribe, -, hbindings, -, rfl⟩ :=
      checkNode_go_ok h
    refine ⟨rfl, ?_⟩
    rw [Node.types, hbound hbindings]
    exact (typesIn_of_describe hdescribe).symm
  | shell type routes =>
    obtain ⟨ps, fields, constants, template?, bindings, hdescribe, -, hbindings, rfl⟩ :=
      checkNode_shell_ok h
    refine ⟨rfl, ?_⟩
    rw [Node.types, hbound hbindings]
    exact (typesIn_of_describe hdescribe).symm

mutual

/-- Every node of a tree is of a route type of the annotation, and carries the types of that. -/
theorem types_of_mem_nodes :
    ∀ (a : Annotation) (around : Surroundings) (t : RouteTree), buildTree cx around a = .ok t →
      ∀ n ∈ t.nodes, n.type ∈ a.types ∧ n.types = cx.catalog.typesIn n.type
  | a, around, t, h => by
    obtain ⟨n, ts, hn, hts, rfl⟩ := buildTree_ok h
    obtain ⟨htype, htypes⟩ := types_of_checkNode hn
    rw [types_eq, RouteTree.nodes]
    refine List.forall_mem_cons.2 ⟨⟨?_, htype ▸ htypes⟩, fun m hm => ?_⟩
    · rw [htype]
      exact List.mem_cons_self
    · obtain ⟨hmem, hm⟩ := types_of_mem_nodesAll a.routes _ ts hts m hm
      exact ⟨List.mem_cons_of_mem _ hmem, hm⟩
termination_by a => sizeOf a
decreasing_by all_goals exact a.sizeOf_routes_lt

theorem types_of_mem_nodesAll :
    ∀ (as : List Annotation) (around : Surroundings) (ts : List RouteTree),
      buildAll cx around as = .ok ts → ∀ n ∈ RouteTree.nodesAll ts,
        n.type ∈ typesAll as ∧ n.types = cx.catalog.typesIn n.type
  | [], around, ts, h => by
    cases h
    simp [RouteTree.nodesAll]
  | a :: rest, around, ts, h => by
    obtain ⟨t, ts', ht, hts, rfl⟩ := buildAll_cons_ok h
    rw [typesAll, RouteTree.nodesAll]
    intro n hn
    rcases List.mem_append.1 hn with hn | hn
    · obtain ⟨hmem, hn⟩ := types_of_mem_nodes a around t ht n hn
      exact ⟨List.mem_append_left _ hmem, hn⟩
    · obtain ⟨hmem, hn⟩ := types_of_mem_nodesAll rest around ts' hts n hn
      exact ⟨List.mem_append_right _ hmem, hn⟩
termination_by as => sizeOf as

end

end Building

/-! ## Output -/

namespace Emission

variable {c c' : Catalog} {settings : Settings} {d : Declaration}

theorem alike_ofDeclaration (h : c.AgreeOn c' d.annotation.types) :
    Alike (RouteTree.ofDeclaration c settings d) (RouteTree.ofDeclaration c' settings d) := by
  unfold RouteTree.ofDeclaration
  split
  · exact @alike_buildTree ⟨c, settings, d.type⟩ c' d.annotation {} h
  · exact .same _

theorem agreeOn_of_mem_nodes (h : c.AgreeOn c' (footprint c d.annotation)) {t : RouteTree}
    (ht : RouteTree.ofDeclaration c settings d = .ok t) :
    ∀ n ∈ t.nodes, ∀ u ∈ n.types, c.AgreeOn c' u.lookups := by
  obtain ⟨-, hbuild⟩ := ofDeclaration_ok ht
  intro n hn u hu
  obtain ⟨hmem, htypes⟩ := types_of_mem_nodes d.annotation {} t hbuild n hn
  rw [htypes] at hu
  have hcarried : u ∈ d.annotation.types.flatMap c.typesIn := List.mem_flatMap.2 ⟨_, hmem, hu⟩
  refine h.mono fun name hname => List.mem_append_right _ ?_
  exact List.mem_flatMap.2 ⟨u, hcarried, hname⟩

theorem alike_generate (h : c.AgreeOn c' (footprint c d.annotation)) :
    Alike (generate c settings d) (generate c' settings d) := by
  unfold generate target?
  cases settings.runtime? with
  | none => exact .same _
  | some ts =>
    -- only the tree may fail for an unknown type: what is emitted for its nodes is equal
    refine (alike_ofDeclaration (h.mono (List.subset_append_left _ _))).bind fun t ht => ?_
    have hblocks := @treeBlocks_congr c' ⟨c, settings, typeTokens ts⟩ d.type t
      (agreeOn_of_mem_nodes h ht)
    refine (Alike.of_eq hblocks).bind fun blocks _ => ?_
    refine (Alike.of_eq (helperBlocks_against c' blocks).symm).bind fun helpers _ => ?_
    exact .same _

/-- Output, and any fault but an unknown route type, is the same under all catalogs that agree on
the footprint. -/
theorem generate_congr (h : c.AgreeOn c' (footprint c d.annotation)) :
    (∀ o, generate c settings d = .ok o ↔ generate c' settings d = .ok o) ∧
      ∀ f : Failure, f.fault.category ≠ .unknownRouteType →
        (generate c settings d = .error f ↔ generate c' settings d = .error f) :=
  ⟨fun _ => (alike_generate h).eq_ok_iff, fun _ hf => (alike_generate h).eq_error_iff hf⟩

/-- The enumeration that a type names by its last name is found, and no other of that last name. -/
theorem generate_stranger :
    let types : List TypeInfo :=
      [.routeData "Sized" [.byName "size" (.named "app::Size")], .enumeration "Size" ["Small"]]
    let more : List TypeInfo := [.enumeration "other::Size" ["Large"], .routeData "Stranger" []]
    let d : Declaration := ⟨"Sized", .ofShell "Sized"⟩
    (Catalog.ofList types).AgreeOn (.ofList (types ++ more))
        (footprint (.ofList types) d.annotation) ∧
      ∃ o, generate (.ofList types) {} d = .ok o ∧
        generate (.ofList (types ++ more)) {} d = .ok o := by
  intro types more d
  have hnames : footprint (.ofList types) d.annotation ⊆ ["Sized", "app::Size", "Size"] := by
    decide +kernel
  have hsame : (Catalog.ofList types).AgreeOn (.ofList (types ++ more))
      ["Sized", "app::Size", "Size"] := by
    simp only [Catalog.AgreeOn, List.forall_mem_cons]
    refine ⟨?_, ?_, ?_, by simp⟩ <;> cbv
  have hagree := hsame.mono hnames
  obtain ⟨o, ho, -⟩ := exists_output_of (.ofList types) d (fun _ => true) (by decide +kernel)
  exact ⟨hagree, o, ho, ((generate_congr hagree).1 o).1 ho⟩

end Emission

end TypedRoutes
