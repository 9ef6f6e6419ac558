import TypedRoutes.Proofs.HelperScan
import TypedRoutes.Proofs.References

/-!
# The outline of an output

* `outline` : the kinds and keys of blocks;
* `references` : the enumerations that a node references, in the order of their first use;
* `nodesOutline` : the outline of nodes, each followed by the enumerations that no node in front of it
  references;
* `outline_tableBlocks`, `outline_nodeBlocks` : what emitting tables and nodes adds to the outline;
* `outline_generate` : the outline of every output, and no output where two enumerations share a table.
-/

namespace TypedRoutes.Emission

/-- The kinds and keys of blocks. -/
def outline (bs : List Block) : List (BlockKind × String) :=
  bs.map fun b => (b.kind, b.key)

/-! ## References of a node -/

/-- The enumerations that a node references, each once. The parameters in its path come first, then
those in the query, then the fields behind the names of its template. A list references the
enumeration of its elements, and the payload references none. -/
def references (catalog : Catalog) (n : Node) : List String :=
  let inPath := (n.bindings.filter (·.carrier = .path)).map Binding.type
  let inQuery := (n.bindings.filter (·.carrier = .query)).map Binding.type
  let names := (n.template?.map PathTemplate.names).getD []
  let behind := names.filterMap fun name => (n.field? name).map Field.type
  ((inPath ++ inQuery ++ behind).filterMap (enumIn? catalog)).eraseDups

theorem dropRepeated_eq_eraseDups (seen as : List String) :
    dropRepeated seen as = (as.filter (· ∉ seen)).eraseDups := by
  induction as generalizing seen with
  | nil => rfl
  | cons a as ih =>
    rw [dropRepeated]
    split
    · next hseen => rw [List.filter_cons_of_neg (by simpa using hseen), ih]
    · next hnew =>
      have hkeep : as.filter (· ∉ a :: seen) = (as.filter (· ∉ seen)).filter fun b => !b == a := by
        rw [List.filter_filter]
        exact List.filter_congr fun b _ => by by_cases b = a <;> simp [*]
      rw [List.filter_cons_of_pos (by simpa using hnew), List.eraseDups_cons, ih, hkeep]

theorem enumsOf_eq_references (catalog : Catalog) (n : Node) :
    enumsOf catalog n = references catalog n := by
  rw [enumsOf, dropRepeated_eq_eraseDups, List.filter_eq_self.2 (by simp)]
  rfl

theorem dropRepeated_nodup (seen as : List String) : (dropRepeated seen as).Nodup := by
  induction as generalizing seen with
  | nil => exact List.nodup_nil
  | cons a as ih =>
    rw [dropRepeated]
    split
    · exact ih seen
    · refine List.nodup_cons.2 ⟨fun hmem => ?_, ih (a :: seen)⟩
      exact (mem_dropRepeated.1 hmem).2 List.mem_cons_self

/-! ## Tables -/

section Tables

variable {tg : Target} {place : Place} {tables : Tables}

/-- An enumeration whose table is not found under its name has none. -/
theorem Tables.Sound.notMem_of_lookup (hs : tables.Sound) {name e : String}
    (hname : tableName place e = .ok name) (h : tables.lookup name = none) :
    e ∉ tables.map Prod.snd := by
  intro hmem
  obtain ⟨⟨name', e'⟩, hp, rfl⟩ := List.mem_map.1 hmem
  have hnamed := hs.tableName_eq hp
  rw [tableName_elsewhere _ hname] at hnamed
  obtain rfl := Except.ok.inj hnamed
  have hne := List.lookup_eq_none_iff.1 h _ hp
  simp at hne

/-- Emitting tables adds a block for each enumeration that has none yet. -/
theorem outline_tableBlocks {es : List String} {tables' : Tables} {bs : List Block}
    (h : tableBlocks tg place tables es = .ok (bs, tables')) (hs : tables.Sound) (hes : es.Nodup) :
    outline bs = (es.filter (· ∉ tables.map Prod.snd)).map (BlockKind.enumCodec, ·) := by
  induction es generalizing tables bs with
  | nil =>
    cases h
    rfl
  | cons e es ih =>
    obtain ⟨hnew, hes⟩ := List.nodup_cons.1 hes
    obtain ⟨name, hname, hcases⟩ := tableBlocks_cases h
    rcases hcases with ⟨hlookup, hrest⟩ | ⟨hlookup, b, bs', rfl, hb, hrest⟩
    · have hknown : e ∈ tables.map Prod.snd := mem_of_lookup_eq_some hlookup
      rw [ih hrest hs hes, List.filter_cons_of_neg (by simpa using hknown)]
    · obtain ⟨hkind, hkey, -⟩ := tableBlock_ok hb
      have hfresh := hs.notMem_of_lookup hname hlookup
      have hrestKept : es.filter (· ∉ ((name, e) :: tables).map Prod.snd) =
          es.filter (· ∉ tables.map Prod.snd) := by
        refine List.filter_congr fun b hb => ?_
        have hne : b ≠ e := fun heq => hnew (heq ▸ hb)
        simp [hne]
      rw [outline, List.map_cons, hkind, hkey, List.filter_cons_of_pos (by simpa using hfresh),
        List.map_cons, ← hrestKept, ← ih hrest (hs.cons hname hlookup) hes]
      rfl

end Tables

/-! ## Nodes -/

/-- The outline of nodes behind others: the functions of each, and the tables of the enumerations that
it is the first to reference. -/
def nodesOutline (catalog : Catalog) (earlier : List Node) :
    List Node → List (BlockKind × String)
  | [] => []
  | n :: rest =>
    let first := (references catalog n).filter fun e => ∀ m ∈ earlier, e ∉ references catalog m
    (.routeData, n.type) :: first.map (BlockKind.enumCodec, ·) ++
      nodesOutline catalog (earlier ++ [n]) rest

/-- Emitting nodes adds their outline, if the tables are those that the nodes in front reference. -/
theorem outline_nodeBlocks {tg : Target} {declaration : String} {earlier ns : List Node}
    {tables : Tables} {bs : List Block} (h : nodeBlocks tg declaration tables ns = .ok bs)
    (hs : tables.Sound)
    (htables : ∀ e, e ∈ tables.map Prod.snd ↔ ∃ m ∈ earlier, e ∈ references tg.catalog m) :
    outline bs = nodesOutline tg.catalog earlier ns := by
  induction ns generalizing earlier tables bs with
  | nil =>
    cases h
    rfl
  | cons n ns ih =>
    obtain ⟨b, own, tables', rest, rfl, hnode, hown, hrest⟩ := nodeBlocks_cases h
    obtain ⟨hkind, hkey, -⟩ := nodeBlock_ok hnode
    obtain ⟨hs', hkeys, hblocks, hcovered⟩ := tableBlocks_ok hown hs
    have hnodup : (enumsOf tg.catalog n).Nodup := dropRepeated_nodup [] _
    have htables' : ∀ e, e ∈ tables'.map Prod.snd ↔
        ∃ m ∈ earlier ++ [n], e ∈ references tg.catalog m := by
      intro e
      have hlast : (∃ m ∈ earlier ++ [n], e ∈ references tg.catalog m) ↔
          (∃ m ∈ earlier, e ∈ references tg.catalog m) ∨ e ∈ references tg.catalog n := by
        simp [or_and_right, exists_or]
      rw [hlast, ← htables, ← enumsOf_eq_references]
      constructor
      · intro he
        rw [hkeys, List.mem_append, List.mem_reverse, List.mem_map] at he
        rcases he with ⟨b', hb', rfl⟩ | he
        · exact Or.inr (hblocks b' hb').2.1
        · exact Or.inl he
      · rintro (he | he)
        · rw [hkeys]
          exact List.mem_append_right _ he
        · exact hcovered e he
    have hfirst : (enumsOf tg.catalog n).filter (· ∉ tables.map Prod.snd) =
        (references tg.catalog n).filter fun e => ∀ m ∈ earlier, e ∉ references tg.catalog m := by
      rw [enumsOf_eq_references]
      refine List.filter_congr fun e _ => ?_
      rw [decide_eq_decide, htables]
      push Not
      rfl
    rw [nodesOutline, ← hfirst, ← ih hrest hs' htables', ← outline_tableBlocks hown hs hnodup]
    simp [outline, hkind, hkey]

/-! ## Outputs -/

namespace Parts

variable {catalog : Catalog} {settings : Settings} {d : Declaration} {t : RouteTree} {o : Output}
  (p : Parts catalog settings d t o)

include p

theorem outline_blocks :
    ∃ helpers : List Helper, helpers.Nodup ∧
      outline o.blocks = (.routeTree, d.type) :: nodesOutline catalog [] t.nodes ++
        helpers.map fun h => (.helper, h.name) := by
  refine ⟨referenced (joinBlocks ((p.getter :: p.nodes).filter (·.kind ≠ .helper))),
    referenced_nodup _, ?_⟩
  have hgetter : (p.getter.kind, p.getter.key) = (.routeTree, d.type) := by
    rw [p.getter_kind, p.getter_key]
  have hnodes : outline p.nodes = nodesOutline catalog [] t.nodes := by
    have h : outline p.nodes = nodesOutline p.target.catalog [] t.nodes :=
      outline_nodeBlocks p.nodes_eq Tables.sound_nil (by simp)
    rwa [p.catalog_eq] at h
  have hhelpers : outline p.helpers = (p.helpers.map Block.key).map (.helper, ·) := by
    rw [List.map_map]
    exact List.map_congr_left fun b hb => by rw [p.helpers_kind b hb]; rfl
  have hsplit : outline o.blocks =
      (p.getter.kind, p.getter.key) :: outline p.nodes ++ outline p.helpers := by
    rw [p.blocks_eq]
    simp [outline]
  rw [hsplit, hgetter, hnodes, hhelpers, p.helpers_key, List.map_map]
  rfl

/-- Two enumerations of an output whose tables have one name are one. -/
theorem eq_of_tableName_eq {n n' : Node} (hn : n ∈ t.nodes) (hn' : n' ∈ t.nodes) {e e' : String}
    (he : e ∈ references catalog n) (he' : e' ∈ references catalog n') {name : String}
    (hname : tableName default e = .ok name) (hname' : tableName default e' = .ok name) : e = e' := by
  have hcovered : ∀ m ∈ t.nodes, ∀ a ∈ references catalog m, tableName default a = .ok name →
      (name, a) ∈ p.tables := by
    intro m hm a ha hnamed
    rw [← enumsOf_eq_references, ← p.catalog_eq] at ha
    obtain ⟨⟨name', a'⟩, hmem, rfl⟩ := List.mem_map.1 (p.nodes_ok.covered m hm a ha)
    obtain rfl := Except.ok.inj (hnamed.symm.trans (p.nodes_ok.sound.tableName_eq hmem))
    exact hmem
  have heq := List.inj_on_of_nodup_map p.nodes_ok.sound.distinct
    (hcovered n hn e he hname) (hcovered n' hn' e' he' hname') rfl
  exact congrArg Prod.snd heq

end Parts

/-- The outline of every output is that of its tree, with helpers behind it. There is no output if two
enumerations that the tree references share a table. -/
theorem outline_generate (catalog : Catalog) (settings : Settings) (d : Declaration) :
    (∀ o, generate catalog settings d = .ok o →
      ∃ t, RouteTree.ofDeclaration catalog settings d = .ok t ∧
        ∃ helpers : List Helper, helpers.Nodup ∧
          outline o.blocks = (.routeTree, d.type) :: nodesOutline catalog [] t.nodes ++
            helpers.map fun h => (.helper, h.name)) ∧
    ∀ t, RouteTree.ofDeclaration catalog settings d = .ok t →
      ∀ n ∈ t.nodes, ∀ n' ∈ t.nodes, ∀ e ∈ references catalog n, ∀ e' ∈ references catalog n',
        e ≠ e' → ∀ name, tableName default e = .ok name → tableName default e' = .ok name →
          ∃ f, generate catalog settings d = .error f := by
  constructor
  · intro o ho
    obtain ⟨t, ht, ⟨p⟩⟩ := generate_ok ho
    exact ⟨t, ht, p.outline_blocks⟩
  · intro t ht n hn n' hn' e he e' he' hne name hname hname'
    cases h : generate catalog settings d with
    | error f => exact ⟨f, rfl⟩
    | ok o =>
      obtain ⟨t', ht', ⟨p⟩⟩ := generate_ok h
      obtain rfl := Except.ok.inj (ht.symm.trans ht')
      exact absurd (p.eq_of_tableName_eq hn hn' he he' hname hname') hne

/-- A shell and a leaf that share an enumeration; the leaf references another one through a list. Where
the second is named like the first, there is no output. -/
theorem outline_shared :
    let catalog (size : String) := Catalog.ofList
      [.routeData "Frame" [.byName "color" (.named "Color")],
        .routeData "Item" [.byName "sizes" (.list (.named size)), .byName "color" (.named "Color")],
        .enumeration "Color" ["Red"], .enumeration size ["Small"]]
    let d : Declaration := ⟨"Frame", .shell "Frame" [.ofPath "Item" "/items/:color"]⟩
    (∃ o, generate (catalog "Size") {} d = .ok o ∧
      ∃ helpers : List Helper, outline o.blocks =
        [(.routeTree, "Frame"), (.routeData, "Frame"), (.enumCodec, "Color"), (.routeData, "Item"),
          (.enumCodec, "Size")] ++ helpers.map fun h => (.helper, h.name)) ∧
      ∃ f, generate (catalog "b::Color") {} d = .error f := by
  intro catalog d
  constructor
  · obtain ⟨o, ho, -⟩ := exists_output_of (catalog "Size") d (fun _ => true) (by decide +kernel)
    obtain ⟨t, ht, helpers, -, hout⟩ := (outline_generate (catalog "Size") {} d).1 o ho
    have hnodes : (RouteTree.ofDeclaration (catalog "Size") {} d).toOption.map
        (fun t => nodesOutline (catalog "Size") [] t.nodes) =
          some [(.routeData, "Frame"), (.enumCodec, "Color"), (.routeData, "Item"),
            (.enumCodec, "Size")] := by
      decide +kernel
    rw [ht] at hnodes
    have hnodes := Option.some.inj hnodes
    dsimp only at hnodes
    refine ⟨o, ho, helpers, ?_⟩
    rw [hout, hnodes]
  · have htree : (RouteTree.ofDeclaration (catalog "b::Color") {} d).toOption.any (fun t =>
        t.nodes.any (fun n => "Color" ∈ references (catalog "b::Color") n) &&
          t.nodes.any (fun n => "b::Color" ∈ references (catalog "b::Color") n)) := by
      decide +kernel
    obtain ⟨t, ht, hboth⟩ := (Option.any_eq_true _ _).1 htree
    simp only [Bool.and_eq_true, List.any_eq_true, decide_eq_true_eq] at hboth
    obtain ⟨⟨n, hn, he⟩, n', hn', he'⟩ := hboth
    exact (outline_generate (catalog "b::Color") {} d).2 t (toOption_eq_some.1 ht) n hn n' hn'
      "Color" he "b::Color" he' (by decide) "COLOR_ENUM_MAP"
      (toOption_eq_some.1 (by decide)) (toOption_eq_some.1 (by decide))

end TypedRoutes.Emission
