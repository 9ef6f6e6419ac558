import Mathlib.Data.List.Nodup
import TypedRoutes.Emission.Library
import TypedRoutes.Proofs.Outcome

/-!
# The blocks of a declaration

* `tableName_elsewhere`, `block_elsewhere`, … : the place of code is named in faults and nowhere else;
* `Block.item?` : the name of the item that a block declares;
* `tableBlock`, `IsTable` : the block of an enumeration's table, the same wherever it is used;
* `nodeBlock` : the block of a route's functions;
* `tableBlocks_cases`, `nodeBlocks_cases`, `treeBlocks_cases`, `generate_cases` : what one step of
  emitting delivers;
* `Tables.Sound` : tables have distinct names; `tableBlocks_ok`, `nodeBlocks_ok` : every enumeration
  that is used has a table, and emitting keeps tables sound;
* `Parts`, `generate_ok` : the output of a declaration in parts;
* `generate_default` : under the default settings an output is there as soon as its tree has blocks.
-/

namespace TypedRoutes.Emission

open Syntax Code

/-! ## Code in other places -/

section Elsewhere

variable {place : Place} (place' : Place)

theorem typePath_elsewhere {name : String} {c : Code} (h : typePath place name = .ok c) :
    typePath place' name = .ok c := by
  unfold typePath at h ⊢
  split at h
  · exact h
  · cases h

theorem identifier_elsewhere {name n : String} (h : identifier place name = .ok n) :
    identifier place' name = .ok n := by
  unfold identifier at h ⊢
  split at h
  · exact h
  · cases h

mutual

theorem typeCode_elsewhere : ∀ {t : TypeRef} {c : Code}, typeCode place t = .ok c →
    typeCode place' t = .ok c
  | ⟨name, args, nullable⟩, c, h => by
    rw [typeCode] at h ⊢
    obtain ⟨base, hbase, h⟩ := bind_eq_ok.1 h
    obtain ⟨args', hargs, h⟩ := bind_eq_ok.1 h
    refine bind_eq_ok.2 ⟨base, typePath_elsewhere place' hbase, ?_⟩
    exact bind_eq_ok.2 ⟨args', typeCodes_elsewhere hargs, h⟩

theorem typeCodes_elsewhere : ∀ {ts : List TypeRef} {cs : List Code}, typeCodes place ts = .ok cs →
    typeCodes place' ts = .ok cs
  | [], _, h => h
  | t :: rest, cs, h => by
    rw [typeCodes] at h ⊢
    obtain ⟨c, hc, h⟩ := bind_eq_ok.1 h
    obtain ⟨cs', hcs, h⟩ := bind_eq_ok.1 h
    refine bind_eq_ok.2 ⟨c, typeCode_elsewhere hc, ?_⟩
    exact bind_eq_ok.2 ⟨cs', typeCodes_elsewhere hcs, h⟩

end

theorem tableName_elsewhere {e name : String} (h : tableName place e = .ok name) :
    tableName place' e = .ok name :=
  identifier_elsewhere place' h

theorem entriesFrom_elsewhere {e : String} {ms : List String} {seen entries : List (String × String)}
    (h : EnumTable.entriesFrom place e seen ms = .ok entries) :
    EnumTable.entriesFrom place' e seen ms = .ok entries := by
  induction ms generalizing seen entries with
  | nil => exact h
  | cons m ms ih =>
    rw [EnumTable.entriesFrom] at h ⊢
    obtain ⟨variant, hvariant, h⟩ := bind_eq_ok.1 h
    refine bind_eq_ok.2 ⟨variant, identifier_elsewhere place' hvariant, ?_⟩
    dsimp only at h ⊢
    split at h
    · cases h
    · next hseen =>
      obtain ⟨rest, hrest, h⟩ := bind_eq_ok.1 h
      exact bind_eq_ok.2 ⟨rest, ih hrest, h⟩

theorem ofMembers_elsewhere {e : String} {ms : List String} {table : EnumTable}
    (h : EnumTable.ofMembers place e ms = .ok table) :
    EnumTable.ofMembers place' e ms = .ok table := by
  unfold EnumTable.ofMembers at h ⊢
  obtain ⟨type, htype, h⟩ := bind_eq_ok.1 h
  obtain ⟨name, hname, h⟩ := bind_eq_ok.1 h
  obtain ⟨entries, hentries, h⟩ := bind_eq_ok.1 h
  refine bind_eq_ok.2 ⟨type, typeCode_elsewhere place' htype, ?_⟩
  refine bind_eq_ok.2 ⟨name, tableName_elsewhere place' hname, ?_⟩
  exact bind_eq_ok.2 ⟨entries, entriesFrom_elsewhere place' hentries, h⟩

theorem layOutCode_ok {code : Code} {text : String} :
    layOutCode place code = .ok text ↔ layOut code = .ok text := by
  unfold layOutCode
  split <;> simp_all

theorem block_eq_ok {kind : BlockKind} {key : String} {code : Code} {b : Block} :
    block kind key place code = .ok b ↔
      b.kind = kind ∧ b.key = key ∧ layOut code = .ok b.text := by
  unfold block
  constructor
  · intro h
    obtain ⟨text, htext, h⟩ := bind_eq_ok.1 h
    obtain rfl := pure_eq_ok.1 h
    exact ⟨rfl, rfl, layOutCode_ok.1 htext⟩
  · rintro ⟨rfl, rfl, htext⟩
    exact bind_eq_ok.2 ⟨b.text, layOutCode_ok.2 htext, rfl⟩

theorem block_elsewhere {kind : BlockKind} {key : String} {code : Code} {b : Block}
    (h : block kind key place code = .ok b) : block kind key place' code = .ok b :=
  block_eq_ok.2 (block_eq_ok.1 h)

end Elsewhere

/-! ## Names of items -/

/-- The name of the item that a block declares: the getter of a tree, the type of a route, the
table of an enumeration, or a helper. -/
def Block.item? (b : Block) : Option String :=
  match b.kind with
  | .routeTree => (identifier default (Text.snake (plainSegment b.key))).toOption
  | .routeData => some b.key
  | .enumCodec => (tableName default b.key).toOption
  | .helper => some b.key

theorem Block.item?_eq_some {b : Block} (hkind : b.kind = .enumCodec) {name : String} :
    b.item? = some name ↔ tableName default b.key = .ok name := by
  rw [Block.item?, hkind]
  exact toOption_eq_some

/-! ## Tables -/

/-- The block of an enumeration's table. -/
def tableBlock (catalog : Catalog) (place : Place) (e : String) : Except Failure Block := do
  let table ← EnumTable.ofMembers place e ((catalog.members? e).getD [])
  block .enumCodec e place table.code

/-- A block that is the table of the enumeration it names. -/
def IsTable (catalog : Catalog) (b : Block) : Prop :=
  tableBlock catalog default b.key = .ok b

theorem tableBlock_ok {catalog : Catalog} {place : Place} {e : String} {b : Block}
    (h : tableBlock catalog place e = .ok b) :
    b.kind = .enumCodec ∧ b.key = e ∧ IsTable catalog b := by
  obtain ⟨table, htable, h⟩ := bind_eq_ok.1 h
  obtain ⟨hkind, hkey, -⟩ := block_eq_ok.1 h
  refine ⟨hkind, hkey, ?_⟩
  rw [IsTable, hkey]
  exact bind_eq_ok.2 ⟨table, ofMembers_elsewhere _ htable, block_elsewhere _ h⟩

/-- The table of an enumeration declares the constant that the block is named for. -/
theorem IsTable.item? {catalog : Catalog} {b : Block} (h : IsTable catalog b) :
    ∃ table : EnumTable, layOut table.code = .ok b.text ∧ b.item? = some table.name := by
  obtain ⟨table, htable, h⟩ := bind_eq_ok.1 h
  obtain ⟨hkind, -, htext⟩ := block_eq_ok.1 h
  refine ⟨table, htext, (Block.item?_eq_some hkind).2 ?_⟩
  obtain ⟨type, -, htable⟩ := bind_eq_ok.1 htable
  obtain ⟨name, hname, htable⟩ := bind_eq_ok.1 htable
  obtain ⟨entries, -, htable⟩ := bind_eq_ok.1 htable
  obtain rfl := pure_eq_ok.1 htable
  exact hname

/-- There is one table for each enumeration. -/
theorem IsTable.eq_of_key {catalog : Catalog} {b b' : Block} (h : IsTable catalog b)
    (h' : IsTable catalog b') (hkey : b.key = b'.key) : b = b' := by
  unfold IsTable at h h'
  rw [hkey, h'] at h
  exact (Except.ok.inj h).symm

/-- Tables under the names that they are declared with, no two under one name. -/
structure Tables.Sound (tables : Tables) : Prop where
  named : ∀ p ∈ tables, tableName default p.2 = .ok p.1
  distinct : (tables.map Prod.fst).Nodup

theorem Tables.Sound.tableName_eq {tables : Tables} (hs : tables.Sound) {name e : String}
    (h : (name, e) ∈ tables) : tableName default e = .ok name :=
  hs.named (name, e) h

/-- An enumeration has one table. -/
theorem Tables.Sound.snd_nodup {tables : Tables} (hs : tables.Sound) :
    (tables.map Prod.snd).Nodup := by
  refine List.Nodup.map_on (fun q hq q' hq' heq => ?_) (hs.distinct.of_map _)
  have hname := hs.named q hq
  rw [heq, hs.named q' hq'] at hname
  exact List.inj_on_of_nodup_map hs.distinct hq hq' (Except.ok.inj hname).symm

theorem Tables.sound_nil : Tables.Sound [] :=
  ⟨fun _ hp => absurd hp List.not_mem_nil, List.nodup_nil⟩

theorem Tables.Sound.cons {tables : Tables} (hs : tables.Sound) {place : Place} {name e : String}
    (hname : tableName place e = .ok name) (hnew : tables.lookup name = none) :
    Tables.Sound ((name, e) :: tables) where
  named := List.forall_mem_cons.2 ⟨tableName_elsewhere _ hname, hs.named⟩
  distinct := by
    refine List.nodup_cons.2 ⟨fun hmem => ?_, hs.distinct⟩
    obtain ⟨p, hp, hfst⟩ := List.mem_map.1 hmem
    have hne := List.lookup_eq_none_iff.1 hnew p hp
    simp [hfst] at hne

section Tables

variable {tg : Target} {place : Place}

theorem mem_of_lookup_eq_some {tables : Tables} {name e : String}
    (h : tables.lookup name = some e) : e ∈ tables.map Prod.snd := by
  obtain ⟨before, behind, rfl, -⟩ := List.lookup_eq_some_iff.1 h
  simp

/-- The table of the first enumeration is there already, or its block is emitted in front. -/
theorem tableBlocks_cases {e : String} {es : List String} {tables tables' : Tables} {bs : List Block}
    (h : tableBlocks tg place tables (e :: es) = .ok (bs, tables')) :
    ∃ name, tableName place e = .ok name ∧
      (tables.lookup name = some e ∧ tableBlocks tg place tables es = .ok (bs, tables') ∨
        tables.lookup name = none ∧ ∃ b bs', bs = b :: bs' ∧
          tableBlock tg.catalog place e = .ok b ∧
          tableBlocks tg place ((name, e) :: tables) es = .ok (bs', tables')) := by
  rw [tableBlocks] at h
  obtain ⟨name, hname, h⟩ := bind_eq_ok.1 h
  refine ⟨name, hname, ?_⟩
  cases hlookup : tables.lookup name with
  | some owner =>
    rw [hlookup] at h
    dsimp only at h
    split at h
    · next howner => exact Or.inl ⟨by rw [howner], h⟩
    · cases h
  | none =>
    rw [hlookup] at h
    obtain ⟨table, htable, h⟩ := bind_eq_ok.1 h
    obtain ⟨b, hb, h⟩ := bind_eq_ok.1 h
    obtain ⟨⟨bs', tables''⟩, hrest, h⟩ := bind_eq_ok.1 h
    cases pure_eq_ok.1 h
    exact Or.inr ⟨rfl, b, bs', rfl, bind_eq_ok.2 ⟨table, htable, hb⟩, hrest⟩

/-- Emitting tables adds just those that are not there yet. -/
theorem tableBlocks_ok {es : List String} {tables tables' : Tables} {bs : List Block}
    (h : tableBlocks tg place tables es = .ok (bs, tables')) (hs : tables.Sound) :
    tables'.Sound ∧
      tables'.map Prod.snd = (bs.map Block.key).reverse ++ tables.map Prod.snd ∧
      (∀ b ∈ bs, b.kind = .enumCodec ∧ b.key ∈ es ∧ IsTable tg.catalog b) ∧
      ∀ e ∈ es, e ∈ tables'.map Prod.snd := by
  induction es generalizing tables tables' bs with
  | nil =>
    cases h
    exact ⟨hs, rfl, by simp, by simp⟩
  | cons e es ih =>
    obtain ⟨name, hname, hcases⟩ := tableBlocks_cases h
    rcases hcases with ⟨hlookup, hrest⟩ | ⟨hlookup, b, bs', rfl, hb, hrest⟩
    · obtain ⟨hs', hkeys, hbs, hes⟩ := ih hrest hs
      refine ⟨hs', hkeys, fun b hb => ?_, List.forall_mem_cons.2 ⟨?_, hes⟩⟩
      · obtain ⟨hkind, hkey, htable⟩ := hbs b hb
        exact ⟨hkind, List.mem_cons_of_mem e hkey, htable⟩
      · rw [hkeys]
        exact List.mem_append_right _ (mem_of_lookup_eq_some hlookup)
    · obtain ⟨hkind, hkey, htable⟩ := tableBlock_ok hb
      obtain ⟨hs', hkeys, hbs, hes⟩ := ih hrest (hs.cons hname hlookup)
      refine ⟨hs', ?_, List.forall_mem_cons.2 ⟨⟨hkind, ?_, htable⟩, fun b' hb' => ?_⟩,
        List.forall_mem_cons.2 ⟨?_, hes⟩⟩
      · rw [hkeys, List.map_cons, List.map_cons, List.reverse_cons, hkey, List.append_assoc]
        rfl
      · rw [hkey]
        exact List.mem_cons_self
      · obtain ⟨hkind', hkey', htable'⟩ := hbs b' hb'
        exact ⟨hkind', List.mem_cons_of_mem e hkey', htable'⟩
      · rw [hkeys]
        exact List.mem_append_right _ List.mem_cons_self

end Tables

/-! ## Routes -/

/-- The block of a route's functions. -/
def nodeBlock (tg : Target) (declaration : String) (n : Node) : Except Failure Block := do
  block .routeData n.type (n.place declaration) (← routeCode tg (n.place declaration) n)

theorem nodeBlock_ok {tg : Target} {declaration : String} {n : Node} {b : Block}
    (h : nodeBlock tg declaration n = .ok b) :
    b.kind = .routeData ∧ b.key = n.type ∧
      ∃ code, routeCode tg (n.place declaration) n = .ok code ∧ layOut code = .ok b.text := by
  obtain ⟨code, hcode, h⟩ := bind_eq_ok.1 h
  obtain ⟨hkind, hkey, htext⟩ := block_eq_ok.1 h
  exact ⟨hkind, hkey, code, hcode, htext⟩

/-- The blocks of a kind. -/
def ofKind (kind : BlockKind) (bs : List Block) : List Block :=
  bs.filter (·.kind = kind)

theorem mem_ofKind {kind : BlockKind} {bs : List Block} {b : Block} :
    b ∈ ofKind kind bs ↔ b ∈ bs ∧ b.kind = kind := by
  simp [ofKind]

section Nodes

variable {tg : Target} {declaration : String}

/-- The block of the first node stands in front, and behind it those of its tables. -/
theorem nodeBlocks_cases {n : Node} {ns : List Node} {tables : Tables} {bs : List Block}
    (h : nodeBlocks tg declaration tables (n :: ns) = .ok bs) :
    ∃ b own tables' rest, bs = b :: own ++ rest ∧ nodeBlock tg declaration n = .ok b ∧
      tableBlocks tg (n.place declaration) tables (enumsOf tg.catalog n) = .ok (own, tables') ∧
      nodeBlocks tg declaration tables' ns = .ok rest := by
  rw [nodeBlocks] at h
  obtain ⟨code, hcode, h⟩ := bind_eq_ok.1 h
  obtain ⟨b, hb, h⟩ := bind_eq_ok.1 h
  obtain ⟨⟨own, tables'⟩, hown, h⟩ := bind_eq_ok.1 h
  obtain ⟨rest, hrest, h⟩ := bind_eq_ok.1 h
  obtain rfl := pure_eq_ok.1 h
  exact ⟨b, own, tables', rest, rfl, bind_eq_ok.2 ⟨code, hcode, hb⟩, hown, hrest⟩

/-- Where the blocks of some nodes come from, and what they leave in the tables. -/
structure NodeBlocks (tg : Target) (declaration : String) (ns : List Node) (tables : Tables)
    (bs : List Block) (tables' : Tables) : Prop where
  sound : tables'.Sound
  keys : tables'.map Prod.snd =
    ((ofKind .enumCodec bs).map Block.key).reverse ++ tables.map Prod.snd
  origin : ∀ b ∈ bs, (∃ n ∈ ns, nodeBlock tg declaration n = .ok b) ∨
    b.kind = .enumCodec ∧ IsTable tg.catalog b ∧ ∃ n ∈ ns, b.key ∈ enumsOf tg.catalog n
  emitted : ∀ n ∈ ns, ∃ b ∈ bs, nodeBlock tg declaration n = .ok b
  covered : ∀ n ∈ ns, ∀ e ∈ enumsOf tg.catalog n, e ∈ tables'.map Prod.snd

theorem nodeBlocks_ok {ns : List Node} {tables : Tables} {bs : List Block}
    (h : nodeBlocks tg declaration tables ns = .ok bs) (hs : tables.Sound) :
    ∃ tables', NodeBlocks tg declaration ns tables bs tables' := by
  induction ns generalizing tables bs with
  | nil =>
    cases h
    exact ⟨tables, hs, rfl, by simp, by simp, by simp⟩
  | cons n ns ih =>
    obtain ⟨b, own, tables', rest, rfl, hnode, hown, hrest⟩ := nodeBlocks_cases h
    obtain ⟨hs', hkeys, hown, hcovered⟩ := tableBlocks_ok hown hs
    obtain ⟨tables'', hnodes⟩ := ih hrest hs'
    have htables : ofKind .enumCodec (b :: own ++ rest) = own ++ ofKind .enumCodec rest := by
      have hkind : b.kind ≠ .enumCodec := by
        rw [(nodeBlock_ok hnode).1]
        decide
      have hall : own.filter (·.kind = .enumCodec) = own :=
        List.filter_eq_self.2 fun b' hb' => decide_eq_true (hown b' hb').1
      rw [ofKind, List.cons_append, List.filter_cons_of_neg (by simpa using hkind),
        List.filter_append, hall, ofKind]
    refine ⟨tables'', hnodes.sound, ?_, ?_, ?_, ?_⟩
    · rw [hnodes.keys, hkeys, htables, List.map_append, List.reverse_append, List.append_assoc]
    · intro b' hb'
      rcases List.mem_append.1 hb' with hb' | hb'
      · rcases List.mem_cons.1 hb' with rfl | hb'
        · exact Or.inl ⟨n, List.mem_cons_self, hnode⟩
        · obtain ⟨hkind, hkey, htable⟩ := hown b' hb'
          exact Or.inr ⟨hkind, htable, n, List.mem_cons_self, hkey⟩
      · rcases hnodes.origin b' hb' with ⟨m, hm, hblock⟩ | ⟨hkind, htable, m, hm, hkey⟩
        · exact Or.inl ⟨m, List.mem_cons_of_mem n hm, hblock⟩
        · exact Or.inr ⟨hkind, htable, m, List.mem_cons_of_mem n hm, hkey⟩
    · refine List.forall_mem_cons.2
        ⟨⟨b, List.mem_append_left _ List.mem_cons_self, hnode⟩, fun m hm => ?_⟩
      obtain ⟨b', hb', hblock⟩ := hnodes.emitted m hm
      exact ⟨b', List.mem_append_right _ hb', hblock⟩
    · refine List.forall_mem_cons.2 ⟨fun e he => ?_, hnodes.covered⟩
      rw [hnodes.keys]
      exact List.mem_append_right _ (hcovered e he)

end Nodes

/-! ## Helpers -/

/-- One helper is emitted for each that is named. -/
theorem helperBlocks_ok {tg : Target} {place : Place} {bs helpers : List Block}
    (h : helperBlocks tg place bs = .ok helpers) :
    helpers.map Block.key =
        (referenced (joinBlocks (bs.filter (·.kind ≠ .helper)))).map Helper.name ∧
      ∀ b ∈ helpers, b.kind = .helper := by
  unfold helperBlocks at h
  generalize referenced (joinBlocks (bs.filter (·.kind ≠ .helper))) = hs at h ⊢
  induction hs generalizing helpers with
  | nil =>
    cases h
    simp
  | cons helper hs ih =>
    rw [List.mapM_cons] at h
    obtain ⟨b, hb, h⟩ := bind_eq_ok.1 h
    obtain ⟨rest, hrest, h⟩ := bind_eq_ok.1 h
    obtain rfl := pure_eq_ok.1 h
    obtain ⟨hkind, hkey, -⟩ := block_eq_ok.1 hb
    obtain ⟨hkeys, hkinds⟩ := ih hrest
    exact ⟨by rw [List.map_cons, List.map_cons, hkey, hkeys],
      List.forall_mem_cons.2 ⟨hkind, hkinds⟩⟩

/-! ## Trees -/

/-- The getter of a tree stands in front of the blocks of its nodes. -/
theorem treeBlocks_cases {tg : Target} {declaration : String} {t : RouteTree} {bs : List Block}
    (h : treeBlocks tg declaration t = .ok bs) :
    ∃ getter nodes, bs = getter :: nodes ∧ getter.kind = .routeTree ∧ getter.key = declaration ∧
      (∃ code, getterCode tg declaration t = .ok code ∧ layOut code = .ok getter.text) ∧
      nodeBlocks tg declaration [] t.nodes = .ok nodes := by
  obtain ⟨code, hcode, h⟩ := bind_eq_ok.1 h
  obtain ⟨getter, hgetter, h⟩ := bind_eq_ok.1 h
  obtain ⟨nodes, hnodes, h⟩ := bind_eq_ok.1 h
  obtain rfl := pure_eq_ok.1 h
  obtain ⟨hkind, hkey, htext⟩ := block_eq_ok.1 hgetter
  exact ⟨getter, nodes, rfl, hkind, hkey, ⟨code, hcode, htext⟩, hnodes⟩

/-! ## Outputs -/

/-- An output in parts: the getter of its tree, the blocks of the tree's nodes with the tables that
they leave behind, and the helpers that these name. -/
structure Parts (catalog : Catalog) (settings : Settings) (d : Declaration) (t : RouteTree)
    (o : Output) where
  target : Target
  getter : Block
  nodes : List Block
  tables : Tables
  helpers : List Block
  target_eq : target? catalog settings = some target
  blocks_eq : o.blocks = getter :: nodes ++ helpers
  getter_kind : getter.kind = .routeTree
  getter_key : getter.key = d.type
  getter_code : ∃ code, getterCode target d.type t = .ok code ∧ layOut code = .ok getter.text
  nodes_eq : nodeBlocks target d.type [] t.nodes = .ok nodes
  nodes_ok : NodeBlocks target d.type t.nodes [] nodes tables
  helpers_key : helpers.map Block.key =
    (referenced (joinBlocks ((getter :: nodes).filter (·.kind ≠ .helper)))).map Helper.name
  helpers_kind : ∀ b ∈ helpers, b.kind = .helper

/-- An output has the blocks of its tree and the helpers of these. -/
theorem generate_cases {catalog : Catalog} {settings : Settings} {d : Declaration} {o : Output}
    (h : generate catalog settings d = .ok o) :
    ∃ tg t blocks helpers, target? catalog settings = some tg ∧
      RouteTree.ofDeclaration catalog settings d = .ok t ∧ treeBlocks tg d.type t = .ok blocks ∧
      helperBlocks tg { declaration := d.type } blocks = .ok helpers ∧
      o.blocks = blocks ++ helpers := by
  unfold generate at h
  dsimp only at h
  cases htarget : target? catalog settings with
  | none =>
    rw [htarget] at h
    cases h
  | some tg =>
    rw [htarget] at h
    obtain ⟨t, ht, h⟩ := bind_eq_ok.1 h
    obtain ⟨blocks, hblocks, h⟩ := bind_eq_ok.1 h
    obtain ⟨helpers, hhelpers, h⟩ := bind_eq_ok.1 h
    obtain rfl := pure_eq_ok.1 h
    exact ⟨tg, t, blocks, helpers, rfl, ht, hblocks, hhelpers, rfl⟩

theorem generate_ok {catalog : Catalog} {settings : Settings} {d : Declaration} {o : Output}
    (h : generate catalog settings d = .ok o) :
    ∃ t, RouteTree.ofDeclaration catalog settings d = .ok t ∧
      Nonempty (Parts catalog settings d t o) := by
  obtain ⟨tg, t, blocks, helpers, htarget, ht, hblocks, hhelpers, ho⟩ := generate_cases h
  obtain ⟨getter, nodes, rfl, hkind, hkey, hcode, hnodes⟩ := treeBlocks_cases hblocks
  obtain ⟨tables, hsound⟩ := nodeBlocks_ok hnodes Tables.sound_nil
  obtain ⟨hkeys, hkinds⟩ := helperBlocks_ok hhelpers
  exact ⟨t, ht, ⟨{
    target := tg
    getter := getter
    nodes := nodes
    tables := tables
    helpers := helpers
    target_eq := htarget
    blocks_eq := ho
    getter_kind := hkind
    getter_key := hkey
    getter_code := hcode
    nodes_eq := hnodes
    nodes_ok := hsound
    helpers_key := hkeys
    helpers_kind := hkinds }⟩⟩

namespace Parts

variable {catalog : Catalog} {settings : Settings} {d : Declaration} {t : RouteTree} {o : Output}
  {b b' : Block} (p : Parts catalog settings d t o)

include p

theorem catalog_eq : p.target.catalog = catalog := by
  obtain ⟨ts, -, h⟩ := Option.map_eq_some_iff.1 p.target_eq
  rw [← h]

theorem node_kind (hb : b ∈ p.nodes) : b.kind = .routeData ∨ b.kind = .enumCodec := by
  rcases p.nodes_ok.origin b hb with ⟨n, -, hblock⟩ | ⟨hkind, -⟩
  · exact Or.inl (nodeBlock_ok hblock).1
  · exact Or.inr hkind

theorem mem_blocks : b ∈ o.blocks ↔ b = p.getter ∨ b ∈ p.nodes ∨ b ∈ p.helpers := by
  rw [p.blocks_eq, List.cons_append, List.mem_cons, List.mem_append]

theorem eq_getter (hb : b ∈ o.blocks) (hkind : b.kind = .routeTree) : b = p.getter := by
  rcases p.mem_blocks.1 hb with rfl | hb | hb
  · rfl
  · rcases p.node_kind hb with h | h <;> rw [hkind] at h <;> cases h
  · have h := p.helpers_kind b hb
    rw [hkind] at h
    cases h

theorem mem_nodes (hb : b ∈ o.blocks) (hkind : b.kind = .routeData ∨ b.kind = .enumCodec) :
    b ∈ p.nodes := by
  rcases p.mem_blocks.1 hb with rfl | hb | hb
  · have h := p.getter_kind
    rcases hkind with hkind | hkind <;> rw [hkind] at h <;> cases h
  · exact hb
  · have h := p.helpers_kind b hb
    rcases hkind with hkind | hkind <;> rw [hkind] at h <;> cases h

theorem mem_helpers : b ∈ o.blocks ∧ b.kind = .helper ↔ b ∈ p.helpers := by
  refine ⟨fun ⟨hb, hkind⟩ => ?_, fun hb => ⟨?_, p.helpers_kind b hb⟩⟩
  · rcases p.mem_blocks.1 hb with rfl | hb | hb
    · have h := p.getter_kind
      rw [hkind] at h
      cases h
    · rcases p.node_kind hb with h | h <;> rw [hkind] at h <;> cases h
    · exact hb
  · exact p.mem_blocks.2 (Or.inr (Or.inr hb))

/-- A block of the kind of tables is the table of an enumeration that a node uses. -/
theorem isTable (hb : b ∈ o.blocks) (hkind : b.kind = .enumCodec) :
    IsTable catalog b ∧ ∃ n ∈ t.nodes, b.key ∈ enumsOf catalog n := by
  rcases p.nodes_ok.origin b (p.mem_nodes hb (Or.inr hkind)) with ⟨n, -, hblock⟩ | ⟨-, htable, hn⟩
  · have h := (nodeBlock_ok hblock).1
    rw [hkind] at h
    cases h
  · exact p.catalog_eq ▸ ⟨htable, hn⟩

theorem ofKind_enumCodec : ofKind .enumCodec o.blocks = ofKind .enumCodec p.nodes := by
  have hgetter : p.getter.kind ≠ .enumCodec := by
    rw [p.getter_kind]
    decide
  have hhelpers : ofKind .enumCodec p.helpers = [] := by
    refine List.filter_eq_nil_iff.2 fun b hb => ?_
    rw [p.helpers_kind b hb]
    decide
  rw [p.blocks_eq, ofKind, List.cons_append, List.filter_cons_of_neg (by simpa using hgetter),
    List.filter_append]
  exact (congrArg _ hhelpers).trans (List.append_nil _)

theorem map_key_enumCodec :
    (ofKind .enumCodec o.blocks).map Block.key = (p.tables.map Prod.snd).reverse := by
  rw [p.ofKind_enumCodec, p.nodes_ok.keys, List.map_nil, List.append_nil, List.reverse_reverse]

/-- The tables of an output are those that the nodes leave behind. -/
theorem mem_tables {e : String} :
    (∃ name, (name, e) ∈ p.tables) ↔ ∃ b ∈ o.blocks, b.kind = .enumCodec ∧ b.key = e := by
  have hkeys : (∃ name, (name, e) ∈ p.tables) ↔ e ∈ (ofKind .enumCodec o.blocks).map Block.key := by
    rw [p.map_key_enumCodec]
    simp
  simp only [hkeys, List.mem_map, mem_ofKind, and_assoc]

/-- Every table has a name, and no two have one. -/
theorem tableName_key (hb : b ∈ o.blocks) (hkind : b.kind = .enumCodec) :
    ∃ name, tableName default b.key = .ok name ∧
      ∀ b' ∈ o.blocks, b'.kind = .enumCodec → tableName default b'.key = .ok name → b' = b := by
  obtain ⟨name, hname⟩ := p.mem_tables.2 ⟨b, hb, hkind, rfl⟩
  refine ⟨name, p.nodes_ok.sound.tableName_eq hname, fun b' hb' hkind' hname' => ?_⟩
  obtain ⟨name', hmem⟩ := p.mem_tables.2 ⟨b', hb', hkind', rfl⟩
  have hnamed := p.nodes_ok.sound.tableName_eq hmem
  rw [hname'] at hnamed
  have hfst : (name', b'.key).1 = (name, b.key).1 := (Except.ok.inj hnamed).symm
  have hkey := List.inj_on_of_nodup_map p.nodes_ok.sound.distinct hmem hname hfst
  exact (p.isTable hb' hkind').1.eq_of_key (p.isTable hb hkind).1 (congrArg Prod.snd hkey)

/-- No two tables share a constant. -/
theorem eq_of_item?_eq (hb : b ∈ o.blocks) (hkind : b.kind = .enumCodec) (hb' : b' ∈ o.blocks)
    (hkind' : b'.kind = .enumCodec) (hitem : b.item? = b'.item?) : b = b' := by
  obtain ⟨name, hname, -⟩ := p.tableName_key hb hkind
  obtain ⟨name', hname', honly⟩ := p.tableName_key hb' hkind'
  rw [(Block.item?_eq_some hkind).2 hname, (Block.item?_eq_some hkind').2 hname'] at hitem
  exact honly b hb hkind (Option.some.inj hitem ▸ hname)

theorem item?_nodup : ((ofKind .enumCodec o.blocks).map Block.item?).Nodup := by
  have hkeys : ((ofKind .enumCodec o.blocks).map Block.key).Nodup := by
    rw [p.map_key_enumCodec, List.nodup_reverse]
    exact p.nodes_ok.sound.snd_nodup
  refine List.Nodup.map_on (fun b hb b' hb' hitem => ?_) (hkeys.of_map _)
  obtain ⟨hb, hkind⟩ := mem_ofKind.1 hb
  obtain ⟨hb', hkind'⟩ := mem_ofKind.1 hb'
  exact p.eq_of_item?_eq hb hkind hb' hkind' hitem

end Parts

/-! ## Default settings -/

section Default

variable {catalog : Catalog}

/-- A helper depends on nothing but the runtime's path. -/
theorem code_eq_of_runtime_eq {tg tg' : Target} (h : tg.runtime = tg'.runtime) (helper : Helper) :
    helper.code tg = helper.code tg' := by
  have hname : ∀ names, tg.name names = tg'.name names := fun names => by
    rw [Target.name, Target.name, h]
  cases helper with
  | queryReader =>
    simp only [Helper.code, Helper.queryReaderCode, Target.invalid, hname]
  | boolReader => rfl
  | enumCodec => rfl

/-- Every helper has a layout. -/
theorem layOut_helper {tg : Target} (htarget : target? catalog {} = some tg) (helper : Helper) :
    ∃ text, layOut (helper.code tg) = .ok text := by
  obtain ⟨ts, hts, rfl⟩ := Option.map_eq_some_iff.1 htarget
  have hall : (target? .empty {}).any fun tg' =>
      Helper.all.all fun helper => (layOut (helper.code tg')).toOption.isSome := by
    decide +kernel
  have hempty : target? .empty {} = some ⟨.empty, {}, typeTokens ts⟩ :=
    Option.map_eq_some_iff.2 ⟨ts, hts, rfl⟩
  rw [hempty, Option.any_some, List.all_eq_true] at hall
  have hsome := hall helper (by cases helper <;> decide)
  obtain ⟨text, htext⟩ := Option.isSome_iff_exists.1 hsome
  refine ⟨text, ?_⟩
  rw [← toOption_eq_some.1 htext]
  exact congrArg layOut (code_eq_of_runtime_eq rfl helper)

/-- Under the default settings an output is there as soon as its tree has blocks. -/
theorem generate_default {d : Declaration} {tg : Target} {t : RouteTree} {bs : List Block}
    (htarget : target? catalog {} = some tg) (ht : RouteTree.ofDeclaration catalog {} d = .ok t)
    (hbs : treeBlocks tg d.type t = .ok bs) :
    ∃ helpers, generate catalog {} d = .ok ⟨d.type, bs ++ helpers⟩ := by
  have hhelpers : ∀ hs : List Helper, ∃ helpers, (hs.mapM fun h =>
      block .helper h.name { declaration := d.type } (h.code tg)) = .ok helpers := by
    intro hs
    induction hs with
    | nil => exact ⟨[], rfl⟩
    | cons helper hs ih =>
      obtain ⟨text, htext⟩ := layOut_helper htarget helper
      obtain ⟨rest, hrest⟩ := ih
      refine ⟨⟨.helper, helper.name, text⟩ :: rest, ?_⟩
      rw [List.mapM_cons]
      exact bind_eq_ok.2 ⟨_, block_eq_ok.2 ⟨rfl, rfl, htext⟩, bind_eq_ok.2 ⟨rest, hrest, rfl⟩⟩
  obtain ⟨helpers, hhelpers⟩ := hhelpers (referenced (joinBlocks (bs.filter (·.kind ≠ .helper))))
  refine ⟨helpers, ?_⟩
  unfold generate
  dsimp only
  rw [htarget]
  exact bind_eq_ok.2 ⟨t, ht, bind_eq_ok.2 ⟨bs, hbs, bind_eq_ok.2 ⟨helpers, hhelpers, rfl⟩⟩⟩

/-- An output with certain blocks, found by running the emission of its tree. -/
theorem exists_output_of (catalog : Catalog) (d : Declaration) (q : List Block → Bool)
    (h : (target? catalog {}).any fun tg =>
      (RouteTree.ofDeclaration catalog {} d).toOption.any fun t =>
        (treeBlocks tg d.type t).toOption.any q) :
    ∃ o, generate catalog {} d = .ok o ∧ ∃ bs, bs ⊆ o.blocks ∧ q bs := by
  obtain ⟨tg, htarget, h⟩ := (Option.any_eq_true _ _).1 h
  obtain ⟨t, ht, h⟩ := (Option.any_eq_true _ _).1 h
  obtain ⟨bs, hbs, hq⟩ := (Option.any_eq_true _ _).1 h
  obtain ⟨helpers, ho⟩ :=
    generate_default htarget (toOption_eq_some.1 ht) (toOption_eq_some.1 hbs)
  exact ⟨_, ho, bs, List.subset_append_left bs helpers, hq⟩

end Default

end TypedRoutes.Emission
