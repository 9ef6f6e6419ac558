import Mathlib.Data.List.Pairwise
import TypedRoutes.Proofs.Blocks

/-!
# What an assembly defines

* `firstByKey_nodup`, `mem_assembledBlocks` : dropping repetitions;
* `eq_of_item_eq` : in one output only route types can be declared twice;
* `assembledBlocks_items`, `assembledBlocks_shared_items` : what can be declared twice in an assembly, and
  that it is.
-/

namespace TypedRoutes.Emission

/-! ## Dropping repetitions -/

section FirstByKey

variable {α κ : Type} [DecidableEq κ] {key : α → κ}

theorem firstByKey_sublist (seen : List κ) (as : List α) : (firstByKey key seen as).Sublist as := by
  induction as generalizing seen with
  | nil => exact List.Sublist.slnil
  | cons a as ih =>
    rw [firstByKey]
    split
    · exact (ih seen).cons a
    · exact (ih (key a :: seen)).cons_cons a

theorem key_notMem_seen {seen : List κ} {as : List α} :
    ∀ a ∈ firstByKey key seen as, key a ∉ seen := by
  induction as generalizing seen with
  | nil => simp [firstByKey]
  | cons a as ih =>
    rw [firstByKey]
    split
    · exact ih
    · next hnew =>
      refine List.forall_mem_cons.2 ⟨hnew, fun b hb hmem => ?_⟩
      exact ih b hb (List.mem_cons_of_mem (key a) hmem)

/-- No two items that are left have one key. -/
theorem firstByKey_nodup (seen : List κ) (as : List α) :
    ((firstByKey key seen as).map key).Nodup := by
  induction as generalizing seen with
  | nil => exact List.nodup_nil
  | cons a as ih =>
    rw [firstByKey]
    split
    · exact ih seen
    · refine List.nodup_cons.2 ⟨fun hmem => ?_, ih (key a :: seen)⟩
      obtain ⟨b, hb, hkey⟩ := List.mem_map.1 hmem
      exact key_notMem_seen b hb (hkey ▸ List.mem_cons_self)

/-- An item of every key is left. -/
theorem exists_mem_firstByKey (seen : List κ) (as : List α) :
    ∀ a ∈ as, key a ∉ seen → ∃ b ∈ firstByKey key seen as, key b = key a := by
  induction as generalizing seen with
  | nil => simp
  | cons a as ih =>
    rw [firstByKey]
    refine List.forall_mem_cons.2 ⟨fun hnew => ?_, fun b hb hnew => ?_⟩
    · rw [if_neg hnew]
      exact ⟨a, List.mem_cons_self, rfl⟩
    · split
      · exact ih seen b hb hnew
      · by_cases hkey : key b = key a
        · exact ⟨a, List.mem_cons_self, hkey.symm⟩
        · obtain ⟨c, hc, hcb⟩ := ih (key a :: seen) b hb (by simp [hkey, hnew])
          exact ⟨c, List.mem_cons_of_mem a hc, hcb⟩

end FirstByKey

theorem mem_firstByKey_id {bs : List Block} {b : Block} : b ∈ firstByKey id [] bs ↔ b ∈ bs := by
  refine ⟨fun hb => (firstByKey_sublist [] bs).subset hb, fun hb => ?_⟩
  have hfound : ∃ c ∈ firstByKey id [] bs, id c = id b :=
    exists_mem_firstByKey [] bs b hb List.not_mem_nil
  obtain ⟨c, hc, rfl⟩ := hfound
  exact hc

/-! ## Assemblies -/

section Assemblies

variable {os : List Output} {b : Block}

theorem exists_output_of_mem (hb : b ∈ assembledBlocks os) : ∃ o ∈ os, b ∈ o.blocks := by
  have hmem : b ∈ firstByKey id [] (os.flatMap Output.blocks) := by
    rcases List.mem_append.1 hb with hb | hb
    · exact (List.mem_filter.1 hb).1
    · exact (List.mem_filter.1 ((firstByKey_sublist [] _).subset hb)).1
  exact List.mem_flatMap.1 (mem_firstByKey_id.1 hmem)

/-- Every block of an output is assembled but a helper. -/
theorem mem_assembledBlocks {o : Output} (ho : o ∈ os) (hb : b ∈ o.blocks)
    (hkind : b.kind ≠ .helper) : b ∈ assembledBlocks os := by
  refine List.mem_append_left _ (List.mem_filter.2 ⟨?_, decide_eq_true hkind⟩)
  exact mem_firstByKey_id.2 (List.mem_flatMap.2 ⟨o, ho, hb⟩)

theorem ofKind_helper_assembledBlocks :
    ofKind .helper (assembledBlocks os) =
      firstByKey Block.key []
        ((firstByKey id [] (os.flatMap Output.blocks)).filter (·.kind = .helper)) := by
  have hnone : ((firstByKey id [] (os.flatMap Output.blocks)).filter (·.kind ≠ .helper)).filter
      (·.kind = .helper) = [] := by
    rw [List.filter_filter]
    exact List.filter_eq_nil_iff.2 fun b _ => by simp
  unfold ofKind assembledBlocks
  rw [List.filter_append, hnone, List.nil_append]
  refine List.filter_eq_self.2 fun b hb => ?_
  exact (List.mem_filter.1 ((firstByKey_sublist [] _).subset hb)).2

theorem assembledBlocks_nodup : (assembledBlocks os).Nodup := by
  have hdistinct : (firstByKey id [] (os.flatMap Output.blocks)).Nodup := by
    have h : ((firstByKey id [] (os.flatMap Output.blocks)).map id).Nodup := firstByKey_nodup [] _
    rwa [List.map_id] at h
  refine List.nodup_append.2 ⟨hdistinct.filter _, ?_, fun b hb b' hb' heq => ?_⟩
  · exact (firstByKey_nodup [] _).of_map
  · have hkind := (List.mem_filter.1 hb).2
    have hkind' := (List.mem_filter.1 ((firstByKey_sublist [] _).subset hb')).2
    rw [heq] at hkind
    simp_all

end Assemblies

/-! ## Items -/

section Items

variable {catalog : Catalog} {settings : Settings} {b b' : Block}

/-- Two blocks of one output that declare one tree or one table are one block. -/
theorem eq_of_item_eq {d : Declaration} {o : Output} (h : generate catalog settings d = .ok o)
    (hb : b ∈ o.blocks) (hb' : b' ∈ o.blocks) (hkind : b.kind = b'.kind)
    (hitem : b.item? = b'.item?) (hof : b.kind = .routeTree ∨ b.kind = .enumCodec) : b = b' := by
  obtain ⟨t, -, ⟨p⟩⟩ := generate_ok h
  rcases hof with hof | hof
  · rw [p.eq_getter hb hof, p.eq_getter hb' (hkind ▸ hof)]
  · exact p.eq_of_item?_eq hb hof hb' (hkind ▸ hof) hitem

/-- In an assembly no block occurs twice, every helper has its own name and every table its own
enumeration. What two blocks declare alike is either a route whose functions differ, or a tree or a
table from two declarations. -/
theorem assembledBlocks_items (catalog : Catalog) (settings : Settings) (ds : List Declaration) :
    let os := (generateAll catalog settings ds).filterMap Except.toOption
    let bs := assembledBlocks os
    bs.Nodup ∧
    ((ofKind .helper bs).map Block.key).Nodup ∧
    ((ofKind .enumCodec bs).map Block.key).Nodup ∧
    ∀ b ∈ bs, ∀ b' ∈ bs, b ≠ b' → b.kind = b'.kind → b.item? = b'.item? →
      b.kind = .routeData ∧ b.text ≠ b'.text ∨
      (b.kind = .routeTree ∨ b.kind = .enumCodec) ∧
        ∀ o ∈ os, ¬(b ∈ o.blocks ∧ b' ∈ o.blocks) := by
  intro os bs
  have hgenerated : ∀ o ∈ os, ∃ d ∈ ds, generate catalog settings d = .ok o := by
    intro o ho
    obtain ⟨r, hr, hok⟩ := List.mem_filterMap.1 ho
    obtain ⟨d, hd, rfl⟩ := List.mem_map.1 hr
    exact ⟨d, hd, toOption_eq_some.1 hok⟩
  have htable : ∀ b ∈ bs, b.kind = .enumCodec → IsTable catalog b := by
    intro b hb hkind
    obtain ⟨o, ho, hb⟩ := exists_output_of_mem hb
    obtain ⟨d, -, hd⟩ := hgenerated o ho
    obtain ⟨t, -, ⟨p⟩⟩ := generate_ok hd
    exact (p.isTable hb hkind).1
  have hhelpers : ((ofKind .helper bs).map Block.key).Nodup := by
    rw [ofKind_helper_assembledBlocks]
    exact firstByKey_nodup [] _
  refine ⟨assembledBlocks_nodup, hhelpers, ?_, fun b hb b' hb' hne hkind hitem => ?_⟩
  · refine List.Nodup.map_on (fun b hb b' hb' hkey => ?_) (assembledBlocks_nodup.filter _)
    obtain ⟨hb, hkind⟩ := mem_ofKind.1 hb
    obtain ⟨hb', hkind'⟩ := mem_ofKind.1 hb'
    exact (htable b hb hkind).eq_of_key (htable b' hb' hkind') hkey
  · have happart : b.kind = .routeTree ∨ b.kind = .enumCodec →
        ∀ o ∈ os, ¬(b ∈ o.blocks ∧ b' ∈ o.blocks) := by
      rintro hof o ho ⟨hbo, hbo'⟩
      obtain ⟨d, -, hd⟩ := hgenerated o ho
      exact hne (eq_of_item_eq hd hbo hbo' hkind hitem hof)
    cases hof : b.kind with
    | routeTree => exact Or.inr ⟨Or.inl rfl, happart (Or.inl hof)⟩
    | enumCodec => exact Or.inr ⟨Or.inr rfl, happart (Or.inr hof)⟩
    | routeData =>
      refine Or.inl ⟨rfl, fun htext => hne ?_⟩
      have hkey : b.key = b'.key := by
        simpa [Block.item?, hof, hkind ▸ hof] using hitem
      cases b
      cases b'
      simp_all
    | helper =>
      have hkey : b.key = b'.key := by
        simpa [Block.item?, hof, hkind ▸ hof] using hitem
      have hmem := mem_ofKind.2 ⟨hb, hof⟩
      have hmem' := mem_ofKind.2 ⟨hb', hkind ▸ hof⟩
      exact absurd (List.inj_on_of_nodup_map hhelpers hmem hmem' hkey) hne

end Items

/-- What declares an item under a key. -/
def declares (kind : BlockKind) (item key : String) (b : Block) : Bool :=
  b.kind = kind && b.item? = some item && b.key = key

theorem not_nodup_of_declares {kind : BlockKind} {item key key' : String} {bs : List Block}
    (hne : key ≠ key') (h : ∃ b ∈ bs, declares kind item key b) (h' : ∃ b ∈ bs, declares kind item key' b) :
    ¬((ofKind kind bs).map Block.item?).Nodup := by
  intro hnodup
  obtain ⟨b, hb, hdeclares⟩ := h
  obtain ⟨b', hb', hdeclares'⟩ := h'
  simp only [declares, Bool.and_eq_true, decide_eq_true_eq] at hdeclares hdeclares'
  obtain ⟨⟨hkind, hitem⟩, rfl⟩ := hdeclares
  obtain ⟨⟨hkind', hitem'⟩, rfl⟩ := hdeclares'
  have hmem := mem_ofKind.2 ⟨hb, hkind⟩
  have hmem' := mem_ofKind.2 ⟨hb', hkind'⟩
  exact hne (congrArg Block.key (List.inj_on_of_nodup_map hnodup hmem hmem' (hitem.trans hitem'.symm)))

/-- Two declarations whose types differ only in case declare one getter twice, and one table twice for
two enumerations whose paths end alike. -/
theorem assembledBlocks_shared_items :
    let catalog := Catalog.ofList
      [.routeData "A" [.byName "color" (.named "x::Color")],
        .routeData "a" [.byName "color" (.named "y::Color")],
        .enumeration "x::Color" ["Red"], .enumeration "y::Color" ["Red"]]
    let ds : List Declaration := [⟨"A", .ofShell "A"⟩, ⟨"a", .ofShell "a"⟩]
    let os := (generateAll catalog {} ds).filterMap Except.toOption
    ¬((ofKind .routeTree (assembledBlocks os)).map Block.item?).Nodup ∧
      ¬((ofKind .enumCodec (assembledBlocks os)).map Block.item?).Nodup := by
  intro catalog ds os
  have hblocks : ∀ p ∈ [("A", "x::Color"), ("a", "y::Color")],
      (∃ b ∈ assembledBlocks os, declares .routeTree "a" p.1 b) ∧
      ∃ b ∈ assembledBlocks os, declares .enumCodec "COLOR_ENUM_MAP" p.2 b := by
    intro p hp
    obtain ⟨o, ho, bs, hbs, hq⟩ := exists_output_of catalog ⟨p.1, .ofShell p.1⟩
      (fun bs => bs.any (declares .routeTree "a" p.1) && bs.any (declares .enumCodec "COLOR_ENUM_MAP" p.2))
      (by
        revert p
        decide +kernel)
    have hmem : o ∈ os := by
      refine List.mem_filterMap.2 ⟨.ok o, List.mem_map.2 ⟨⟨p.1, .ofShell p.1⟩, ?_, ho⟩, rfl⟩
      revert p
      simp [ds]
    simp only [Bool.and_eq_true, List.any_eq_true] at hq
    obtain ⟨⟨b, hb, hgetter⟩, b', hb', htable⟩ := hq
    refine ⟨⟨b, mem_assembledBlocks hmem (hbs hb) ?_, hgetter⟩, b',
      mem_assembledBlocks hmem (hbs hb') ?_, htable⟩
    · simp_all [declares]
    · simp_all [declares]
  obtain ⟨hgetter, htable⟩ := hblocks ("A", "x::Color") (by simp)
  obtain ⟨hgetter', htable'⟩ := hblocks ("a", "y::Color") (by simp)
  exact ⟨not_nodup_of_declares (by decide) hgetter hgetter',
    not_nodup_of_declares (by decide) htable htable'⟩

end TypedRoutes.Emission
