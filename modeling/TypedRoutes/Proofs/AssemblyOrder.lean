import TypedRoutes.Proofs.Assembly
import TypedRoutes.Proofs.HelperScan

/-!
# The order of an assembly, and what it keeps

* `FirstOf` : the first items of every key, in the order in which they stand;
* `firstOf_firstByKey` : dropping what has an earlier key leaves the first items;
* `firstByKey_filter`, `firstByKey_firstByKey`, `firstByKey_append` : dropping repetitions among some
  items, twice, and behind items that have all keys;
* `eq_of_helper_key` : helpers of one name are the same in all outputs;
* `assemble_keeps_once` : an assembly has every block once, in order, and nothing is lost by it.
-/

namespace TypedRoutes.Emission

open Syntax

/-! ## First items -/

/-- The items of `bs` are the first of every key in `as`, and they stand in their order there. -/
structure FirstOf {α κ : Type} [DecidableEq κ] (key : α → κ) (as bs : List α) : Prop where
  complete : ∀ a ∈ as, ∃ b ∈ bs, key b = key a
  first : ∀ b ∈ bs, ∃ before behind, as = before ++ b :: behind ∧ ∀ a ∈ before, key a ≠ key b
  ordered : bs.Pairwise fun b b' => as.findIdx (key · = key b) < as.findIdx (key · = key b')

section FirstByKey

variable {α κ : Type} [DecidableEq κ] {key : α → κ}

theorem firstByKey_cons_of_mem {seen : List κ} {a : α} (h : key a ∈ seen) (as : List α) :
    firstByKey key seen (a :: as) = firstByKey key seen as := by
  rw [firstByKey, if_pos h]

theorem firstByKey_cons_of_notMem {seen : List κ} {a : α} (h : key a ∉ seen) (as : List α) :
    firstByKey key seen (a :: as) = a :: firstByKey key (key a :: seen) as := by
  rw [firstByKey, if_neg h]

theorem firstByKey_first {seen : List κ} {as : List α} :
    ∀ b ∈ firstByKey key seen as, ∃ before behind, as = before ++ b :: behind ∧
      ∀ a ∈ before, key a ≠ key b := by
  induction as generalizing seen with
  | nil => simp [firstByKey]
  | cons a as ih =>
    intro b hb
    have hlater : ∀ seen', key a ∈ seen' → b ∈ firstByKey key seen' as →
        ∃ before behind, a :: as = before ++ b :: behind ∧ ∀ c ∈ before, key c ≠ key b := by
      intro seen' hseen hb
      obtain ⟨before, behind, rfl, hbefore⟩ := ih b hb
      refine ⟨a :: before, behind, rfl, List.forall_mem_cons.2 ⟨fun hkey => ?_, hbefore⟩⟩
      exact key_notMem_seen b hb (hkey ▸ hseen)
    rw [firstByKey] at hb
    split at hb
    · next hseen => exact hlater seen hseen hb
    · rcases List.mem_cons.1 hb with rfl | hb
      · exact ⟨[], as, rfl, by simp⟩
      · exact hlater _ List.mem_cons_self hb

theorem firstByKey_ordered {seen : List κ} {as : List α} :
    (firstByKey key seen as).Pairwise fun b b' =>
      as.findIdx (key · = key b) < as.findIdx (key · = key b') := by
  induction as generalizing seen with
  | nil => exact List.Pairwise.nil
  | cons a as ih =>
    have hnext : ∀ seen', key a ∈ seen' → ∀ b ∈ firstByKey key seen' as,
        (a :: as).findIdx (key · = key b) = as.findIdx (key · = key b) + 1 := by
      intro seen' hseen b hb
      have hne : key a ≠ key b := fun hkey => key_notMem_seen b hb (hkey ▸ hseen)
      simp [List.findIdx_cons, hne]
    have hlater : ∀ seen', key a ∈ seen' → (firstByKey key seen' as).Pairwise fun b b' =>
        (a :: as).findIdx (key · = key b) < (a :: as).findIdx (key · = key b') := by
      intro seen' hseen
      refine ih.imp_of_mem fun hb hb' hlt => ?_
      rw [hnext seen' hseen _ hb, hnext seen' hseen _ hb']
      omega
    rw [firstByKey]
    split
    · next hseen => exact hlater seen hseen
    · refine List.pairwise_cons.2 ⟨fun b hb => ?_, hlater _ List.mem_cons_self⟩
      rw [hnext _ List.mem_cons_self b hb]
      simp [List.findIdx_cons]

/-- Dropping what has an earlier key leaves the first items. -/
theorem firstOf_firstByKey (as : List α) : FirstOf key as (firstByKey key [] as) where
  complete a ha := exists_mem_firstByKey [] as a ha List.not_mem_nil
  first := firstByKey_first
  ordered := firstByKey_ordered

/-- Items are dropped alike by what was seen of them. -/
theorem firstByKey_filter {p : α → Bool} [DecidableEq α] {seen seen' : List α} {as : List α}
    (hseen : ∀ a, p a = true → (a ∈ seen ↔ a ∈ seen')) :
    (firstByKey id seen as).filter p = firstByKey id seen' (as.filter p) := by
  induction as generalizing seen seen' with
  | nil => rfl
  | cons a as ih =>
    by_cases hp : p a = true
    · rw [List.filter_cons_of_pos hp]
      by_cases ha : id a ∈ seen
      · rw [firstByKey_cons_of_mem ha, firstByKey_cons_of_mem ((hseen a hp).1 ha)]
        exact ih hseen
      · rw [firstByKey_cons_of_notMem ha, firstByKey_cons_of_notMem (mt (hseen a hp).2 ha),
          List.filter_cons_of_pos hp]
        refine congrArg (a :: ·) (ih fun b hb => ?_)
        simp [hseen b hb]
    · rw [List.filter_cons_of_neg hp]
      by_cases ha : id a ∈ seen
      · rw [firstByKey_cons_of_mem ha]
        exact ih hseen
      · rw [firstByKey_cons_of_notMem ha, List.filter_cons_of_neg hp]
        refine ih fun b hb => ?_
        have hne : b ≠ a := by
          rintro rfl
          exact hp hb
        simp [hne, hseen b hb]

/-- Dropping repetitions first makes no difference. -/
theorem firstByKey_firstByKey [DecidableEq α] {seen : List κ} {seen' as : List α}
    (hseen : ∀ a ∈ seen', key a ∈ seen) :
    firstByKey key seen (firstByKey id seen' as) = firstByKey key seen as := by
  induction as generalizing seen seen' with
  | nil => rfl
  | cons a as ih =>
    by_cases ha : id a ∈ seen'
    · rw [firstByKey_cons_of_mem ha, firstByKey_cons_of_mem (hseen a ha)]
      exact ih hseen
    rw [firstByKey_cons_of_notMem ha]
    by_cases hkey : key a ∈ seen
    · rw [firstByKey_cons_of_mem hkey, firstByKey_cons_of_mem hkey]
      exact ih (List.forall_mem_cons.2 ⟨hkey, hseen⟩)
    · rw [firstByKey_cons_of_notMem hkey, firstByKey_cons_of_notMem hkey]
      refine congrArg (a :: ·) (ih (List.forall_mem_cons.2 ⟨List.mem_cons_self, fun b hb => ?_⟩))
      exact List.mem_cons_of_mem _ (hseen b hb)

/-- Items whose keys all occur in front are dropped. -/
theorem firstByKey_append {seen : List κ} {as bs : List α}
    (h : ∀ b ∈ bs, key b ∈ seen ∨ ∃ a ∈ as, key a = key b) :
    firstByKey key seen (as ++ bs) = firstByKey key seen as := by
  induction as generalizing seen with
  | nil =>
    induction bs with
    | nil => rfl
    | cons b bs ih =>
      obtain ⟨hb, hbs⟩ := List.forall_mem_cons.1 h
      have hseen : key b ∈ seen := by simpa using hb
      rw [List.nil_append, firstByKey_cons_of_mem hseen]
      exact ih hbs
  | cons a as ih =>
    have hseen : ∀ seen', key a ∈ seen' → seen ⊆ seen' →
        ∀ b ∈ bs, key b ∈ seen' ∨ ∃ c ∈ as, key c = key b := by
      intro seen' ha hsubset b hb
      rcases h b hb with hb | ⟨c, hc, hkey⟩
      · exact Or.inl (hsubset hb)
      · rcases List.mem_cons.1 hc with rfl | hc
        · exact Or.inl (hkey ▸ ha)
        · exact Or.inr ⟨c, hc, hkey⟩
    rw [List.cons_append]
    by_cases ha : key a ∈ seen
    · rw [firstByKey_cons_of_mem ha, firstByKey_cons_of_mem ha]
      exact ih (hseen seen ha (List.Subset.refl seen))
    · rw [firstByKey_cons_of_notMem ha, firstByKey_cons_of_notMem ha,
        ih (hseen _ List.mem_cons_self (List.subset_cons_self _ seen))]

end FirstByKey

/-! ## Assemblies -/

section Assemblies

variable {os os' : List Output}

/-- The blocks of outputs that are helpers, or those that are not, in their order. -/
def blocksWhere (p : Block → Bool) (os : List Output) : List Block :=
  (os.flatMap Output.blocks).filter p

theorem mem_blocksWhere {p : Block → Bool} {b : Block} :
    b ∈ blocksWhere p os ↔ (∃ o ∈ os, b ∈ o.blocks) ∧ p b = true := by
  rw [blocksWhere, List.mem_filter, List.mem_flatMap]

/-- The blocks other than helpers come first, each once, and then one helper of each name. -/
theorem assembledBlocks_eq :
    assembledBlocks os =
      firstByKey id [] (blocksWhere (·.kind ≠ .helper) os) ++
        firstByKey Block.key [] (blocksWhere (·.kind = .helper) os) := by
  have hhelpers : firstByKey Block.key [] (firstByKey id [] (blocksWhere (·.kind = .helper) os)) =
      firstByKey Block.key [] (blocksWhere (·.kind = .helper) os) :=
    firstByKey_firstByKey (by simp)
  unfold assembledBlocks
  dsimp only
  rw [firstByKey_filter (fun _ _ => Iff.rfl), firstByKey_filter (fun _ _ => Iff.rfl)]
  exact congrArg _ hhelpers

/-- Outputs without a new block add nothing. -/
theorem assembledBlocks_append (h : ∀ o ∈ os', ∀ b ∈ o.blocks, ∃ o' ∈ os, b ∈ o'.blocks) :
    assembledBlocks (os ++ os') = assembledBlocks os := by
  have hwhere : ∀ p : Block → Bool, ∀ b ∈ blocksWhere p os', b ∈ blocksWhere p os := by
    intro p b hb
    obtain ⟨⟨o, ho, hb⟩, hp⟩ := mem_blocksWhere.1 hb
    exact mem_blocksWhere.2 ⟨h o ho b hb, hp⟩
  have hsplit : ∀ p, blocksWhere p (os ++ os') = blocksWhere p os ++ blocksWhere p os' := by
    intro p
    rw [blocksWhere, List.flatMap_append, List.filter_append]
    rfl
  rw [assembledBlocks_eq, assembledBlocks_eq, hsplit, hsplit,
    firstByKey_append fun b hb => Or.inr ⟨b, hwhere _ b hb, rfl⟩,
    firstByKey_append fun b hb => Or.inr ⟨b, hwhere _ b hb, rfl⟩]

theorem mem_assembledBlocks_helper {b : Block} :
    b ∈ assembledBlocks os ∧ b.kind = .helper ↔
      b ∈ firstByKey Block.key [] (blocksWhere (·.kind = .helper) os) := by
  rw [assembledBlocks_eq, List.mem_append]
  constructor
  · rintro ⟨hb | hb, hkind⟩
    · have hother := (mem_blocksWhere.1 ((firstByKey_sublist [] _).subset hb)).2
      simp [hkind] at hother
    · exact hb
  · intro hb
    have hkind := (mem_blocksWhere.1 ((firstByKey_sublist [] _).subset hb)).2
    exact ⟨Or.inr hb, by simpa using hkind⟩

end Assemblies

/-! ## Outputs of one generator -/

section Generated

variable {catalog : Catalog} {settings : Settings} {os : List Output}

theorem treeBlocks_kind {tg : Target} {declaration : String} {t : RouteTree} {bs : List Block}
    (h : treeBlocks tg declaration t = .ok bs) : ∀ b ∈ bs, b.kind ≠ .helper := by
  obtain ⟨getter, nodes, rfl, hgetter, -, -, hnodes⟩ := treeBlocks_cases h
  obtain ⟨tables, hparts⟩ := nodeBlocks_ok hnodes Tables.sound_nil
  refine List.forall_mem_cons.2 ⟨?_, fun b hb => ?_⟩
  · rw [hgetter]
    decide
  · rcases hparts.origin b hb with ⟨n, -, hblock⟩ | ⟨hkind, -⟩
    · rw [(nodeBlock_ok hblock).1]
      decide
    · rw [hkind]
      decide

/-- The text of a helper is laid out from its code, which the declaration has no part in. -/
theorem layOut_of_helper {d : Declaration} {o : Output} (h : generate catalog settings d = .ok o) :
    ∃ tg, target? catalog settings = some tg ∧ ∀ b ∈ o.blocks, b.kind = .helper →
      ∃ helper : Helper, b.key = helper.name ∧ layOut (helper.code tg) = .ok b.text := by
  obtain ⟨tg, t, blocks, helpers, htarget, -, hblocks, hhelpers, ho⟩ := generate_cases h
  refine ⟨tg, htarget, fun b hb hkind => ?_⟩
  rw [ho] at hb
  rcases List.mem_append.1 hb with hb | hb
  · exact absurd hkind (treeBlocks_kind hblocks b hb)
  · obtain ⟨helper, -, hblock⟩ := exists_of_mem_mapM hhelpers b hb
    obtain ⟨-, hkey, htext⟩ := block_eq_ok.1 hblock
    exact ⟨helper, hkey, htext⟩

variable (hos : ∀ o ∈ os, ∃ d, generate catalog settings d = .ok o)

include hos

/-- Helpers of one name are the same in all outputs. -/
theorem eq_of_helper_key {o o' : Output} (ho : o ∈ os) (ho' : o' ∈ os) {b b' : Block}
    (hb : b ∈ o.blocks) (hb' : b' ∈ o'.blocks) (hkind : b.kind = .helper) (hkind' : b'.kind = .helper)
    (hkey : b.key = b'.key) : b = b' := by
  obtain ⟨d, hd⟩ := hos o ho
  obtain ⟨d', hd'⟩ := hos o' ho'
  obtain ⟨tg, htg, hall⟩ := layOut_of_helper hd
  obtain ⟨tg', htg', hall'⟩ := layOut_of_helper hd'
  obtain rfl := Option.some.inj (htg.symm.trans htg')
  obtain ⟨helper, hname, htext⟩ := hall b hb hkind
  obtain ⟨helper', hname', htext'⟩ := hall' b' hb' hkind'
  obtain rfl := Helper.name_inj (hname.symm.trans (hkey.trans hname'))
  have heq : b.text = b'.text := Except.ok.inj (htext.symm.trans htext')
  cases b
  cases b'
  simp_all

/-- No block is lost. -/
theorem mem_assembledBlocks_of_generated {o : Output} (ho : o ∈ os) {b : Block} (hb : b ∈ o.blocks) :
    b ∈ assembledBlocks os := by
  by_cases hkind : b.kind = .helper
  · have hwhere : b ∈ blocksWhere (·.kind = .helper) os :=
      mem_blocksWhere.2 ⟨⟨o, ho, hb⟩, decide_eq_true hkind⟩
    have hfirst : ∃ b' ∈ firstByKey Block.key [] (blocksWhere (·.kind = .helper) os),
        b'.key = b.key :=
      exists_mem_firstByKey [] _ b hwhere List.not_mem_nil
    obtain ⟨b', hb', hkey⟩ := hfirst
    obtain ⟨hmem, hkind'⟩ := mem_assembledBlocks_helper.2 hb'
    obtain ⟨o', ho', hbo'⟩ := exists_output_of_mem hmem
    rwa [eq_of_helper_key hos ho ho' hb hbo' hkind hkind' hkey.symm]
  · exact mem_assembledBlocks ho hb hkind

/-- A helper is in the assembly just if one of the other blocks names it. -/
theorem exists_helper_assembled_iff {helper : Helper} :
    (∃ b ∈ assembledBlocks os, b.kind = .helper ∧ b.key = helper.name) ↔
      ∃ b ∈ assembledBlocks os, b.kind ≠ .helper ∧ StandsIn helper.name.toList b.text.toList := by
  constructor
  · rintro ⟨b, hb, hhelper⟩
    obtain ⟨o, ho, hb⟩ := exists_output_of_mem hb
    obtain ⟨d, hd⟩ := hos o ho
    obtain ⟨t, -, ⟨p⟩⟩ := generate_ok hd
    obtain ⟨r, hr, hkind, hstands⟩ := p.exists_helper_iff.1 ⟨b, hb, hhelper⟩
    exact ⟨r, mem_assembledBlocks ho hr hkind, hkind, hstands⟩
  · rintro ⟨r, hr, hnamed⟩
    obtain ⟨o, ho, hr⟩ := exists_output_of_mem hr
    obtain ⟨d, hd⟩ := hos o ho
    obtain ⟨t, -, ⟨p⟩⟩ := generate_ok hd
    obtain ⟨b, hb, hhelper⟩ := p.exists_helper_iff.2 ⟨r, hr, hnamed⟩
    exact ⟨b, mem_assembledBlocks_of_generated hos ho hb, hhelper⟩

end Generated

/-- An assembly is the header, the first of all equal blocks other than helpers, and the first of all
helpers of one name, in the order in which they stand in the outputs. Outputs without a new block
change nothing. Among outputs of one catalog and settings helpers of one name are equal, so that no
block is lost, and the helpers that are there are those that other blocks name. -/
theorem assemble_keeps_once (os : List Output) :
    ∃ body helpers : List Block,
      assemble os =
        header ++ "\n\n" ++ "\n".intercalate ((body ++ helpers).map Block.text) ∧
      FirstOf id (blocksWhere (·.kind ≠ .helper) os) body ∧
      FirstOf Block.key (blocksWhere (·.kind = .helper) os) helpers ∧
      (∀ os', (∀ o ∈ os', ∀ b ∈ o.blocks, ∃ o' ∈ os, b ∈ o'.blocks) →
        assemble (os ++ os') = assemble os) ∧
      assemble (os ++ os) = assemble os ∧
      ∀ catalog settings, (∀ o ∈ os, ∃ d, generate catalog settings d = .ok o) →
        (∀ o ∈ os, ∀ o' ∈ os, ∀ b ∈ o.blocks, ∀ b' ∈ o'.blocks, b.kind = .helper →
          b'.kind = .helper → b.key = b'.key → b = b') ∧
        (∀ o ∈ os, ∀ b ∈ o.blocks, b ∈ body ++ helpers) ∧
        ∀ helper : Helper, (∃ b ∈ helpers, b.key = helper.name) ↔
          ∃ b ∈ body, StandsIn helper.name.toList b.text.toList := by
  have hbody : ∀ b, b ∈ firstByKey id [] (blocksWhere (·.kind ≠ .helper) os) ↔
      b ∈ assembledBlocks os ∧ b.kind ≠ .helper := by
    intro b
    rw [mem_firstByKey_id, mem_blocksWhere, decide_eq_true_eq]
    refine and_congr_left fun hkind => ⟨fun ⟨o, ho, hb⟩ => ?_, exists_output_of_mem⟩
    exact mem_assembledBlocks ho hb hkind
  have hagain : ∀ os', (∀ o ∈ os', ∀ b ∈ o.blocks, ∃ o' ∈ os, b ∈ o'.blocks) →
      assemble (os ++ os') = assemble os := by
    intro os' h
    unfold assemble
    rw [assembledBlocks_append h]
  refine ⟨_, _, ?_, firstOf_firstByKey _, firstOf_firstByKey _, hagain,
    hagain os fun o ho b hb => ⟨o, ho, hb⟩, fun catalog settings hos => ⟨?_, ?_, ?_⟩⟩
  · unfold assemble joinBlocks
    rw [assembledBlocks_eq]
  · intro o ho o' ho' b hb b' hb' hkind hkind' hkey
    exact eq_of_helper_key hos ho ho' hb hb' hkind hkind' hkey
  · intro o ho b hb
    rw [← assembledBlocks_eq]
    exact mem_assembledBlocks_of_generated hos ho hb
  · intro helper
    simp only [hbody, ← mem_assembledBlocks_helper, and_assoc]
    exact exists_helper_assembled_iff hos

/-- Two shells that read the same helper have it once in their assembly, whole. -/
theorem assemble_keeps_shared :
    let catalog := Catalog.ofList
      [.routeData "A" [.byName "on" (.named "bool")], .routeData "B" [.byName "on" (.named "bool")]]
    ∃ o o', generate catalog {} ⟨"A", .ofShell "A"⟩ = .ok o ∧
      generate catalog {} ⟨"B", .ofShell "B"⟩ = .ok o' ∧
      assemble ([o, o'] ++ [o']) = assemble [o, o'] ∧
      ∃ body helpers, (∃ b ∈ helpers, b.key = Helper.boolReader.name) ∧
        (∀ b ∈ o.blocks ++ o'.blocks, b ∈ body ++ helpers) ∧
        FirstOf Block.key (blocksWhere (·.kind = .helper) [o, o']) helpers ∧
        assemble [o, o'] =
          header ++ "\n\n" ++ "\n".intercalate ((body ++ helpers).map Block.text) := by
  intro catalog
  obtain ⟨o, ho, bs, hbs, hq⟩ := exists_output_of catalog ⟨"A", .ofShell "A"⟩
    (·.any fun b => b.kind = .routeData && namedInOctets Helper.boolReader.name b.text)
    (by decide +kernel)
  obtain ⟨o', ho', -⟩ := exists_output_of catalog ⟨"B", .ofShell "B"⟩ (fun _ => true)
    (by decide +kernel)
  have hos : ∀ r ∈ [o, o'], ∃ d, generate catalog {} d = .ok r :=
    List.forall_mem_cons.2 ⟨⟨_, ho⟩, List.forall_mem_singleton.2 ⟨_, ho'⟩⟩
  obtain ⟨body, helpers, htext, -, hhelpers, hagain, -, hgenerated⟩ := assemble_keeps_once [o, o']
  obtain ⟨-, hkept, hnamed⟩ := hgenerated catalog {} hos
  obtain ⟨b, hb, hb'⟩ := List.any_eq_true.1 hq
  obtain ⟨hroute, hfound⟩ := Bool.and_eq_true_iff.1 hb'
  have hkind : b.kind = .routeData := of_decide_eq_true hroute
  have hbody : b ∈ body := by
    rcases List.mem_append.1 (hkept o (by simp) b (hbs hb)) with hbody | hhelper
    · exact hbody
    · obtain ⟨before, behind, hwhere, -⟩ := hhelpers.first b hhelper
      have hmem : b ∈ blocksWhere (·.kind = .helper) [o, o'] := by
        rw [hwhere]
        simp
      exact absurd (mem_blocksWhere.1 hmem).2 (by simp [hkind])
  refine ⟨o, o', ho, ho', hagain [o'] ?_, body, helpers, ?_, ?_, hhelpers, htext⟩
  · intro r hr b hb
    obtain rfl := List.mem_singleton.1 hr
    exact ⟨r, by simp, hb⟩
  · have hname := Helper.toList_name_ne_nil .boolReader
    exact (hnamed .boolReader).2 ⟨b, hbody, standsIn_of_namedInOctets hname hfound⟩
  · intro b hb
    rcases List.mem_append.1 hb with hb | hb
    · exact hkept o (by simp) b hb
    · exact hkept o' (by simp) b hb

end TypedRoutes.Emission
