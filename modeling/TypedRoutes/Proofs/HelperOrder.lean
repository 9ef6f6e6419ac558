import Mathlib
import TypedRoutes.Proofs.HelperScan

/-!
# The order of helpers

* `StandsAt.name_unique` : two names never stand at one position;
* `Block.Uses`, `FirstUse`, `UsedBefore` : the block that uses a name first and the position in it;
  the order of two names by these;
* `exists_firstUse` : the first position in the text of several blocks is a first use;
* `referenced_pairwise` : the helpers of blocks are found in the order of their first use;
* `ExactHelpers` : the helpers that are emitted for blocks, whatever helpers are among these;
* `helperBlocks_exact` : they are the helpers that the blocks use.

The blocks of helpers themselves are left aside. One of the helpers names the library, so whether it
is emitted at all depends on the path of that.
-/

namespace TypedRoutes.Emission

open Syntax

/-! ## Names at one position -/

/-- Two names made of name characters that stand at one position are the same. -/
theorem StandsAt.name_unique {name name' text : List Char} {position : Nat}
    (hname : ∀ c ∈ name, continuesName c = true) (hname' : ∀ c ∈ name', continuesName c = true)
    (h : StandsAt name text position) (h' : StandsAt name' text position) : name = name' := by
  obtain ⟨before, behind, rfl, hlength, -, hbehind⟩ := h
  obtain ⟨before', behind', htext, hlength', -, hbehind'⟩ := h'
  rw [List.append_assoc, List.append_assoc] at htext
  obtain ⟨rfl, hrest⟩ := List.append_inj htext (hlength.trans hlength'.symm)
  -- If one name went on behind the other, its next character would stand next to the other.
  rcases List.append_eq_append_iff.1 hrest with ⟨more, rfl, rfl⟩ | ⟨more, rfl, rfl⟩
  · cases more with
    | nil => simp
    | cons c more => simp [hname' c (by simp)] at hbehind
  · cases more with
    | nil => simp
    | cons c more => simp [hname c (by simp)] at hbehind'

/-! ## First uses -/

/-- A block other than a helper that has a name. -/
def Block.Uses (b : Block) (name : List Char) : Prop :=
  b.kind ≠ .helper ∧ StandsIn name b.text.toList

/-- A name is used first in the block of a number, at a position of its text. -/
def FirstUse (bs : List Block) (name : List Char) (number position : Nat) : Prop :=
  (∃ b, bs[number]? = some b ∧ b.kind ≠ .helper ∧ FirstAt name b.text.toList position) ∧
    ∀ b ∈ bs.take number, ¬b.Uses name

/-- The first use of a name stands in an earlier block than that of another, or earlier in the same
block. -/
def UsedBefore (bs : List Block) (name name' : List Char) : Prop :=
  ∃ number position number' position', FirstUse bs name number position ∧
    FirstUse bs name' number' position' ∧
    (number < number' ∨ number = number' ∧ position < position')

/-- The text of the blocks that are no helpers. -/
def usedText (bs : List Block) : List Char :=
  (joinBlocks (bs.filter (·.kind ≠ .helper))).toList

/-- Where the text of a block begins in the text of the blocks that are no helpers. -/
def blockStart (bs : List Block) (number : Nat) : Nat :=
  (((bs.take number).filter (·.kind ≠ .helper)).map fun b => b.text.length + 1).sum

section FirstUse

variable {bs : List Block} {b : Block} {name : List Char} {number position : Nat}

theorem firstUse_cons_zero (hkind : b.kind ≠ .helper) (h : FirstAt name b.text.toList position) :
    FirstUse (b :: bs) name 0 position :=
  ⟨⟨b, rfl, hkind, h⟩, nofun⟩

theorem firstUse_cons_succ (hb : ¬b.Uses name) (h : FirstUse bs name number position) :
    FirstUse (b :: bs) name (number + 1) position := by
  refine ⟨h.1, fun c hc => ?_⟩
  rcases List.mem_cons.1 hc with rfl | hc
  · exact hb
  · exact h.2 c hc

theorem usedText_cons_helper (hkind : b.kind = .helper) : usedText (b :: bs) = usedText bs := by
  unfold usedText
  rw [List.filter_cons_of_neg (by simpa using hkind)]

theorem blockStart_cons_helper (hkind : b.kind = .helper) :
    blockStart (b :: bs) (number + 1) = blockStart bs number := by
  unfold blockStart
  rw [List.take_succ_cons, List.filter_cons_of_neg (by simpa using hkind)]

theorem blockStart_cons (hkind : b.kind ≠ .helper) :
    blockStart (b :: bs) (number + 1) = b.text.length + 1 + blockStart bs number := by
  unfold blockStart
  rw [List.take_succ_cons, List.filter_cons_of_pos (by simpa using hkind), List.map_cons,
    List.sum_cons]

/-- The text of blocks is that of the first one, or it goes on behind a line end. -/
theorem usedText_cons (bs : List Block) (hkind : b.kind ≠ .helper) :
    (usedText (b :: bs) = b.text.toList ∧ usedText bs = []) ∨
      usedText (b :: bs) = b.text.toList ++ '\n' :: usedText bs := by
  unfold usedText joinBlocks
  rw [List.filter_cons_of_pos (by simpa using hkind)]
  cases bs.filter (·.kind ≠ .helper) with
  | nil => exact Or.inl (by simp)
  | cons c cs =>
    refine Or.inr ?_
    simp only [String.toList_intercalate, List.map_cons, List.intercalate_cons_cons,
      List.append_assoc]
    rfl

/-- The first position in the text of blocks is that of the first use. -/
theorem exists_firstUse (hname : name ≠ []) (hline : '\n' ∉ name)
    (h : FirstAt name (usedText bs) position) :
    ∃ number offset, FirstUse bs name number offset ∧
      position = blockStart bs number + offset := by
  induction bs generalizing position with
  | nil =>
    obtain ⟨⟨before, behind, htext, -⟩, -⟩ := h
    simp [usedText, joinBlocks, hname] at htext
  | cons b bs ih =>
    by_cases hkind : b.kind = .helper
    · rw [usedText_cons_helper hkind] at h
      obtain ⟨number, offset, huse, rfl⟩ := ih h
      refine ⟨number + 1, offset, firstUse_cons_succ (fun hb => hb.1 hkind) huse, ?_⟩
      rw [blockStart_cons_helper hkind]
    by_cases hhere : StandsIn name b.text.toList
    · obtain ⟨offset, hoffset⟩ := exists_firstAt hhere
      refine ⟨0, offset, firstUse_cons_zero hkind hoffset, ?_⟩
      rw [show blockStart (b :: bs) 0 = 0 from rfl, Nat.zero_add]
      rcases usedText_cons bs hkind with ⟨htext, -⟩ | htext
      · exact h.unique (htext ▸ hoffset)
      · rw [htext] at h
        refine h.unique ⟨(standsAt_append_newline hline).2 (Or.inl hoffset.1), ?_⟩
        intro earlier hearlier hstands
        rcases (standsAt_append_newline hline).1 hstands with hstands | ⟨_, -, rfl⟩
        · exact hoffset.2 earlier hearlier hstands
        · obtain ⟨before, behind, htext, rfl, -⟩ := hoffset.1
          rw [htext] at hearlier
          simp only [List.length_append] at hearlier
          omega
    · have hnot : ∀ k, ¬StandsAt name b.text.toList k := fun k hk =>
        hhere (standsIn_iff_standsAt.2 ⟨k, hk⟩)
      rcases usedText_cons bs hkind with ⟨htext, -⟩ | htext
      · exact absurd (htext ▸ h.1) (hnot _)
      · rw [htext] at h
        obtain ⟨hat, hfirst⟩ := h
        obtain ⟨offset, hoffset, rfl⟩ :=
          ((standsAt_append_newline hline).1 hat).resolve_left (hnot _)
        have hbehind : FirstAt name (usedText bs) offset :=
          ⟨hoffset, fun earlier hearlier hstands => hfirst _ (Nat.add_lt_add_left hearlier _)
            ((standsAt_append_newline hline).2 (Or.inr ⟨earlier, hstands, rfl⟩))⟩
        obtain ⟨number, within, huse, rfl⟩ := ih hbehind
        refine ⟨number + 1, within, firstUse_cons_succ (fun hb => hhere hb.2) huse, ?_⟩
        rw [blockStart_cons hkind, String.length_toList]
        omega

/-- A use ends before the next block begins. -/
theorem FirstUse.lt_blockStart (h : FirstUse bs name number position) {number' : Nat}
    (hlt : number < number') : blockStart bs number + position < blockStart bs number' := by
  obtain ⟨b, hb, hkind, ⟨before, behind, htext, rfl, -⟩, -⟩ := h.1
  have hlength : before.length ≤ b.text.length := by
    rw [← String.length_toList, htext]
    simp only [List.length_append]
    omega
  have hnext : blockStart bs (number + 1) = blockStart bs number + (b.text.length + 1) := by
    unfold blockStart
    rw [List.take_add_one, hb, List.filter_append, List.map_append, List.sum_append]
    simp [hkind]
  have hmono : blockStart bs (number + 1) ≤ blockStart bs number' := by
    unfold blockStart
    have hfront : bs.take (number + 1) <+: bs.take number' := List.take_prefix_take_left hlt
    obtain ⟨more, hmore⟩ := (hfront.filter (·.kind ≠ .helper)).map fun b => b.text.length + 1
    rw [← hmore, List.sum_append]
    omega
  omega

/-- What lies in front of a use is in an earlier block or earlier in the same. -/
theorem FirstUse.behind (h : FirstUse bs name number position) {number' position' : Nat}
    (hlt : blockStart bs number' + position' < blockStart bs number + position) :
    number' < number ∨ number' = number ∧ position' < position := by
  rcases Nat.lt_trichotomy number' number with hnumber | rfl | hnumber
  · exact Or.inl hnumber
  · exact Or.inr ⟨rfl, by omega⟩
  · have := h.lt_blockStart hnumber
    omega

end FirstUse

/-! ## Helpers -/

theorem Helper.continuesName_name (helper : Helper) :
    ∀ c ∈ helper.name.toList, continuesName c = true := by
  have hall : helper.name.toList.all continuesName = true := by
    cases helper <;> decide
  exact List.all_eq_true.1 hall

/-- The helpers of a text in the order of their first positions. -/
theorem referenced_firstAt (text : String) :
    (referenced text).Pairwise fun h h' => ∃ position position',
      FirstAt h.name.toList text.toList position ∧ FirstAt h'.name.toList text.toList position' ∧
        position < position' := by
  unfold referenced
  set found := Helper.all.filterMap fun h => (firstToken? h.name text).map (·, h) with hfound
  have hat : ∀ entry ∈ found, FirstAt entry.2.name.toList text.toList entry.1 := by
    intro entry hentry
    obtain ⟨helper, -, hmap⟩ := List.mem_filterMap.1 hentry
    obtain ⟨position, hposition, rfl⟩ := Option.map_eq_some_iff.1 hmap
    exact (firstToken?_eq_some helper.toList_name_ne_nil).1 hposition
  have hsorted : (found.mergeSort fun a b => a.1 ≤ b.1).Pairwise fun a b => a.1 ≤ b.1 := by
    refine (List.pairwise_mergeSort (fun a b c => ?_) (fun a b => ?_) found).imp of_decide_eq_true
    · simpa using Nat.le_trans
    · simpa using Nat.le_total a.1 b.1
  have hnodup := referenced_nodup text
  unfold referenced at hnodup
  refine List.pairwise_map.2 ((hsorted.and (List.pairwise_map.1 hnodup)).imp_of_mem ?_)
  rintro ⟨position, helper⟩ ⟨position', helper'⟩ hmem hmem' ⟨hle, hne⟩
  have hposition := hat _ (List.mem_mergeSort.1 hmem)
  have hposition' := hat _ (List.mem_mergeSort.1 hmem')
  refine ⟨position, position', hposition, hposition', lt_of_le_of_ne hle fun heq => hne ?_⟩
  obtain rfl : position = position' := heq
  refine Helper.name_inj (String.toList_inj.1 ?_)
  exact StandsAt.name_unique helper.continuesName_name helper'.continuesName_name hposition.1
    hposition'.1

/-- The helpers of blocks in the order of their first use. -/
theorem referenced_pairwise (bs : List Block) :
    (referenced (joinBlocks (bs.filter (·.kind ≠ .helper)))).Pairwise fun h h' =>
      UsedBefore bs h.name.toList h'.name.toList := by
  refine (referenced_firstAt _).imp ?_
  rintro helper helper' ⟨position, position', hfirst, hfirst', hlt⟩
  obtain ⟨number, offset, huse, rfl⟩ :=
    exists_firstUse helper.toList_name_ne_nil helper.newline_notMem_name hfirst
  obtain ⟨number', offset', huse', rfl⟩ :=
    exists_firstUse helper'.toList_name_ne_nil helper'.newline_notMem_name hfirst'
  exact ⟨number, offset, number', offset', huse, huse', huse'.behind hlt⟩

/-- The helpers of blocks are those that a block other than a helper has. -/
theorem mem_referenced_iff_uses {bs : List Block} {helper : Helper} :
    helper ∈ referenced (joinBlocks (bs.filter (·.kind ≠ .helper))) ↔
      ∃ b ∈ bs, b.Uses helper.name.toList := by
  rw [mem_referenced, standsIn_joinBlocks helper.toList_name_ne_nil helper.newline_notMem_name]
  simp only [List.mem_filter, decide_eq_true_eq, and_assoc, Block.Uses]

/-! ## Emission -/

/-- The helpers that are emitted for blocks: each that another block than a helper uses, once, and in
the order of their first use. -/
structure ExactHelpers (tg : Target) (place : Place) (bs : List Block) (used : List Helper) : Prop where
  once : used.Nodup
  named : ∀ helper, helper ∈ used ↔ ∃ b ∈ bs, b.Uses helper.name.toList
  ordered : used.Pairwise fun helper helper' => UsedBefore bs helper.name.toList helper'.name.toList
  /-- What is emitted is one block for each of them. -/
  emitted : ∀ out, helperBlocks tg place bs = .ok out ↔ List.Forall₂ (fun helper b =>
    b.kind = .helper ∧ b.key = helper.name ∧ layOut (helper.code tg) = .ok b.text) used out
  /-- The one that names the library must have a layout with the path of the library in it. -/
  total : (∃ out, helperBlocks tg place bs = .ok out) ↔
    (.queryReader ∈ used → ∃ text, layOut (Helper.queryReaderCode tg) = .ok text)
  /-- Helpers among the blocks make no difference, wherever they stand. -/
  helpers_aside : ∀ bs' : List Block, bs'.filter (·.kind ≠ .helper) = bs.filter (·.kind ≠ .helper) →
    helperBlocks tg place bs' = helperBlocks tg place bs
  /-- The same comes of the blocks with their helpers behind them. -/
  again : ∀ out, helperBlocks tg place bs = .ok out → helperBlocks tg place (bs ++ out) = .ok out

section Emission

variable {tg : Target} {place : Place} {bs : List Block}

/-- The helpers that do not name the library have a layout. -/
theorem exists_layOut_helper (helper : Helper) :
    (∃ text, layOut (helper.code tg) = .ok text) ↔
      (helper = .queryReader → ∃ text, layOut (Helper.queryReaderCode tg) = .ok text) := by
  have hfixed : (layOut Helper.boolReaderCode).toOption.isSome = true ∧
      (layOut Helper.enumCodecCode).toOption.isSome = true := by
    decide +kernel
  have hexists {code : Code} (h : (layOut code).toOption.isSome = true) :
      ∃ text, layOut code = .ok text := by
    obtain ⟨text, htext⟩ := Option.isSome_iff_exists.1 h
    exact ⟨text, toOption_eq_some.1 htext⟩
  cases helper with
  | queryReader => exact ⟨fun h _ => h, fun h => h rfl⟩
  | boolReader => exact ⟨fun _ h => (nomatch h), fun _ => hexists hfixed.1⟩
  | enumCodec => exact ⟨fun _ h => (nomatch h), fun _ => hexists hfixed.2⟩

theorem mapM_block_eq_ok {helpers : List Helper} {out : List Block} :
    (helpers.mapM fun h => block .helper h.name place (h.code tg)) = .ok out ↔
      List.Forall₂ (fun helper b =>
        b.kind = .helper ∧ b.key = helper.name ∧ layOut (helper.code tg) = .ok b.text) helpers out := by
  simp only [mapM_eq_ok, block_eq_ok]

theorem exists_mapM_block {helpers : List Helper} :
    (∃ out, (helpers.mapM fun h => block .helper h.name place (h.code tg)) = .ok out) ↔
      ∀ helper ∈ helpers, ∃ text, layOut (helper.code tg) = .ok text := by
  simp only [mapM_block_eq_ok]
  induction helpers with
  | nil => simp
  | cons helper helpers ih =>
    rw [List.forall_mem_cons, ← ih]
    constructor
    · rintro ⟨_, hout⟩
      cases hout with
      | cons hb hrest => exact ⟨⟨_, hb.2.2⟩, _, hrest⟩
    · rintro ⟨⟨text, htext⟩, out, hout⟩
      exact ⟨⟨.helper, helper.name, text⟩ :: out, .cons ⟨rfl, rfl, htext⟩ hout⟩

theorem helperBlocks_congr {bs' : List Block}
    (h : bs'.filter (·.kind ≠ .helper) = bs.filter (·.kind ≠ .helper)) :
    helperBlocks tg place bs' = helperBlocks tg place bs := by
  unfold helperBlocks
  rw [h]

/-- The helpers that are emitted are those that the blocks use. -/
theorem helperBlocks_exact (tg : Target) (place : Place) (bs : List Block) :
    ∃ used, ExactHelpers tg place bs used := by
  refine ⟨referenced (joinBlocks (bs.filter (·.kind ≠ .helper))), ?_⟩
  constructor
  case once => exact referenced_nodup _
  case named => exact fun _ => mem_referenced_iff_uses
  case ordered => exact referenced_pairwise bs
  case emitted => exact fun _ => mapM_block_eq_ok
  case total =>
    refine exists_mapM_block.trans ?_
    simp only [exists_layOut_helper]
    exact ⟨fun h hmem => h _ hmem rfl, fun h _ hmem heq => h (heq ▸ hmem)⟩
  case helpers_aside => exact fun _ => helperBlocks_congr
  case again =>
    intro out hout
    have hkinds := (helperBlocks_ok hout).2
    have hsame : (bs ++ out).filter (·.kind ≠ .helper) = bs.filter (·.kind ≠ .helper) := by
      have hnone : out.filter (·.kind ≠ .helper) = [] :=
        List.filter_eq_nil_iff.2 (by simpa using hkinds)
      rw [List.filter_append, hnone, List.append_nil]
    rw [helperBlocks_congr hsame, hout]

end Emission

end TypedRoutes.Emission
