import Mathlib.Data.Nat.Find
import TypedRoutes.Proofs.Blocks
import TypedRoutes.Proofs.ByteOrder

/-!
# Helpers that a text names

* `StandsIn`, `StandsAt`, `FirstAt` : a name stands in a text as a whole identifier, at a position, and
  at no earlier one;
* `firstTokenFrom_cons`, `firstTokenFrom_eq_some` : one step of the scan, and what the scan finds;
* `namedInOctets` : the scan on the octets of an ASCII text;
* `standsIn_joinBlocks` : names do not reach from one block into the next;
* `mem_referenced`, `referenced_nodup` : the helpers that are found;
* `Parts.exists_helper_iff`, `Parts.eq_of_helper_key` : an output defines a helper just if another
  block names it, and then once.
-/

namespace TypedRoutes.Emission

/-! ## Positions -/

/-- A name stands in a text, and no character next to it continues a name. -/
def StandsIn (name text : List Char) : Prop :=
  ∃ before behind, text = before ++ name ++ behind ∧
    before.getLast?.any continuesName = false ∧ behind.head?.any continuesName = false

/-- A name stands at a position of a text, and no character next to it continues a name. -/
def StandsAt (name text : List Char) (position : Nat) : Prop :=
  ∃ before behind, text = before ++ name ++ behind ∧ before.length = position ∧
    before.getLast?.any continuesName = false ∧ behind.head?.any continuesName = false

/-- A name stands at a position of a text and nowhere before it. -/
def FirstAt (name text : List Char) (position : Nat) : Prop :=
  StandsAt name text position ∧ ∀ earlier < position, ¬StandsAt name text earlier

section Positions

variable {name text : List Char} {position : Nat}

theorem standsIn_iff_standsAt : StandsIn name text ↔ ∃ position, StandsAt name text position := by
  constructor
  · rintro ⟨before, behind, htext, hbefore, hbehind⟩
    exact ⟨_, before, behind, htext, rfl, hbefore, hbehind⟩
  · rintro ⟨_, before, behind, htext, -, hbefore, hbehind⟩
    exact ⟨before, behind, htext, hbefore, hbehind⟩

theorem FirstAt.standsIn (h : FirstAt name text position) : StandsIn name text :=
  standsIn_iff_standsAt.2 ⟨position, h.1⟩

theorem exists_firstAt (h : StandsIn name text) : ∃ position, FirstAt name text position := by
  classical
  have hex := standsIn_iff_standsAt.1 h
  exact ⟨Nat.find hex, Nat.find_spec hex, fun _ => Nat.find_min hex⟩

theorem FirstAt.unique {position' : Nat} (h : FirstAt name text position)
    (h' : FirstAt name text position') : position = position' := by
  rcases Nat.lt_trichotomy position position' with hlt | rfl | hlt
  · exact absurd h.1 (h'.2 _ hlt)
  · rfl
  · exact absurd h'.1 (h.2 _ hlt)

end Positions

/-! ## The scan -/

section Scan

variable {name text : List Char} {inName : Bool}

theorem afterName_eq_some {cs behind : List Char} :
    afterName name cs = some behind ↔ cs = name ++ behind := by
  fun_induction afterName name cs with
  | case1 cs => simp [eq_comm]
  | case2 n ns cs ih => simp [ih]
  | case3 n ns c cs hne => simp [Ne.symm hne]
  | case4 n ns => simp

/-- Whether the character before a position continues a name, where `inName` says it of the beginning. -/
def endsInName (inName : Bool) (before : List Char) : Bool :=
  before.foldl (fun _ c => continuesName c) inName

theorem endsInName_eq (inName : Bool) (before : List Char) :
    endsInName inName before = (before.getLast?.map continuesName).getD inName := by
  induction before generalizing inName with
  | nil => rfl
  | cons c cs ih =>
    have hstep : endsInName inName (c :: cs) = endsInName (continuesName c) cs := rfl
    rw [hstep, ih, List.getLast?_cons]
    cases cs.getLast? <;> rfl

/-- A name stands at a position, where `inName` says whether a name goes on before the text. -/
def StandsFrom (inName : Bool) (name text : List Char) (position : Nat) : Prop :=
  ∃ before behind, text = before ++ name ++ behind ∧ before.length = position ∧
    endsInName inName before = false ∧ behind.head?.any continuesName = false

theorem standsFrom_false {position : Nat} :
    StandsFrom false name text position ↔ StandsAt name text position := by
  have hbefore : ∀ before, endsInName false before = before.getLast?.any continuesName := by
    intro before
    rw [endsInName_eq]
    cases before.getLast? <;> rfl
  unfold StandsFrom StandsAt
  simp only [hbefore]

theorem standsFrom_zero :
    StandsFrom inName name text 0 ↔
      inName = false ∧ ∃ behind, text = name ++ behind ∧ behind.head?.any continuesName = false := by
  constructor
  · rintro ⟨before, behind, rfl, hlength, hbefore, hbehind⟩
    obtain rfl := List.eq_nil_of_length_eq_zero hlength
    exact ⟨hbefore, behind, rfl, hbehind⟩
  · rintro ⟨hbefore, behind, rfl, hbehind⟩
    exact ⟨[], behind, rfl, rfl, hbefore, hbehind⟩

theorem standsFrom_succ {c : Char} {position : Nat} :
    StandsFrom inName name (c :: text) (position + 1) ↔
      StandsFrom (continuesName c) name text position := by
  constructor
  · rintro ⟨before, behind, htext, hlength, hbefore, hbehind⟩
    cases before with
    | nil => cases hlength
    | cons d before =>
      obtain ⟨rfl, rfl⟩ := List.cons.inj htext
      exact ⟨before, behind, rfl, Nat.succ.inj hlength, hbefore, hbehind⟩
  · rintro ⟨before, behind, rfl, rfl, hbefore, hbehind⟩
    exact ⟨c :: before, behind, rfl, rfl, hbefore, hbehind⟩

/-- The scan stops at a character if the name stands there, and else goes on behind it. -/
theorem firstTokenFrom_cons (inName : Bool) (name : List Char) (c : Char) (text : List Char)
    (start : Nat) :
    (StandsFrom inName name (c :: text) 0 ∧
        firstTokenFrom name inName start (c :: text) = some start) ∨
      (¬StandsFrom inName name (c :: text) 0 ∧
        firstTokenFrom name inName start (c :: text) =
          firstTokenFrom name (continuesName c) (start + 1) text) := by
  rw [standsFrom_zero, firstTokenFrom]
  simp only [← afterName_eq_some]
  cases afterName name (c :: text) with
  | none => exact Or.inr ⟨by simp, rfl⟩
  | some behind =>
    cases inName with
    | true => exact Or.inr ⟨by simp, by cases behind <;> rfl⟩
    | false =>
      cases behind with
      | nil => exact Or.inl ⟨⟨rfl, [], rfl, rfl⟩, rfl⟩
      | cons d behind => cases hd : continuesName d <;> simp [hd]

/-- The scan finds the first position where the name stands. -/
theorem firstTokenFrom_eq_some (hname : name ≠ []) {start found : Nat} :
    firstTokenFrom name inName start text = some found ↔
      ∃ position, found = start + position ∧ StandsFrom inName name text position ∧
        ∀ earlier < position, ¬StandsFrom inName name text earlier := by
  induction text generalizing inName start with
  | nil =>
    refine ⟨nofun, ?_⟩
    rintro ⟨position, -, ⟨before, behind, htext, -⟩, -⟩
    simp [hname] at htext
  | cons c text ih =>
    rcases firstTokenFrom_cons inName name c text start with
      ⟨hhere, hscan⟩ | ⟨hhere, hscan⟩
    · rw [hscan, Option.some_inj]
      constructor
      · rintro rfl
        exact ⟨0, rfl, hhere, nofun⟩
      · rintro ⟨position, rfl, -, hfirst⟩
        cases position with
        | zero => rfl
        | succ position => exact absurd hhere (hfirst 0 (Nat.succ_pos _))
    · rw [hscan, ih]
      constructor
      · rintro ⟨position, rfl, hstands, hfirst⟩
        refine ⟨position + 1, by omega, standsFrom_succ.2 hstands, fun earlier hearlier => ?_⟩
        cases earlier with
        | zero => exact hhere
        | succ earlier => exact fun h => hfirst earlier (by omega) (standsFrom_succ.1 h)
      · rintro ⟨position, rfl, hstands, hfirst⟩
        cases position with
        | zero => exact absurd hstands hhere
        | succ position =>
          refine ⟨position, by omega, standsFrom_succ.1 hstands, fun earlier hearlier h => ?_⟩
          exact hfirst (earlier + 1) (by omega) (standsFrom_succ.2 h)

end Scan

theorem firstToken?_eq_some {name text : String} (hname : name.toList ≠ []) {position : Nat} :
    firstToken? name text = some position ↔ FirstAt name.toList text.toList position := by
  unfold firstToken? FirstAt
  rw [firstTokenFrom_eq_some hname]
  simp [standsFrom_false]

theorem isSome_firstToken? {name text : String} (hname : name.toList ≠ []) :
    (firstToken? name text).isSome ↔ StandsIn name.toList text.toList := by
  simp only [Option.isSome_iff_exists, firstToken?_eq_some hname]
  exact ⟨fun ⟨_, h⟩ => h.standsIn, exists_firstAt⟩

/-- Whether a text is ASCII and names something as a whole, read off its octets. -/
def namedInOctets (name text : String) : Bool :=
  -- decoding a text that was put together piece by piece takes a time quadratic in its length
  let octets := text.toByteArray.data.toList
  octets.all (·.toNat < 128) &&
    (firstTokenFrom name.toList false 0 (octets.map fun o => Char.ofNat o.toNat)).isSome

theorem standsIn_of_namedInOctets {name text : String} (hname : name.toList ≠ [])
    (h : namedInOctets name text) : StandsIn name.toList text.toList := by
  obtain ⟨hascii, hfound⟩ := Bool.and_eq_true_iff.1 h
  rw [← isSome_firstToken? hname, firstToken?, Text.toList_of_octets hascii]
  exact hfound

/-! ## Texts of several blocks -/

section Blocks

variable {name : List Char}

theorem continuesName_newline : continuesName '\n' = false := by
  decide

/-- No name reaches over the end of a line. -/
theorem standsAt_append_newline (hline : '\n' ∉ name) {a b : List Char} {position : Nat} :
    StandsAt name (a ++ '\n' :: b) position ↔
      StandsAt name a position ∨
        ∃ offset, StandsAt name b offset ∧ position = a.length + 1 + offset := by
  constructor
  · rintro ⟨before, behind, hsplit, rfl, hbefore, hbehind⟩
    rcases List.append_eq_append_iff.1 hsplit with ⟨as, hname, hrest⟩ | ⟨bs, ha, hrest⟩
    · cases as with
      | nil =>
        refine Or.inl ⟨before, [], ?_, rfl, hbefore, rfl⟩
        rw [List.append_nil, hname, List.append_nil]
      | cons c as =>
        obtain ⟨rfl, hb⟩ := List.cons.inj hrest
        rcases List.append_eq_append_iff.1 hname with ⟨cs, -, hname⟩ | ⟨cs, hbef, hname⟩
        · exact (hline (by simp [hname])).elim
        · cases cs with
          | nil =>
            rw [List.nil_append] at hname
            exact (hline (hname ▸ List.mem_cons_self)).elim
          | cons d cs =>
            obtain ⟨rfl, has⟩ := List.cons.inj hname
            refine Or.inr ⟨cs.length, ⟨cs, behind, by rw [hb, has]; rfl, rfl, ?_, hbehind⟩, ?_⟩
            · rw [hbef, List.getLast?_append, List.getLast?_cons] at hbefore
              cases h : cs.getLast? <;> simp_all
            · rw [hbef, List.length_append, List.length_cons]
              omega
    · refine Or.inl ⟨before, bs, ha, rfl, hbefore, ?_⟩
      rw [hrest] at hbehind
      cases bs <;> simp_all
  · rintro (⟨before, behind, rfl, rfl, hbefore, hbehind⟩ |
      ⟨_, ⟨before, behind, rfl, rfl, hbefore, hbehind⟩, rfl⟩)
    · refine ⟨before, behind ++ '\n' :: b, by simp, rfl, hbefore, ?_⟩
      cases behind <;> simp_all [continuesName_newline]
    · refine ⟨a ++ '\n' :: before, behind, by simp, by simp; omega, ?_, hbehind⟩
      rw [List.getLast?_append, List.getLast?_cons]
      cases h : before.getLast? <;> simp_all [continuesName_newline]

theorem standsIn_append_newline (hline : '\n' ∉ name) {a b : List Char} :
    StandsIn name (a ++ '\n' :: b) ↔ StandsIn name a ∨ StandsIn name b := by
  simp only [standsIn_iff_standsAt, standsAt_append_newline hline, exists_or]
  exact or_congr_right ⟨fun ⟨_, offset, h, _⟩ => ⟨offset, h⟩, fun ⟨offset, h⟩ => ⟨_, offset, h, rfl⟩⟩

theorem standsIn_intercalate (hname : name ≠ []) (hline : '\n' ∉ name) {ls : List (List Char)} :
    StandsIn name (['\n'].intercalate ls) ↔ ∃ l ∈ ls, StandsIn name l := by
  induction ls with
  | nil => simp [StandsIn, List.intercalate, hname]
  | cons l ls ih =>
    cases ls with
    | nil => simp [List.intercalate]
    | cons l' ls =>
      rw [List.intercalate_cons_cons, List.append_assoc, List.singleton_append,
        standsIn_append_newline hline, ih]
      simp

theorem standsIn_joinBlocks (hname : name ≠ []) (hline : '\n' ∉ name) {bs : List Block} :
    StandsIn name (joinBlocks bs).toList ↔ ∃ b ∈ bs, StandsIn name b.text.toList := by
  unfold joinBlocks
  rw [String.toList_intercalate]
  refine (standsIn_intercalate hname hline).trans ?_
  simp

end Blocks

/-! ## Helpers -/

namespace Helper

theorem toList_name_ne_nil (helper : Helper) : helper.name.toList ≠ [] := by
  cases helper <;> decide

theorem newline_notMem_name (helper : Helper) : '\n' ∉ helper.name.toList := by
  cases helper <;> decide

theorem name_inj {helper helper' : Helper} (h : helper.name = helper'.name) : helper = helper' := by
  cases helper <;> cases helper' <;> first | rfl | exact absurd h (by decide)

end Helper

theorem mem_referenced {helper : Helper} {text : String} :
    helper ∈ referenced text ↔ StandsIn helper.name.toList text.toList := by
  have hall : helper ∈ Helper.all := by
    cases helper <;> decide
  rw [← isSome_firstToken? helper.toList_name_ne_nil]
  unfold referenced
  simp only [List.mem_map, List.mem_mergeSort, List.mem_filterMap, Option.map_eq_some_iff]
  constructor
  · rintro ⟨-, ⟨h, -, position, hposition, rfl⟩, rfl⟩
    exact Option.isSome_of_eq_some hposition
  · intro hsome
    obtain ⟨position, hposition⟩ := Option.isSome_iff_exists.1 hsome
    exact ⟨(position, helper), ⟨helper, hall, position, hposition, rfl⟩, rfl⟩

theorem referenced_nodup (text : String) : (referenced text).Nodup := by
  unfold referenced
  refine (List.Perm.map _ (List.mergeSort_perm _ _)).nodup_iff.2 ?_
  have hfound : (Helper.all.filterMap fun h => (firstToken? h.name text).map (·, h)).map Prod.snd =
      Helper.all.filter fun h => (firstToken? h.name text).isSome := by
    rw [List.map_filterMap, ← List.filterMap_eq_filter]
    congr 1
    funext h
    cases hat : firstToken? h.name text <;> simp [Option.guard, hat]
  rw [hfound]
  exact List.Nodup.filter _ (by decide)

namespace Parts

variable {catalog : Catalog} {settings : Settings} {d : Declaration} {t : RouteTree} {o : Output}
  (p : Parts catalog settings d t o)

include p

/-- A helper is defined just if it is named outside the helpers. -/
theorem exists_helper_iff {helper : Helper} :
    (∃ b ∈ o.blocks, b.kind = .helper ∧ b.key = helper.name) ↔
      ∃ b ∈ o.blocks, b.kind ≠ .helper ∧ StandsIn helper.name.toList b.text.toList := by
  have hdefined : (∃ b ∈ o.blocks, b.kind = .helper ∧ b.key = helper.name) ↔
      helper.name ∈ p.helpers.map Block.key := by
    simp only [List.mem_map, ← p.mem_helpers, and_assoc]
  have hothers : ∀ {b}, b ∈ (p.getter :: p.nodes).filter (·.kind ≠ .helper) ↔
      b ∈ o.blocks ∧ b.kind ≠ .helper := by
    intro b
    rw [List.mem_filter, decide_eq_true_eq, p.mem_blocks, List.mem_cons]
    refine and_congr_left fun hkind => ?_
    have hnot : b ∉ p.helpers := fun hb => hkind (p.helpers_kind b hb)
    simp [hnot]
  have hnamed : helper.name ∈ p.helpers.map Block.key ↔
      helper ∈ referenced (joinBlocks ((p.getter :: p.nodes).filter (·.kind ≠ .helper))) := by
    rw [p.helpers_key, List.mem_map]
    refine ⟨fun ⟨helper', hmem, hname⟩ => Helper.name_inj hname ▸ hmem, fun hmem => ?_⟩
    exact ⟨helper, hmem, rfl⟩
  rw [hdefined, hnamed, mem_referenced,
    standsIn_joinBlocks helper.toList_name_ne_nil helper.newline_notMem_name]
  simp only [hothers, and_assoc]

/-- A helper is defined once. -/
theorem eq_of_helper_key {b b' : Block} (hb : b ∈ o.blocks) (hkind : b.kind = .helper)
    (hb' : b' ∈ o.blocks) (hkind' : b'.kind = .helper) (hkey : b.key = b'.key) : b = b' := by
  have hnodup : (p.helpers.map Block.key).Nodup := by
    rw [p.helpers_key]
    exact (referenced_nodup _).map fun _ _ => Helper.name_inj
  have hmem := p.mem_helpers.1 ⟨hb, hkind⟩
  have hmem' := p.mem_helpers.1 ⟨hb', hkind'⟩
  exact List.inj_on_of_nodup_map hnodup hmem hmem' hkey

end Parts

end TypedRoutes.Emission
