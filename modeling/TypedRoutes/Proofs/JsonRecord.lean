import TypedRoutes.Json.Record
import TypedRoutes.Proofs.JsonText

/-!
# Records in JSON with members left out

* `Abridged j k` : `k` is `j` without some members, in any object of it, that hold false, null or
  an empty list;
* `AbridgedMembers.lookup` : a member of an abridged object is there, or was left out;
* `fields_abridged`, `tagged_abridged` : the fields and the tag of an abridged object;
* `get_abridged`, `getOr_abridged`, `getOr_list`, … : what is read from an abridged object, with what
  was left out as the fallback.
-/

namespace TypedRoutes.Json

/-! ## Leaving members out -/

/-- The values for which a member may be left out. -/
def isUnset : Json → Bool
  | null => true
  | bool b => !b
  | array items => items.isEmpty
  | _ => false

/-- A value that has no others in it, and is no number. -/
def isLeaf : Json → Bool
  | null => true
  | bool _ => true
  | string _ => true
  | _ => false

mutual

/-- `Abridged j k` : `k` is `j` with some members left out. -/
inductive Abridged : Json → Json → Prop
  | leaf {j : Json} : j.isLeaf = true → Abridged j j
  | array {js ks : List Json} : AbridgedAll js ks → Abridged (array js) (array ks)
  | object {ms ns : List (String × Json)} : AbridgedMembers ms ns → Abridged (object ms) (object ns)

inductive AbridgedAll : List Json → List Json → Prop
  | nil : AbridgedAll [] []
  | cons {j k : Json} {js ks : List Json} :
      Abridged j k → AbridgedAll js ks → AbridgedAll (j :: js) (k :: ks)

inductive AbridgedMembers : List (String × Json) → List (String × Json) → Prop
  | nil : AbridgedMembers [] []
  | keep {name : String} {j k : Json} {ms ns : List (String × Json)} :
      Abridged j k → AbridgedMembers ms ns → AbridgedMembers ((name, j) :: ms) ((name, k) :: ns)
  | drop {name : String} {j : Json} {ms ns : List (String × Json)} :
      j.isUnset = true → AbridgedMembers ms ns → AbridgedMembers ((name, j) :: ms) ns

end

theorem isNumberless_of_isLeaf {j : Json} (h : j.isLeaf = true) : j.isNumberless = true := by
  cases j <;> first | rfl | cases h

mutual

/-- What is abridged has no numbers in it. -/
theorem Abridged.isNumberless : ∀ {j k : Json}, Abridged j k → k.isNumberless = true
  | _, _, .leaf h => isNumberless_of_isLeaf h
  | _, _, .array h => h.areNumberless
  | _, _, .object h => h.membersNumberless

theorem AbridgedAll.areNumberless :
    ∀ {js ks : List Json}, AbridgedAll js ks → areNumberless ks = true
  | _, _, .nil => rfl
  | _, _, .cons h hs => Bool.and_eq_true_iff.2 ⟨h.isNumberless, hs.areNumberless⟩

theorem AbridgedMembers.membersNumberless :
    ∀ {ms ns : List (String × Json)}, AbridgedMembers ms ns → membersNumberless ns = true
  | _, _, .nil => rfl
  | _, _, .keep h hs => Bool.and_eq_true_iff.2 ⟨h.isNumberless, hs.membersNumberless⟩
  | _, _, .drop _ hs => hs.membersNumberless

end

mutual

/-- Nothing has to be left out. -/
theorem Abridged.refl : ∀ {j : Json}, j.isNumberless = true → Abridged j j
  | null, _ => .leaf rfl
  | bool _, _ => .leaf rfl
  | string _, _ => .leaf rfl
  | array _, h => .array (.refl h)
  | object _, h => .object (.refl h)

theorem AbridgedAll.refl : ∀ {js : List Json}, areNumberless js = true → AbridgedAll js js
  | [], _ => .nil
  | _ :: _, h =>
    have ⟨hj, hjs⟩ := Bool.and_eq_true_iff.1 h
    .cons (.refl hj) (.refl hjs)

theorem AbridgedMembers.refl :
    ∀ {ms : List (String × Json)}, membersNumberless ms = true → AbridgedMembers ms ms
  | [], _ => .nil
  | (_, _) :: _, h =>
    have ⟨hj, hms⟩ := Bool.and_eq_true_iff.1 h
    .keep (.refl hj) (.refl hms)

end

theorem AbridgedAll.exists_of_mem {js ks : List Json} {k : Json} (h : AbridgedAll js ks)
    (hk : k ∈ ks) : ∃ j ∈ js, Abridged j k := by
  induction js generalizing ks with
  | nil => cases h; cases hk
  | cons j js ih =>
    cases h with
    | cons hfirst hrest =>
      rcases List.mem_cons.1 hk with rfl | hk
      · exact ⟨j, List.mem_cons_self, hfirst⟩
      · obtain ⟨i, hi, hik⟩ := ih hrest hk
        exact ⟨i, .tail _ hi, hik⟩

/-! ## Nesting -/

theorem depth_le_depthAll {k : Json} {ks : List Json} (h : k ∈ ks) : k.depth ≤ depthAll ks := by
  induction ks with
  | nil => cases h
  | cons i ks ih =>
    rcases List.mem_cons.1 h with rfl | h
    · exact Nat.le_max_left _ _
    · exact Nat.le_trans (ih h) (Nat.le_max_right _ _)

theorem depth_le_depthMembers {name : String} {k : Json} {ns : List (String × Json)}
    (h : (name, k) ∈ ns) : k.depth ≤ depthMembers ns := by
  induction ns with
  | nil => cases h
  | cons n ns ih =>
    rcases List.mem_cons.1 h with rfl | h
    · exact Nat.le_max_left _ _
    · exact Nat.le_trans (ih h) (Nat.le_max_right _ _)

/-! ## Members of abridged objects -/

namespace AbridgedMembers

variable {ms ns : List (String × Json)} {name : String} {j : Json}

/-- A member that holds nothing may be thought of as left out. -/
theorem restore (ms : List (String × Json)) {ms' : List (String × Json)} (hj : j.isUnset = true)
    (h : AbridgedMembers (ms ++ ms') ns) : AbridgedMembers (ms ++ (name, j) :: ms') ns := by
  induction ms generalizing ns with
  | nil => exact .drop hj h
  | cons m ms ih =>
    cases h with
    | keep hk h => exact .keep hk (ih h)
    | drop hk h => exact .drop hk (ih h)

theorem keys_sublist (h : AbridgedMembers ms ns) :
    (ns.map Prod.fst).Sublist (ms.map Prod.fst) := by
  induction ms generalizing ns with
  | nil => cases h; exact .slnil
  | cons m ms ih =>
    cases h with
    | keep _ h => exact (ih h).cons_cons _
    | drop _ h => exact (ih h).cons _

theorem exists_of_mem {k : Json} (h : AbridgedMembers ms ns) (hk : (name, k) ∈ ns) :
    ∃ j, (name, j) ∈ ms ∧ Abridged j k := by
  induction ms generalizing ns with
  | nil => cases h; cases hk
  | cons m ms ih =>
    cases h with
    | keep hfirst hrest =>
      rcases List.mem_cons.1 hk with heq | hk
      · cases heq
        exact ⟨_, List.mem_cons_self, hfirst⟩
      · obtain ⟨i, hi, hik⟩ := ih hrest hk
        exact ⟨i, .tail _ hi, hik⟩
    | drop _ hrest =>
      obtain ⟨i, hi, hik⟩ := ih hrest hk
      exact ⟨i, .tail _ hi, hik⟩

theorem lookup_eq_none (h : AbridgedMembers ms ns) (hname : name ∉ ms.map Prod.fst) :
    ns.lookup name = none := by
  rw [List.lookup_eq_none_iff]
  rintro ⟨k, i⟩ hmem
  have hk : k ∈ ms.map Prod.fst := h.keys_sublist.subset (List.mem_map_of_mem hmem)
  exact bne_iff_ne.2 fun heq => hname (heq ▸ hk)

/-- A member of an abridged object is there, abridged itself, or was left out. -/
theorem lookup (h : AbridgedMembers ms ns) (hnodup : (ms.map Prod.fst).Nodup)
    (hj : (name, j) ∈ ms) :
    (∃ k, ns.lookup name = some k ∧ (name, k) ∈ ns ∧ Abridged j k) ∨
      ns.lookup name = none ∧ j.isUnset = true := by
  induction ms generalizing ns with
  | nil => cases hj
  | cons m ms ih =>
    have ⟨hfirst, hrest⟩ := List.nodup_cons.1 hnodup
    rcases List.mem_cons.1 hj with rfl | hmem
    · cases h with
      | keep hk h => exact .inl ⟨_, List.lookup_cons_self, List.mem_cons_self, hk⟩
      | drop hunset h => exact .inr ⟨h.lookup_eq_none hfirst, hunset⟩
    · have hne : name ≠ m.1 := fun heq => hfirst (heq ▸ List.mem_map_of_mem hmem)
      cases h with
      | @keep _ _ k _ ns hk h =>
        rcases ih h hrest hmem with ⟨k', hlookup, hin, hk'⟩ | ⟨hlookup, hunset⟩
        · refine .inl ⟨k', ?_, List.mem_cons_of_mem _ hin, hk'⟩
          rw [List.lookup_cons, beq_false_of_ne hne, hlookup]
        · refine .inr ⟨?_, hunset⟩
          rw [List.lookup_cons, beq_false_of_ne hne, hlookup]
      | drop _ h => exact ih h hrest hmem

/-- A text is never left out. -/
theorem cons_string {s : String} (h : AbridgedMembers ((name, string s) :: ms) ns) :
    ∃ ns', ns = (name, string s) :: ns' ∧ AbridgedMembers ms ns' := by
  cases h with
  | keep hk h =>
    cases hk
    exact ⟨_, rfl, h⟩
  | drop hunset _ => cases hunset

end AbridgedMembers

/-! ## Fields and tags -/

theorem onceEach_of_nodup (names : List String) {ns : List (String × Json)}
    (h : (ns.map Prod.fst).Nodup) : onceEach names ns = true := by
  induction ns with
  | nil => rfl
  | cons n ns ih =>
    have ⟨hfirst, hrest⟩ := List.nodup_cons.1 h
    have hany : ns.any (fun m => m.1 = n.1) = false := by
      rw [List.any_eq_false]
      intro m hm heq
      exact hfirst (of_decide_eq_true heq ▸ List.mem_map_of_mem hm)
    rw [onceEach, hany, ih hrest]
    simp

section Records

variable {ms ns : List (String × Json)}

/-- All members of an abridged record are fields of it. -/
theorem fields_abridged {names : List String} (closed : Bool) (h : AbridgedMembers ms ns)
    (hnodup : (ms.map Prod.fst).Nodup) (hnames : ms.map Prod.fst ⊆ names) :
    fields names closed (object ns) = some ns := by
  have hall : ∀ m ∈ ns, names.contains m.1 = true := fun m hm =>
    List.contains_iff_mem.2 (hnames (h.keys_sublist.subset (List.mem_map_of_mem hm)))
  have hclosed : (ns.any fun m => !names.contains m.1) = false := by
    rw [List.any_eq_false]
    intro m hm hno
    rw [hall m hm] at hno
    cases hno
  have honce := onceEach_of_nodup names (h.keys_sublist.nodup hnodup)
  simp only [fields, honce, hclosed, Bool.and_false, Bool.not_false, Bool.and_self, if_true]
  exact congrArg some (List.filter_eq_self.2 hall)

/-- The first member of an abridged record as a record of its own. -/
theorem fields_head {name : String} (j : Json) (h : AbridgedMembers ms ns)
    (hnodup : (name :: ms.map Prod.fst).Nodup) :
    fields [name] false (object ((name, j) :: ns)) = some [(name, j)] := by
  have ⟨hname, hrest⟩ := List.nodup_cons.1 hnodup
  have hnotMem : name ∉ ns.map Prod.fst := fun hmem => hname (h.keys_sublist.subset hmem)
  have honce : onceEach [name] ((name, j) :: ns) = true :=
    onceEach_of_nodup _ (List.nodup_cons.2 ⟨hnotMem, h.keys_sublist.nodup hrest⟩)
  have hothers : ns.filter (fun m => [name].contains m.1) = [] := by
    rw [List.filter_eq_nil_iff]
    intro m hm hcontains
    exact hnotMem (List.mem_singleton.1 (List.contains_iff_mem.1 hcontains) ▸
      List.mem_map_of_mem hm)
  simp only [fields, honce, Bool.false_and, Bool.not_false, Bool.and_self, if_true]
  rw [List.filter_cons_of_pos (by simp)]
  exact congrArg (fun ms => some ((name, j) :: ms)) hothers

theorem filter_key_ne (h : AbridgedMembers ms ns) {name : String} (hname : name ∉ ms.map Prod.fst) :
    ns.filter (fun m => m.1 ≠ name) = ns := by
  refine List.filter_eq_self.2 fun m hm => decide_eq_true fun heq => hname ?_
  exact heq ▸ h.keys_sublist.subset (List.mem_map_of_mem hm)

/-- The tag of an abridged record, and the record behind it. -/
theorem tagged_abridged {name : String} (tag : Json) (h : AbridgedMembers ms ns)
    (hnodup : (name :: ms.map Prod.fst).Nodup) :
    tagged name (object ((name, tag) :: ns)) = some (tag, object ns) := by
  have ⟨hname, hrest⟩ := List.nodup_cons.1 hnodup
  have honce : onceEach [name] ((name, tag) :: ns) = true :=
    onceEach_of_nodup _ (List.nodup_cons.2
      ⟨fun hmem => hname (h.keys_sublist.subset hmem), h.keys_sublist.nodup hrest⟩)
  have hfilter : ((name, tag) :: ns).filter (fun m => m.1 ≠ name) = ns := by
    rw [List.filter_cons_of_neg (by simp), filter_key_ne h hname]
  simp only [tagged, List.lookup_cons_self, honce, Option.bind_eq_bind, Option.bind_some, if_true]
  exact congrArg (fun ms => some (tag, object ms)) hfilter

/-! ## Reading fields -/

variable {α : Type} {name : String} {read : Json → Option α}

/-- A field that cannot be left out. -/
theorem get_abridged {j : Json} {a : α} (h : AbridgedMembers ms ns)
    (hnodup : (ms.map Prod.fst).Nodup) (hmem : (name, j) ∈ ms) (hset : j.isUnset = false)
    (hread : ∀ k, Abridged j k → read k = some a) : Fields.get ns name read = some a := by
  rcases h.lookup hnodup hmem with ⟨k, hk, -, hjk⟩ | ⟨-, hunset⟩
  · unfold Fields.get
    rw [hk]
    exact hread k hjk
  · rw [hset] at hunset
    cases hunset

theorem asString_abridged {s : String} {k : Json} (h : Abridged (string s) k) :
    asString k = some s := by
  cases h
  rfl

theorem get_string {s : String} (h : AbridgedMembers ms ns) (hnodup : (ms.map Prod.fst).Nodup)
    (hmem : (name, string s) ∈ ms) : Fields.get ns name asString = some s :=
  get_abridged h hnodup hmem rfl fun _ => asString_abridged

/-- A field with a fallback, if the fallback is what may be left out. -/
theorem getOr_abridged {j : Json} {a fallback : α} (h : AbridgedMembers ms ns)
    (hnodup : (ms.map Prod.fst).Nodup) (hmem : (name, j) ∈ ms)
    (hread : ∀ k, (name, k) ∈ ns → Abridged j k → read k = some a)
    (hunset : j.isUnset = true → a = fallback) : Fields.getOr ns name read fallback = some a := by
  rcases h.lookup hnodup hmem with ⟨k, hk, hkmem, hjk⟩ | ⟨hnone, hj⟩
  · unfold Fields.getOr
    rw [hk]
    exact hread k hkmem hjk
  · unfold Fields.getOr
    rw [hnone, hunset hj]

theorem getOr_bool {b : Bool} (h : AbridgedMembers ms ns) (hnodup : (ms.map Prod.fst).Nodup)
    (hmem : (name, bool b) ∈ ms) : Fields.getOr ns name asBool false = some b := by
  refine getOr_abridged h hnodup hmem (fun k _ hk => ?_) fun hunset => ?_
  · cases hk
    rfl
  · simpa [isUnset] using hunset

theorem getOr_nullable {o : Option String} (h : AbridgedMembers ms ns)
    (hnodup : (ms.map Prod.fst).Nodup) (hmem : (name, ofOption string o) ∈ ms) :
    Fields.getOr ns name (asNullable asString) none = some o := by
  cases o with
  | none =>
    refine getOr_abridged h hnodup hmem (fun k _ hk => ?_) fun _ => rfl
    cases hk
    rfl
  | some s =>
    refine getOr_abridged h hnodup hmem (fun k _ hk => ?_) fun hunset => by cases hunset
    cases hk
    rfl

/-- The items of an abridged list are read one by one. -/
theorem mapM_abridged {f : α → Json} {ts : List α} {ks : List Json}
    (h : AbridgedAll (ts.map f) ks)
    (hread : ∀ t ∈ ts, ∀ k ∈ ks, Abridged (f t) k → read k = some t) :
    ks.mapM read = some ts := by
  induction ts generalizing ks with
  | nil => cases h; rfl
  | cons t ts ih =>
    cases h with
    | @cons _ k _ ks hk hks =>
      have hfirst := hread t List.mem_cons_self k List.mem_cons_self hk
      have hrest := ih hks fun t ht k hk => hread t (.tail _ ht) k (.tail _ hk)
      rw [List.mapM_cons, hfirst, hrest]
      rfl

theorem asList_abridged {f : α → Json} {ts : List α} {k : Json}
    (h : Abridged (array (ts.map f)) k)
    (hread : ∀ t ∈ ts, ∀ i, i.depth < k.depth → Abridged (f t) i → read i = some t) :
    asList read k = some ts := by
  cases h with
  | leaf hleaf => cases hleaf
  | array h =>
    refine mapM_abridged h fun t ht i hi hti => hread t ht i ?_ hti
    exact Nat.lt_succ_of_le (depth_le_depthAll hi)

theorem getOr_list {f : α → Json} {ts : List α} (h : AbridgedMembers ms ns)
    (hnodup : (ms.map Prod.fst).Nodup) (hmem : (name, array (ts.map f)) ∈ ms)
    (hread : ∀ t ∈ ts, ∀ i, i.depth < depthMembers ns → Abridged (f t) i → read i = some t) :
    Fields.getOr ns name (asList read) [] = some ts := by
  refine getOr_abridged h hnodup hmem (fun k hk hjk => ?_) fun hunset => ?_
  · refine asList_abridged hjk fun t ht i hi => hread t ht i ?_
    exact Nat.lt_of_lt_of_le hi (depth_le_depthMembers hk)
  · simpa [isUnset] using hunset

end Records

end TypedRoutes.Json
