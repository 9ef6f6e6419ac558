import Mathlib.Data.Finset.Card
import Mathlib.Data.List.Sort
import TypedRoutes.Proofs.JsonSchema
import TypedRoutes.Proofs.ByteOrder

/-!
# Catalogs as maps of which the last write counts

* `find?_insert`, `find?_ofList` : what is found under a name after types were put in;
* `mem_types_iff`, `eq_of_find?` : a catalog has no more to it than what is found under each name;
* `Change`, `ofChanges` : the catalogs that come of the empty one; `ofChanges_eq` : they are those
  of the recorded types in a row;
* `Holds` : a catalog is the map of recorded types, seen as a list, by its names and by its size;
* `ofChanges_holds` : every catalog is such a map.
-/

namespace TypedRoutes.Catalog

variable {c d : Catalog} {t : TypeInfo} {ts : List TypeInfo} {name : String}

/-! ## What is found -/

/-- Where types of one name are one type, a name finds the type that has it. -/
theorem find?_eq_some_of_unique (h : ∀ t ∈ ts, ∀ u ∈ ts, t.name = u.name → t = u) :
    (ts.find? fun u => u.name = name) = some t ↔ t ∈ ts ∧ t.name = name := by
  refine ⟨fun hfind => ⟨List.mem_of_find?_eq_some hfind, by simpa using List.find?_some hfind⟩, ?_⟩
  rintro ⟨ht, hname⟩
  cases hfind : ts.find? fun u => u.name = name with
  | none => exact absurd hname (by simpa using List.find?_eq_none.1 hfind t ht)
  | some u =>
    have hu : u.name = name := by simpa using List.find?_some hfind
    rw [h u (List.mem_of_find?_eq_some hfind) t ht (hu.trans hname.symm)]

theorem names_nodup (c : Catalog) : c.names.Nodup :=
  List.pairwise_map.2 (c.ascending.imp String.ne_of_lt)

theorem unique_types (c : Catalog) : ∀ t ∈ c.types, ∀ u ∈ c.types, t.name = u.name → t = u :=
  fun _ ht _ hu => List.inj_on_of_nodup_map c.names_nodup ht hu

theorem find?_eq_some_iff : c.find? name = some t ↔ t ∈ c.types ∧ t.name = name :=
  find?_eq_some_of_unique c.unique_types

/-- The types of a catalog are those that are found under their names. -/
theorem mem_types_iff : t ∈ c.types ↔ c.find? t.name = some t := by
  rw [find?_eq_some_iff, and_iff_left rfl]

theorem mem_names_iff : name ∈ c.names ↔ ∃ t, c.find? name = some t := by
  simp only [find?_eq_some_iff]
  exact List.mem_map

/-- Catalogs are equal if they find the same type under each name. -/
theorem eq_of_find? (h : ∀ name, c.find? name = d.find? name) : c = d := by
  have hnodup (c : Catalog) : c.types.Nodup :=
    c.ascending.imp fun hlt heq => String.ne_of_lt hlt (congrArg TypeInfo.name heq)
  have hperm : c.types.Perm d.types := (List.perm_ext_iff_of_nodup (hnodup c) (hnodup d)).2
    fun t => by rw [mem_types_iff, mem_types_iff, h]
  -- both lists ascend strictly, so they are in one order
  have htypes : c.types = d.types :=
    hperm.eq_of_pairwise (fun t u _ _ htu hut => absurd hut (String.lt_asymm htu))
      c.ascending d.ascending
  cases c
  cases d
  cases htypes
  rfl

/-! ## What was put in -/

theorem find?_cons_name (t : TypeInfo) (ts : List TypeInfo) (name : String) :
    ((t :: ts).find? fun u => u.name = name) =
      if t.name = name then some t else ts.find? fun u => u.name = name := by
  rw [List.find?_cons]
  by_cases h : t.name = name <;> simp only [h, decide_true, decide_false, if_true, if_false]

theorem find?_insertAscending (t : TypeInfo) (ts : List TypeInfo) (name : String) :
    ((insertAscending t ts).find? fun u => u.name = name) =
      if t.name = name then some t else ts.find? fun u => u.name = name := by
  induction ts with
  | nil => exact find?_cons_name t [] name
  | cons u ts ih =>
    rw [insertAscending]
    split
    · exact find?_cons_name t (u :: ts) name
    · split
      · next hname =>
        rw [find?_cons_name, find?_cons_name, ← hname]
        split_ifs <;> rfl
      · next hne =>
        rw [find?_cons_name, ih, find?_cons_name]
        by_cases hu : u.name = name
        · rw [if_pos hu, if_neg fun ht => hne (ht.trans hu.symm), if_pos hu]
        · rw [if_neg hu, if_neg hu]

/-- The type that was put in last is found under its name, and under every other name what was
found before. -/
theorem find?_insert (c : Catalog) (t : TypeInfo) (name : String) :
    (c.insert t).find? name = if t.name = name then some t else c.find? name :=
  find?_insertAscending t c.types name

theorem find?_foldl_insert (ts : List TypeInfo) (c : Catalog) (name : String) :
    (ts.foldl insert c).find? name =
      (ts.reverse.find? fun t => t.name = name).or (c.find? name) := by
  induction ts generalizing c with
  | nil => rfl
  | cons t ts ih =>
    rw [List.foldl_cons, ih, find?_insert, List.reverse_cons, List.find?_append, Option.or_assoc]
    congr 1
    by_cases h : t.name = name <;> simp [h]

/-- The last type of its name is found in what is made of a list. -/
theorem find?_ofList (ts : List TypeInfo) (name : String) :
    (ofList ts).find? name = ts.reverse.find? fun t => t.name = name := by
  rw [ofList, find?_foldl_insert]
  exact Option.or_none

theorem extend_eq_foldl (c : Catalog) (ts : List TypeInfo) : c.extend ts = ts.foldl insert c := by
  have h : c.types.foldl insert empty = c := ofList_types c
  rw [extend, ofList, List.foldl_append, h]

/-- Whatever order the types of a catalog are in, they are sorted into the one list. -/
theorem mergeSort_of_perm (h : ts.Perm c.types) :
    (ts.mergeSort fun t u => t.name ≤ u.name) = c.types := by
  have hsorted : (ts.mergeSort fun t u => t.name ≤ u.name).Pairwise
      fun t u => decide (t.name ≤ u.name) = true :=
    List.pairwise_mergeSort
      (fun t u v htu huv => by simpa using String.le_trans (by simpa using htu) (by simpa using huv))
      (fun t u => by simpa using String.le_total t.name u.name) ts
  have hperm := (List.mergeSort_perm ts fun t u => t.name ≤ u.name).trans h
  refine hperm.eq_of_pairwise (fun t u ht hu htu hut => ?_) hsorted
    (c.ascending.imp fun hlt => decide_eq_true (String.not_lt.1 (String.lt_asymm hlt)))
  have hname := String.le_antisymm (of_decide_eq_true htu) (of_decide_eq_true hut)
  exact c.unique_types t (hperm.mem_iff.1 ht) u hu hname

/-- The order in which the types of a catalog are put in does not matter. -/
theorem ofList_perm (h : ts.Perm c.types) : ofList ts = c := by
  refine eq_of_find? fun name => Option.ext fun t => ?_
  have hmem (u : TypeInfo) : u ∈ ts.reverse ↔ u ∈ c.types := List.mem_reverse.trans h.mem_iff
  rw [find?_ofList, find?_eq_some_iff, ← hmem]
  refine find?_eq_some_of_unique fun t ht u hu => ?_
  exact c.unique_types t ((hmem t).1 ht) u ((hmem u).1 hu)

/-! ## Changes -/

/-- A change of a catalog: a type is put in, or the types of a list. What is put into a catalog
or into a copy of it comes to the same. -/
inductive Change
  | insert (t : TypeInfo)
  | extend (ts : List TypeInfo)

namespace Change

/-- The types that a change puts in. -/
def types : Change → List TypeInfo
  | insert t => [t]
  | extend ts => ts

def apply (c : Catalog) : Change → Catalog
  | insert t => c.insert t
  | extend ts => c.extend ts

theorem apply_eq_foldl (c : Catalog) (change : Change) :
    apply c change = change.types.foldl Catalog.insert c := by
  cases change with
  | insert t => rfl
  | extend ts => exact extend_eq_foldl c ts

end Change

/-- The catalog that changes make of the empty one. -/
def ofChanges (changes : List Change) : Catalog :=
  changes.foldl Change.apply empty

/-- Only the types in a row matter, not which change put them in. -/
theorem ofChanges_eq (changes : List Change) :
    ofChanges changes = ofList (changes.flatMap Change.types) := by
  rw [ofChanges, ofList, List.foldl_flatMap]
  congr 1
  funext c change
  exact Change.apply_eq_foldl c change

/-! ## Three views -/

/-- A catalog is the map of recorded types: the last of each name counts. -/
structure Holds (c : Catalog) (recorded : List TypeInfo) : Prop where
  find : ∀ name, c.find? name = recorded.reverse.find? fun t => t.name = name
  size : c.size = (recorded.map TypeInfo.name).toFinset.card
  names : ∀ name, name ∈ c.names ↔ ∃ t ∈ recorded, t.name = name
  names_ascending : c.names.Pairwise fun a b => a.toUTF8.toList < b.toUTF8.toList
  types : ∀ t, t ∈ c.types ↔ (recorded.reverse.find? fun u => u.name = t.name) = some t
  types_ascending : c.types.Pairwise fun t u => t.name.toUTF8.toList < u.name.toUTF8.toList
  /-- Whatever the order of the entries, they are sorted into the one list. -/
  sorted : ∀ ts : List TypeInfo, ts.Perm c.types →
    (ts.mergeSort fun t u => t.name ≤ u.name) = c.types
  /-- Whatever the order of the entries, they make the catalog again. -/
  again : ∀ ts : List TypeInfo, ts.Perm c.types → ofList ts = c

theorem ofList_holds (ts : List TypeInfo) : (ofList ts).Holds ts := by
  have hnames (name : String) : name ∈ (ofList ts).names ↔ ∃ t ∈ ts, t.name = name := by
    rw [mem_names_iff, ← Option.isSome_iff_exists, find?_ofList, List.find?_isSome]
    simp only [List.mem_reverse, decide_eq_true_eq]
  constructor
  case find => exact find?_ofList ts
  case size =>
    have hset : (ofList ts).names.toFinset = (ts.map TypeInfo.name).toFinset := by
      ext name
      rw [List.mem_toFinset, List.mem_toFinset, hnames, List.mem_map]
    rw [← hset, List.toFinset_card_of_nodup (names_nodup _), names, List.length_map]
    rfl
  case names => exact hnames
  case names_ascending =>
    exact List.pairwise_map.2 ((ofList ts).ascending.imp Text.octets_lt_iff.2)
  case types =>
    intro t
    rw [mem_types_iff, find?_ofList]
  case types_ascending => exact (ofList ts).ascending.imp Text.octets_lt_iff.2
  case sorted => exact fun us hus => mergeSort_of_perm hus
  case again => exact fun us hus => ofList_perm hus

/-- Every catalog is the map of what was put into it, in all its views. -/
theorem ofChanges_holds (changes : List Change) :
    (ofChanges changes).Holds (changes.flatMap Change.types) := by
  rw [ofChanges_eq]
  exact ofList_holds _

end TypedRoutes.Catalog
