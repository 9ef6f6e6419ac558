import TypedRoutes.Schema.Type

/-!
# Catalogs of types

* `Catalog` : described types in strictly ascending order of their names;
* `Catalog.insert` : add a type in place of the one that had its name;
* `Catalog.ofList` : a later type replaces an earlier one of its name;
* `Catalog.find?` : the type of a name, and what is asked about it.
-/

namespace TypedRoutes

/-- Described types, at most one of each name. -/
structure Catalog where
  types : List TypeInfo
  ascending : types.Pairwise fun a b => a.name < b.name

namespace Catalog

def empty : Catalog :=
  ⟨[], .nil⟩

instance : Inhabited Catalog := ⟨empty⟩

/-! ## Insertion -/

/-- Put a type at its place in a list that ascends by name. -/
def insertAscending (t : TypeInfo) : List TypeInfo → List TypeInfo
  | [] => [t]
  | u :: rest =>
    if t.name < u.name then t :: u :: rest
    else if t.name = u.name then t :: rest
    else u :: insertAscending t rest

theorem mem_insertAscending {t u : TypeInfo} {ts : List TypeInfo}
    (h : u ∈ insertAscending t ts) : u = t ∨ u ∈ ts := by
  induction ts with
  | nil => simpa [insertAscending] using h
  | cons v rest ih =>
    simp only [insertAscending] at h
    split at h
    · simpa using h
    · split at h <;> grind

theorem lt_of_ne_of_not_lt {a b : String} (h : ¬a < b) (hne : a ≠ b) : b < a :=
  Decidable.byContradiction fun hn =>
    hne (String.le_antisymm (String.not_lt.1 hn) (String.not_lt.1 h))

theorem pairwise_insertAscending (t : TypeInfo) {ts : List TypeInfo}
    (h : ts.Pairwise fun a b => a.name < b.name) :
    (insertAscending t ts).Pairwise fun a b => a.name < b.name := by
  induction ts with
  | nil => simp [insertAscending]
  | cons u rest ih =>
    have ⟨hu, hrest⟩ := List.pairwise_cons.1 h
    simp only [insertAscending]
    split
    · next hlt =>
      refine List.pairwise_cons.2 ⟨fun v hv => ?_, h⟩
      rcases List.mem_cons.1 hv with rfl | hv
      · exact hlt
      · exact String.lt_trans hlt (hu v hv)
    · split
      · next heq => exact List.pairwise_cons.2 ⟨fun v hv => heq ▸ hu v hv, hrest⟩
      · next hnlt hne =>
        refine List.pairwise_cons.2 ⟨fun v hv => ?_, ih hrest⟩
        rcases mem_insertAscending hv with rfl | hv
        · exact lt_of_ne_of_not_lt hnlt hne
        · exact hu v hv

/-- Add a type in place of the one that had its name. -/
def insert (c : Catalog) (t : TypeInfo) : Catalog :=
  ⟨insertAscending t c.types, pairwise_insertAscending t c.ascending⟩

/-- The types of a list, the last one of each name. -/
def ofList (ts : List TypeInfo) : Catalog :=
  ts.foldl insert empty

/-- Add the types of a list. -/
def extend (c : Catalog) (ts : List TypeInfo) : Catalog :=
  ofList (c.types ++ ts)

/-! ## Questions -/

def size (c : Catalog) : Nat :=
  c.types.length

def isEmpty (c : Catalog) : Bool :=
  c.types.isEmpty

/-- The known names in ascending order. -/
def names (c : Catalog) : List String :=
  c.types.map TypeInfo.name

/-- The type of a name. -/
def find? (c : Catalog) (name : String) : Option TypeInfo :=
  c.types.find? fun t => t.name = name

/-- The constructor parameters of a record. -/
def constructor? (c : Catalog) (name : String) : Option (List Parameter) :=
  match c.find? name with
  | some ⟨_, .record ps _ _⟩ => some ps
  | _ => none

/-- The fields of a record. -/
def fields? (c : Catalog) (name : String) : Option (List Field) :=
  match c.find? name with
  | some ⟨_, .record _ fs _⟩ => some fs
  | _ => none

/-- The constants of a record. -/
def constants? (c : Catalog) (name : String) : Option (List Field) :=
  match c.find? name with
  | some ⟨_, .record _ _ fs⟩ => some fs
  | _ => none

/-- The members of an enumeration. -/
def members? (c : Catalog) (name : String) : Option (List String) :=
  match c.find? name with
  | some ⟨_, .enumeration ms⟩ => some ms
  | _ => none

end Catalog

end TypedRoutes
