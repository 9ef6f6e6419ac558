import Mathlib.Data.List.Basic
import TypedRoutes.Proofs.Numbering

/-!
# Trees that are put down in place

* `Slot` : a node with the numbers of its parent and of the children put down so far;
* `plant` : the nodes of an annotation put behind those that are there, each in front of its
  children, which it notes one by one;
* `plant_eq` : this yields the entries of the tree of the annotation, or the same fault;
* `plant_declaration` : what is put down for a declaration.
-/

namespace TypedRoutes

/-! ## Slots -/

/-- A node that was put down, with the children that it has so far. -/
structure Slot where
  parent? : Option Nat
  children : List Nat
  node : Node

namespace Slot

/-- A node without children so far. -/
def fresh (parent? : Option Nat) (n : Node) : Slot :=
  ⟨parent?, [], n⟩

/-- Note children behind those that are there. -/
def note (ids : List Nat) (s : Slot) : Slot :=
  { s with children := s.children ++ ids }

theorem note_nil : note [] = id := by
  funext s
  simp [note]

theorem note_note (ids ids' : List Nat) : note ids' ∘ note ids = note (ids ++ ids') := by
  funext s
  simp [note]

end Slot

theorem modify_append_of_lt {f : Slot → Slot} {i : Nat} {slots : List Slot} (h : i < slots.length)
    (more : List Slot) : (slots ++ more).modify i f = slots.modify i f ++ more := by
  induction slots generalizing i with
  | nil => cases h
  | cons s slots ih =>
    cases i with
    | zero => rfl
    | succ i => simp [ih (Nat.lt_of_succ_lt_succ h)]

theorem modify_append_length (f : Slot → Slot) (slots : List Slot) (s : Slot) :
    (slots ++ [s]).modify slots.length f = slots ++ [f s] := by
  induction slots with
  | nil => rfl
  | cons t slots ih => simp [ih]

def Entry.slot (e : Entry) : Slot :=
  ⟨e.parent?, e.children, e.node⟩

/-- The navigator that the children of a node put down before are handed. -/
def keyAt? (slots : List Slot) (parent? : Option Nat) : Option KeyBinding := do
  let s ← slots[← parent?]?
  s.node.keyForChildren?.map KeyBinding.handDown

theorem keyAt?_append {slots : List Slot} {i : Nat} (h : i < slots.length) (more : List Slot) :
    keyAt? (slots ++ more) (some i) = keyAt? slots (some i) := by
  simp [keyAt?, List.getElem?_append_left h]

theorem keyAt?_modify_note (slots : List Slot) (i : Nat) (ids : List Nat) :
    keyAt? (slots.modify i (Slot.note ids)) (some i) = keyAt? slots (some i) := by
  cases hs : slots[i]? <;> simp [keyAt?, List.getElem?_modify, hs, Slot.note]

theorem keyAt?_concat (slots : List Slot) (s : Slot) :
    keyAt? (slots ++ [s]) (some slots.length) = s.node.keyForChildren?.map KeyBinding.handDown := by
  simp [keyAt?]

/-! ## Putting down -/

mutual

/-- Put the nodes of an annotation behind those that are there. `path` is the joined path of the
leaves above, and the node takes a navigator from the slot of its parent. -/
def plant (cx : Context) (path : String) (parent? : Option Nat) :
    Annotation → List Slot → Except Failure (List Slot)
  | .go type own? name? routes, slots => do
    let around : Surroundings := ⟨path, keyAt? slots parent?⟩
    let n ← checkNode cx around (.go type own? name? routes)
    plantAll cx (around.below n).path slots.length routes (slots ++ [.fresh parent? n])
  | .shell type routes, slots => do
    let around : Surroundings := ⟨path, keyAt? slots parent?⟩
    let n ← checkNode cx around (.shell type routes)
    plantAll cx (around.below n).path slots.length routes (slots ++ [.fresh parent? n])

/-- Put the nodes of annotations behind those that are there, and note each in its parent. -/
def plantAll (cx : Context) (path : String) (parent : Nat) :
    List Annotation → List Slot → Except Failure (List Slot)
  | [], slots => .ok slots
  | a :: rest, slots => do
    let grown ← plant cx path (some parent) a slots
    plantAll cx path parent rest (grown.modify parent (Slot.note [slots.length]))

end

theorem plant_unfold (cx : Context) (path : String) (parent? : Option Nat) (a : Annotation)
    (slots : List Slot) :
    plant cx path parent? a slots =
      checkNode cx ⟨path, keyAt? slots parent?⟩ a >>= fun n =>
        plantAll cx (Surroundings.below ⟨path, keyAt? slots parent?⟩ n).path slots.length a.routes
          (slots ++ [.fresh parent? n]) := by
  cases a <;> rw [plant] <;> rfl

/-! ## What was put down -/

theorem Annotation.sizeOf_routes_lt (a : Annotation) : sizeOf a.routes < sizeOf a := by
  cases a with
  | go type path? name? rs =>
    simp only [routes, go.sizeOf_spec]
    omega
  | shell type rs =>
    simp only [routes, shell.sizeOf_spec]
    omega

open RouteTree

mutual

/-- Putting down an annotation adds the entries of its tree, or fails as building the tree does. -/
theorem plant_eq (cx : Context) (path : String) :
    ∀ (a : Annotation) (slots : List Slot) (above : List Nat),
      plant cx path above.head? a slots =
        (fun t => slots ++ (t.entriesFrom above slots.length).map Entry.slot) <$>
          buildTree cx ⟨path, keyAt? slots above.head?⟩ a
  | a, slots, above => by
    rw [plant_unfold, buildTree_eq, map_bind]
    refine bind_congr fun n => ?_
    have hparent : slots.length < (slots ++ [Slot.fresh above.head? n]).length := by simp
    have hbelow : Surroundings.below ⟨path, keyAt? slots above.head?⟩ n =
        ⟨(Surroundings.below ⟨path, keyAt? slots above.head?⟩ n).path,
          keyAt? (slots ++ [Slot.fresh above.head? n]) (some slots.length)⟩ := by
      rw [keyAt?_concat]
      rfl
    rw [plantAll_eq cx _ a.routes _ above slots.length hparent, ← hbelow, Functor.map_map]
    refine map_congr fun ts => ?_
    rw [modify_append_length, List.length_append, List.append_assoc]
    rfl
termination_by a => sizeOf a
decreasing_by exact a.sizeOf_routes_lt

theorem plantAll_eq (cx : Context) (path : String) :
    ∀ (as : List Annotation) (slots : List Slot) (above : List Nat) (parent : Nat),
      parent < slots.length →
      plantAll cx path parent as slots =
        (fun ts => slots.modify parent (Slot.note (rootIds slots.length ts)) ++
            (entriesAll (parent :: above) slots.length ts).map Entry.slot) <$>
          buildAll cx ⟨path, keyAt? slots (some parent)⟩ as
  | [], slots, above, parent, hparent => by
    rw [plantAll, buildAll]
    show _ = Except.ok (slots.modify parent (Slot.note []) ++ [])
    rw [Slot.note_nil, List.modify_id, List.append_nil]
  | a :: rest, slots, above, parent, hparent => by
    have hfirst := plant_eq cx path a slots (parent :: above)
    rw [List.head?_cons] at hfirst
    rw [plantAll, buildAll, hfirst, bind_map_left, map_bind]
    refine bind_congr fun t => ?_
    have hlength : ((t.entriesFrom (parent :: above) slots.length).map Entry.slot).length =
        t.size := by
      rw [List.length_map, length_entriesFrom]
    have hnoted : parent < (slots.modify parent (Slot.note [slots.length])).length := by
      rw [List.length_modify]
      exact hparent
    rw [modify_append_of_lt hparent, plantAll_eq cx path rest _ above parent
      (by rw [List.length_append]; omega), List.length_append, List.length_modify, hlength,
      keyAt?_append hnoted, keyAt?_modify_note, map_eq_pure_bind, map_bind]
    refine bind_congr fun ts => ?_
    rw [map_pure, modify_append_of_lt hnoted, List.modify_modify_eq, Slot.note_note,
      List.append_assoc, ← List.map_append]
    rfl
termination_by as => sizeOf as

end

/-- What is put down for a declaration are the entries of its tree. -/
theorem plant_declaration (catalog : Catalog) (settings : Settings) {d : Declaration}
    (h : d.annotation.type = d.type) :
    plant ⟨catalog, settings, d.type⟩ "" none d.annotation [] =
      (fun t => t.entries.map Entry.slot) <$> RouteTree.ofDeclaration catalog settings d := by
  rw [RouteTree.ofDeclaration, if_pos h]
  exact plant_eq ⟨catalog, settings, d.type⟩ "" d.annotation [] []

end TypedRoutes
