import Mathlib.Data.List.Forall2
import TypedRoutes.Proofs.Build

/-!
# The numbers of the nodes

* `Annotation.outline` : an annotation and all nested in it in pre-order, with their depths;
* `Node.Shows` : a node has the type, the kind, the path and the name of an annotation;
* `Numbered` : entries that stand for a list of annotations below some nodes; `Numbered.node`,
  `Numbered.append` : it is kept when a node is put on top, and when entries are put behind others;
* `Mirrors` : entries that have the shape of an annotation;
* `mirrors_entries` : the entries of a tree mirror the annotation it was built from.
-/

namespace TypedRoutes

/-! ## Outlines -/

/-- An annotation with the number of annotations that it is nested in. -/
structure Nested where
  route : Annotation
  depth : Nat

namespace Annotation

mutual

/-- An annotation and all nested in it in pre-order, where it is nested in `depth` others. -/
def outlineFrom (depth : Nat) : Annotation → List Nested
  | go type path? name? routes => ⟨go type path? name? routes, depth⟩ :: outlineAll (depth + 1) routes
  | shell type routes => ⟨shell type routes, depth⟩ :: outlineAll (depth + 1) routes

def outlineAll (depth : Nat) : List Annotation → List Nested
  | [] => []
  | a :: rest => a.outlineFrom depth ++ outlineAll depth rest

end

/-- An annotation and all nested in it in pre-order. -/
def outline (a : Annotation) : List Nested :=
  a.outlineFrom 0

/-- The number of an annotation and all nested in it. -/
def size (a : Annotation) : Nat :=
  a.outline.length

theorem outlineFrom_eq (depth : Nat) (a : Annotation) :
    a.outlineFrom depth = ⟨a, depth⟩ :: outlineAll (depth + 1) a.routes := by
  cases a <;> rfl

mutual

theorem length_outlineFrom (depth depth' : Nat) :
    ∀ a : Annotation, (a.outlineFrom depth).length = (a.outlineFrom depth').length
  | go type path? name? routes => by
    simp only [outlineFrom, List.length_cons, length_outlineAll (depth + 1) (depth' + 1) routes]
  | shell type routes => by
    simp only [outlineFrom, List.length_cons, length_outlineAll (depth + 1) (depth' + 1) routes]

theorem length_outlineAll (depth depth' : Nat) :
    ∀ as : List Annotation, (outlineAll depth as).length = (outlineAll depth' as).length
  | [] => rfl
  | a :: rest => by
    simp only [outlineAll, List.length_append, length_outlineFrom depth depth' a,
      length_outlineAll depth depth' rest]

end

theorem size_eq (a : Annotation) (depth : Nat) : a.size = (outlineAll depth a.routes).length + 1 := by
  rw [size, outline, outlineFrom_eq, List.length_cons, length_outlineAll (0 + 1) depth]

end Annotation

/-- A node has the type, the kind, the path and the name of an annotation. -/
def Node.Shows (n : Node) : Annotation → Prop
  | .go type path? name? _ =>
    n.type = type ∧ ∃ path template, path? = some path ∧ n.role = .leaf path name? template
  | .shell type _ => n.type = type ∧ ∃ key?, n.role = .shell key?

theorem shows_checkNode {cx : Context} {around : Surroundings} {a : Annotation} {n : Node}
    (h : checkNode cx around a = .ok n) : n.Shows a := by
  cases a with
  | go type path? name? routes =>
    obtain ⟨path, ps, fields, constants, template, bindings, rfl, -, -, -, -, rfl⟩ :=
      checkNode_go_ok h
    exact ⟨rfl, path, template, rfl, rfl⟩
  | shell type routes =>
    obtain ⟨ps, fields, constants, template?, bindings, -, -, -, rfl⟩ := checkNode_shell_ok h
    exact ⟨rfl, _, rfl⟩

/-! ## Entries below some nodes -/

/-- Numbers of entries that stand for some annotations, in their order. -/
def Lists (z : List (Entry × Nested)) (ids : List Nat) (as : List Annotation) : Prop :=
  List.Forall₂ (fun i a => ∃ x ∈ z, x.1.id = i ∧ x.2.route = a) ids as

/-- Entries with what they stand for: the annotations `as` and all nested in them, numbered from
`start` on below the nodes of the numbers `above`. The numbers of `as` are `tops`. -/
structure Numbered (above : List Nat) (start : Nat) (tops : List Nat) (as : List Annotation)
    (z : List (Entry × Nested)) : Prop where
  ids : z.map (·.1.id) = List.range' start z.length
  tops_order : Lists z tops as
  tops_ascending : tops.Pairwise (· < ·)
  mem_tops : ∀ x ∈ z, x.1.id ∈ tops ↔ x.1.ancestors = above
  shows : ∀ x ∈ z, x.1.node.Shows x.2.route
  depth : ∀ x ∈ z, x.1.ancestors.length = x.2.depth
  parent : ∀ x ∈ z, x.1.parent? = x.1.ancestors.head?
  /-- The nodes above are those of `above` and, below these, others numbered in descending order. -/
  ancestors : ∀ x ∈ z, ∃ between, x.1.ancestors = between ++ above ∧
    (x.1.id :: between).Pairwise (· > ·) ∧ ∀ i ∈ between, start ≤ i
  /-- The nodes above are those above the parent, and the parent itself. -/
  climb : ∀ x ∈ z, x.1.ancestors = above ∨
    ∃ y ∈ z, x.1.ancestors = y.1.id :: y.1.ancestors
  order : ∀ x ∈ z, Lists z x.1.children x.2.route.routes
  ascending : ∀ x ∈ z, x.1.children.Pairwise (· < ·)
  links : ∀ x ∈ z, ∀ y ∈ z, y.1.id ∈ x.1.children ↔ y.1.parent? = some x.1.id
  fits : ∀ x ∈ z, x.1.id + x.2.route.size ≤ start + z.length
  subtree : ∀ x ∈ z, ∀ y ∈ z,
    x.1.id ∈ y.1.ancestors ↔ x.1.id < y.1.id ∧ y.1.id < x.1.id + x.2.route.size

theorem Lists.mono {z z' : List (Entry × Nested)} (h : z ⊆ z') {ids : List Nat}
    {as : List Annotation} (hl : Lists z ids as) : Lists z' ids as := by
  refine hl.imp ?_
  rintro i a ⟨x, hx, hi, ha⟩
  exact ⟨x, h hx, hi, ha⟩

theorem Lists.exists_of_mem {z : List (Entry × Nested)} {ids : List Nat} {as : List Annotation}
    (h : Lists z ids as) {i : Nat} (hi : i ∈ ids) : ∃ x ∈ z, x.1.id = i := by
  induction h with
  | nil => cases hi
  | cons hhead _ ih =>
    rcases List.mem_cons.1 hi with rfl | hi
    · obtain ⟨x, hx, hid, -⟩ := hhead
      exact ⟨x, hx, hid⟩
    · exact ih hi

namespace Numbered

variable {above : List Nat} {start : Nat} {tops : List Nat} {as : List Annotation}
  {z : List (Entry × Nested)}

theorem id_mem_range (h : Numbered above start tops as z) {x : Entry × Nested} (hx : x ∈ z) :
    start ≤ x.1.id ∧ x.1.id < start + z.length := by
  have hmem : x.1.id ∈ z.map (·.1.id) := List.mem_map_of_mem hx
  rw [h.ids, List.mem_range'_1] at hmem
  exact hmem

/-- The nodes above an entry are those above all entries, and others numbered before it. -/
theorem mem_ancestors (h : Numbered above start tops as z) {x : Entry × Nested} (hx : x ∈ z)
    {i : Nat} (hi : i ∈ x.1.ancestors) : i ∈ above ∨ start ≤ i ∧ i < x.1.id := by
  obtain ⟨between, hancestors, hdescending, hstart⟩ := h.ancestors x hx
  rw [hancestors] at hi
  rcases List.mem_append.1 hi with hi | hi
  · exact Or.inr ⟨hstart i hi, List.rel_of_pairwise_cons hdescending hi⟩
  · exact Or.inl hi

theorem mem_ancestors_of_parent (h : Numbered above start tops as z) {x : Entry × Nested}
    (hx : x ∈ z) {i : Nat} (hi : x.1.parent? = some i) : i ∈ x.1.ancestors := by
  rw [h.parent x hx] at hi
  exact List.mem_of_mem_head? hi

/-- The entries below a node, its own children left aside, have parents with greater numbers. -/
theorem parent_eq_some_top {i : Nat} (h : Numbered (i :: above) (i + 1) tops as z)
    {x : Entry × Nested} (hx : x ∈ z) :
    x.1.parent? = some i ↔ x.1.ancestors = i :: above := by
  rw [h.parent x hx]
  constructor
  · intro hhead
    obtain ⟨between, hancestors, -, hbetween⟩ := h.ancestors x hx
    cases between with
    | nil => exact hancestors
    | cons j between =>
      rw [hancestors] at hhead
      cases hhead
      exact absurd (hbetween i List.mem_cons_self) (by omega)
  · intro hancestors
    rw [hancestors]
    rfl

theorem nil (above : List Nat) (start : Nat) : Numbered above start [] [] [] where
  ids := rfl
  tops_order := .nil
  tops_ascending := .nil
  mem_tops := by simp
  shows := by simp
  depth := by simp
  parent := by simp
  ancestors := by simp
  climb := by simp
  order := by simp
  ascending := by simp
  links := by simp
  fits := by simp
  subtree := by simp

section Append

variable {start' : Nat} {tops' : List Nat} {as' : List Annotation} {z' : List (Entry × Nested)}
  (h : Numbered above start tops as z) (h' : Numbered above start' tops' as' z')
  (hstart : start' = start + z.length) (habove : ∀ i ∈ above, i < start)

include h h' hstart

theorem id_lt_id {x y : Entry × Nested} (hx : x ∈ z) (hy : y ∈ z') : x.1.id < y.1.id := by
  have hxid := h.id_mem_range hx
  have hyid := h'.id_mem_range hy
  omega

theorem tops_ascending_append : (tops ++ tops').Pairwise (· < ·) := by
  refine List.pairwise_append.2 ⟨h.tops_ascending, h'.tops_ascending, fun i hi j hj => ?_⟩
  obtain ⟨x, hx, rfl⟩ := h.tops_order.exists_of_mem hi
  obtain ⟨y, hy, rfl⟩ := h'.tops_order.exists_of_mem hj
  exact h.id_lt_id h' hstart hx hy

theorem mem_tops_append :
    ∀ x ∈ z ++ z', x.1.id ∈ tops ++ tops' ↔ x.1.ancestors = above := by
  refine List.forall_mem_append.2 ⟨fun x hx => ?_, fun x hx => ?_⟩
  · rw [List.mem_append, ← h.mem_tops x hx]
    refine or_iff_left fun hmem => ?_
    obtain ⟨y, hy, hid⟩ := h'.tops_order.exists_of_mem hmem
    exact Nat.ne_of_gt (h.id_lt_id h' hstart hx hy) hid
  · rw [List.mem_append, ← h'.mem_tops x hx]
    refine or_iff_right fun hmem => ?_
    obtain ⟨y, hy, hid⟩ := h.tops_order.exists_of_mem hmem
    exact Nat.ne_of_lt (h.id_lt_id h' hstart hy hx) hid

include habove

/-- No entry of one part stands above an entry of the other. -/
theorem apart {x y : Entry × Nested} (hx : x ∈ z) (hy : y ∈ z') :
    x.1.id ∉ y.1.ancestors ∧ y.1.id ∉ x.1.ancestors := by
  have hxid := h.id_mem_range hx
  have hyid := h'.id_mem_range hy
  constructor
  · intro hmem
    rcases h'.mem_ancestors hy hmem with hmem | hmem
    · have := habove _ hmem
      omega
    · omega
  · intro hmem
    rcases h.mem_ancestors hx hmem with hmem | hmem
    · have := habove _ hmem
      omega
    · omega

theorem links_append : ∀ x ∈ z ++ z', ∀ y ∈ z ++ z',
    y.1.id ∈ x.1.children ↔ y.1.parent? = some x.1.id := by
  intro x hx y hy
  rcases List.mem_append.1 hx with hx | hx <;> rcases List.mem_append.1 hy with hy | hy
  · exact h.links x hx y hy
  · refine iff_of_false (fun hmem => ?_) fun hparent => ?_
    · obtain ⟨w, hw, hid⟩ := (h.order x hx).exists_of_mem hmem
      exact Nat.ne_of_lt (h.id_lt_id h' hstart hw hy) hid
    · exact (h.apart h' hstart habove hx hy).1 (h'.mem_ancestors_of_parent hy hparent)
  · refine iff_of_false (fun hmem => ?_) fun hparent => ?_
    · obtain ⟨w, hw, hid⟩ := (h'.order x hx).exists_of_mem hmem
      exact Nat.ne_of_gt (h.id_lt_id h' hstart hy hw) hid
    · exact (h.apart h' hstart habove hy hx).2 (h.mem_ancestors_of_parent hy hparent)
  · exact h'.links x hx y hy

theorem subtree_append : ∀ x ∈ z ++ z', ∀ y ∈ z ++ z',
    x.1.id ∈ y.1.ancestors ↔ x.1.id < y.1.id ∧ y.1.id < x.1.id + x.2.route.size := by
  intro x hx y hy
  rcases List.mem_append.1 hx with hx | hx <;> rcases List.mem_append.1 hy with hy | hy
  · exact h.subtree x hx y hy
  · have hfits := h.fits x hx
    have hyid := h'.id_mem_range hy
    exact iff_of_false (h.apart h' hstart habove hx hy).1 (by omega)
  · have hlt := h.id_lt_id h' hstart hy hx
    exact iff_of_false (h.apart h' hstart habove hy hx).2 (by omega)
  · exact h'.subtree x hx y hy

theorem append : Numbered above start (tops ++ tops') (as ++ as') (z ++ z') := by
  have hleft : z ⊆ z ++ z' := List.subset_append_left z z'
  have hright : z' ⊆ z ++ z' := List.subset_append_right z z'
  constructor
  case ids =>
    rw [List.map_append, h.ids, h'.ids, hstart, List.length_append, List.range'_append_1]
  case tops_order =>
    exact List.rel_append (h.tops_order.mono hleft) (h'.tops_order.mono hright)
  case tops_ascending => exact h.tops_ascending_append h' hstart
  case mem_tops => exact h.mem_tops_append h' hstart
  case shows => exact List.forall_mem_append.2 ⟨h.shows, h'.shows⟩
  case depth => exact List.forall_mem_append.2 ⟨h.depth, h'.depth⟩
  case parent => exact List.forall_mem_append.2 ⟨h.parent, h'.parent⟩
  case ancestors =>
    refine List.forall_mem_append.2 ⟨h.ancestors, fun y hy => ?_⟩
    obtain ⟨between, hancestors, hdescending, hbetween⟩ := h'.ancestors y hy
    refine ⟨between, hancestors, hdescending, fun i hi => ?_⟩
    have := hbetween i hi
    omega
  case climb =>
    refine List.forall_mem_append.2 ⟨fun x hx => ?_, fun x hx => ?_⟩
    · exact (h.climb x hx).imp_right fun ⟨y, hy, hparent⟩ => ⟨y, hleft hy, hparent⟩
    · exact (h'.climb x hx).imp_right fun ⟨y, hy, hparent⟩ => ⟨y, hright hy, hparent⟩
  case order =>
    exact List.forall_mem_append.2 ⟨fun x hx => (h.order x hx).mono hleft,
      fun x hx => (h'.order x hx).mono hright⟩
  case ascending => exact List.forall_mem_append.2 ⟨h.ascending, h'.ascending⟩
  case links => exact h.links_append h' hstart habove
  case fits =>
    rw [List.length_append]
    refine List.forall_mem_append.2 ⟨fun x hx => ?_, fun x hx => ?_⟩
    · have := h.fits x hx
      omega
    · have := h'.fits x hx
      omega
  case subtree => exact h.subtree_append h' hstart habove

end Append

section Node

variable (h : Numbered (start :: above) (start + 1) tops as z)

include h

/-- The node on top stands above all entries. -/
theorem top_mem_ancestors {x : Entry × Nested} (hx : x ∈ z) : start ∈ x.1.ancestors := by
  obtain ⟨between, hancestors, -, -⟩ := h.ancestors x hx
  rw [hancestors]
  exact List.mem_append_right between List.mem_cons_self

/-- Seen from above the node on top, that node is the last one in between. -/
theorem ancestors_below {x : Entry × Nested} (hx : x ∈ z) :
    ∃ between, x.1.ancestors = between ++ above ∧ (x.1.id :: between).Pairwise (· > ·) ∧
      ∀ i ∈ between, start ≤ i := by
  have hid := h.id_mem_range hx
  obtain ⟨between, hancestors, hdescending, hbetween⟩ := h.ancestors x hx
  refine ⟨between ++ [start], by rw [hancestors, List.append_assoc]; rfl, ?_, ?_⟩
  · rw [← List.cons_append]
    refine List.pairwise_append.2 ⟨hdescending, List.pairwise_singleton _ _, ?_⟩
    intro i hi j hj
    obtain rfl := List.mem_singleton.1 hj
    rcases List.mem_cons.1 hi with rfl | hi
    · exact hid.1
    · exact hbetween i hi
  · intro i hi
    rcases List.mem_append.1 hi with hi | hi
    · exact Nat.le_of_succ_le (hbetween i hi)
    · exact Nat.le_of_eq (List.mem_singleton.1 hi).symm

variable (habove : ∀ i ∈ above, i < start)

include habove

theorem id_not_mem_above {x : Entry × Nested} (hx : x ∈ z) : x.1.id ∉ above := by
  intro hmem
  have hid := h.id_mem_range hx
  have := habove _ hmem
  omega

theorem links_node (n : Node) (a : Annotation) :
    let top : Entry × Nested := (⟨start, above.head?, tops, above, n⟩, ⟨a, above.length⟩)
    ∀ x ∈ top :: z, ∀ y ∈ top :: z, y.1.id ∈ x.1.children ↔ y.1.parent? = some x.1.id := by
  intro top x hx y hy
  rcases List.mem_cons.1 hx with rfl | hx <;> rcases List.mem_cons.1 hy with rfl | hy
  · refine iff_of_false (fun hmem => ?_) fun hparent =>
      Nat.lt_irrefl start (habove start (List.mem_of_mem_head? hparent))
    obtain ⟨w, hw, hid⟩ := h.tops_order.exists_of_mem hmem
    exact Nat.ne_of_gt (h.id_mem_range hw).1 hid
  · rw [h.mem_tops y hy]
    exact (h.parent_eq_some_top hy).symm
  · refine iff_of_false (fun hmem => ?_) fun hparent =>
      h.id_not_mem_above habove hx (List.mem_of_mem_head? hparent)
    obtain ⟨w, hw, hid⟩ := (h.order x hx).exists_of_mem hmem
    exact Nat.ne_of_gt (h.id_mem_range hw).1 hid
  · exact h.links x hx y hy

theorem subtree_node {n : Node} {a : Annotation} (hsize : a.size = z.length + 1) :
    let top : Entry × Nested := (⟨start, above.head?, tops, above, n⟩, ⟨a, above.length⟩)
    ∀ x ∈ top :: z, ∀ y ∈ top :: z,
      x.1.id ∈ y.1.ancestors ↔ x.1.id < y.1.id ∧ y.1.id < x.1.id + x.2.route.size := by
  intro top x hx y hy
  rcases List.mem_cons.1 hx with rfl | hx <;> rcases List.mem_cons.1 hy with rfl | hy
  · exact iff_of_false (fun hmem => Nat.lt_irrefl start (habove start hmem)) (by simp)
  · have hyid := h.id_mem_range hy
    refine iff_of_true (h.top_mem_ancestors hy) ?_
    dsimp only [top]
    omega
  · have hxid := h.id_mem_range hx
    refine iff_of_false (h.id_not_mem_above habove hx) ?_
    dsimp only [top]
    omega
  · exact h.subtree x hx y hy

theorem node {n : Node} {a : Annotation} (hshows : n.Shows a) (hroutes : a.routes = as)
    (hsize : a.size = z.length + 1) :
    Numbered above start [start] [a]
      ((⟨start, above.head?, tops, above, n⟩, ⟨a, above.length⟩) :: z) := by
  constructor
  case ids =>
    rw [List.map_cons, h.ids, List.length_cons, List.range'_succ]
  case tops_order => exact .cons ⟨_, List.mem_cons_self, rfl, rfl⟩ .nil
  case tops_ascending => exact List.pairwise_singleton _ _
  case mem_tops =>
    refine List.forall_mem_cons.2 ⟨by simp, fun x hx => iff_of_false (fun hmem => ?_) fun heq => ?_⟩
    · exact Nat.ne_of_gt (h.id_mem_range hx).1 (List.mem_singleton.1 hmem)
    · exact Nat.lt_irrefl start (habove start (heq ▸ h.top_mem_ancestors hx))
  case shows => exact List.forall_mem_cons.2 ⟨hshows, h.shows⟩
  case depth => exact List.forall_mem_cons.2 ⟨rfl, h.depth⟩
  case parent => exact List.forall_mem_cons.2 ⟨rfl, h.parent⟩
  case ancestors =>
    exact List.forall_mem_cons.2 ⟨⟨[], rfl, List.pairwise_singleton _ _, by simp⟩,
      fun x hx => h.ancestors_below hx⟩
  case climb =>
    refine List.forall_mem_cons.2 ⟨Or.inl rfl, fun x hx => Or.inr ?_⟩
    rcases h.climb x hx with htop | ⟨y, hy, hparent⟩
    · exact ⟨_, List.mem_cons_self, htop⟩
    · exact ⟨y, List.mem_cons_of_mem _ hy, hparent⟩
  case order =>
    refine List.forall_mem_cons.2 ⟨?_, fun x hx => (h.order x hx).mono (List.subset_cons_self _ _)⟩
    rw [hroutes]
    exact h.tops_order.mono (List.subset_cons_self _ _)
  case ascending => exact List.forall_mem_cons.2 ⟨h.tops_ascending, h.ascending⟩
  case links => exact h.links_node habove n a
  case fits =>
    refine List.forall_mem_cons.2 ⟨?_, fun x hx => ?_⟩
    · dsimp only
      exact Nat.le_of_eq (by rw [hsize, List.length_cons])
    · have := h.fits x hx
      rw [List.length_cons]
      omega
  case subtree => exact h.subtree_node habove hsize

end Node

end Numbered

/-! ## Entries of a tree -/

namespace RouteTree

mutual

theorem map_node_entriesFrom (above : List Nat) (start : Nat) :
    ∀ t : RouteTree, (t.entriesFrom above start).map Entry.node = t.nodes
  | node n ts => by
    rw [entriesFrom, nodes, List.map_cons, map_node_entriesAll (start :: above) (start + 1) ts]

theorem map_node_entriesAll (above : List Nat) (start : Nat) :
    ∀ ts : List RouteTree, (entriesAll above start ts).map Entry.node = nodesAll ts
  | [] => rfl
  | t :: rest => by
    rw [entriesAll, nodesAll, List.map_append, map_node_entriesFrom above start t,
      map_node_entriesAll above (start + t.size) rest]

end

theorem length_entriesFrom (above : List Nat) (start : Nat) (t : RouteTree) :
    (t.entriesFrom above start).length = t.size := by
  rw [size, ← map_node_entriesFrom above start t, List.length_map]

end RouteTree

open RouteTree

mutual

theorem exists_numbered_buildTree (cx : Context) (around : Surroundings) (above : List Nat)
    (start : Nat) (habove : ∀ i ∈ above, i < start) :
    ∀ (a : Annotation) (t : RouteTree), buildTree cx around a = .ok t →
      ∃ z : List (Entry × Nested), z.map Prod.fst = t.entriesFrom above start ∧
        z.map Prod.snd = a.outlineFrom above.length ∧ Numbered above start [start] [a] z
  | a, t, h => by
    obtain ⟨n, ts, hn, hts, rfl⟩ := buildTree_ok h
    have hbelow : ∀ i ∈ start :: above, i < start + 1 :=
      List.forall_mem_cons.2 ⟨Nat.lt_succ_self start, fun i hi => Nat.lt_succ_of_lt (habove i hi)⟩
    obtain ⟨z, hentries, houtline, hz⟩ :=
      exists_numbered_buildAll cx (around.below n) (start :: above) (start + 1) hbelow a.routes ts hts
    have hsize : a.size = z.length + 1 := by
      rw [a.size_eq (start :: above).length, ← houtline, List.length_map]
    refine ⟨_, ?_, ?_, hz.node habove (shows_checkNode hn) rfl hsize⟩
    · rw [List.map_cons, hentries]
      rfl
    · rw [List.map_cons, houtline, Annotation.outlineFrom_eq]
      rfl

theorem exists_numbered_buildAll (cx : Context) (around : Surroundings) (above : List Nat)
    (start : Nat) (habove : ∀ i ∈ above, i < start) :
    ∀ (as : List Annotation) (ts : List RouteTree), buildAll cx around as = .ok ts →
      ∃ z : List (Entry × Nested), z.map Prod.fst = entriesAll above start ts ∧
        z.map Prod.snd = Annotation.outlineAll above.length as ∧
        Numbered above start (rootIds start ts) as z
  | [], ts, h => by
    cases h
    exact ⟨[], rfl, rfl, Numbered.nil above start⟩
  | a :: rest, ts, h => by
    obtain ⟨t, ts', ht, hts, rfl⟩ := buildAll_cons_ok h
    obtain ⟨z, hentries, houtline, hz⟩ :=
      exists_numbered_buildTree cx around above start habove a t ht
    have hbehind : ∀ i ∈ above, i < start + t.size :=
      fun i hi => Nat.lt_add_right t.size (habove i hi)
    obtain ⟨z', hentries', houtline', hz'⟩ :=
      exists_numbered_buildAll cx around above (start + t.size) hbehind rest ts' hts
    have hlength : z.length = t.size := by
      rw [← length_entriesFrom above start t, ← hentries, List.length_map]
    refine ⟨z ++ z', ?_, ?_, hz.append hz' (by rw [hlength]) habove⟩
    · rw [List.map_append, hentries, hentries']
      rfl
    · rw [List.map_append, houtline, houtline']
      rfl

end

/-! ## Trees mirror annotations -/

/-- Entries that have the shape of an annotation. -/
structure Mirrors (a : Annotation) (es : List Entry) : Prop where
  /-- There is one entry for every annotation, in pre-order. -/
  length_eq : es.length = a.outline.length
  shows : ∀ x ∈ es.zip a.outline, x.1.node.Shows x.2.route
  /-- The number of an entry is its place. -/
  ids : es.map Entry.id = List.range es.length
  root : ∀ e ∈ es, e.parent? = none ↔ e.id = 0
  links : ∀ p ∈ es, ∀ c ∈ es, c.id ∈ p.children ↔ c.parent? = some p.id
  ascending : ∀ e ∈ es, e.children.Pairwise (· < ·)
  /-- The children are the entries of the annotations nested directly, in their order. -/
  order : ∀ x ∈ es.zip a.outline, Lists (es.zip a.outline) x.1.children x.2.route.routes
  /-- An entry and those below it have the numbers from its own on. -/
  subtree : ∀ x ∈ es.zip a.outline, ∀ e ∈ es, e.id = x.1.id ∨ x.1.id ∈ e.ancestors ↔
    x.1.id ≤ e.id ∧ e.id < x.1.id + x.2.route.size
  /-- The entries above are met by going from parent to parent. -/
  climb : ∀ e ∈ es, e.parent? = none ∧ e.ancestors = [] ∨
    ∃ p ∈ es, e.parent? = some p.id ∧ e.ancestors = p.id :: p.ancestors
  descending : ∀ e ∈ es, (e.id :: e.ancestors).Pairwise (· > ·)
  ends : ∀ e ∈ es, (e.id :: e.ancestors).getLast? = some 0
  depth : ∀ x ∈ es.zip a.outline, x.1.ancestors.length = x.2.depth

theorem Numbered.ends {a : Annotation} {z : List (Entry × Nested)} (h : Numbered [] 0 [0] [a] z)
    {x : Entry × Nested} (hx : x ∈ z) : (x.1.id :: x.1.ancestors).getLast? = some 0 := by
  induction hlength : x.1.ancestors.length generalizing x with
  | zero =>
    have hnil : x.1.ancestors = [] := List.length_eq_zero_iff.1 hlength
    have htop : x.1.id ∈ [0] := (h.mem_tops x hx).2 hnil
    rw [hnil, List.mem_singleton.1 htop]
    rfl
  | succ n ih =>
    rcases h.climb x hx with hnil | ⟨y, hy, hparent⟩
    · rw [hnil] at hlength
      cases hlength
    · rw [hparent, List.getLast?_cons_cons]
      refine ih hy ?_
      rw [hparent] at hlength
      exact Nat.succ.inj hlength

theorem Numbered.mirrors {a : Annotation} {es : List Entry} {z : List (Entry × Nested)}
    (h : Numbered [] 0 [0] [a] z) (hentries : z.map Prod.fst = es)
    (houtline : z.map Prod.snd = a.outline) : Mirrors a es := by
  have hzip : es.zip a.outline = z := (List.zip_of_prod hentries houtline).symm
  have hmem : ∀ e ∈ es, ∃ x ∈ z, x.1 = e := by
    intro e he
    rw [← hentries] at he
    exact List.mem_map.1 he
  have htop : ∀ x ∈ z, x.1.parent? = none ↔ x.1.ancestors = [] := by
    intro x hx
    rw [h.parent x hx, List.head?_eq_none_iff]
  constructor
  case length_eq => rw [← hentries, ← houtline, List.length_map, List.length_map]
  case shows => exact hzip ▸ h.shows
  case ids =>
    rw [← hentries, List.map_map, List.length_map, List.range_eq_range']
    exact h.ids
  case root =>
    intro e he
    obtain ⟨x, hx, rfl⟩ := hmem e he
    rw [htop x hx, ← h.mem_tops x hx, List.mem_singleton]
  case links =>
    intro p hp c hc
    obtain ⟨x, hx, rfl⟩ := hmem p hp
    obtain ⟨y, hy, rfl⟩ := hmem c hc
    exact h.links x hx y hy
  case ascending =>
    intro e he
    obtain ⟨x, hx, rfl⟩ := hmem e he
    exact h.ascending x hx
  case order => exact hzip ▸ h.order
  case subtree =>
    rw [hzip]
    intro x hx e he
    obtain ⟨y, hy, rfl⟩ := hmem e he
    have hsize : 0 < x.2.route.size := by
      rw [x.2.route.size_eq 0]
      exact Nat.succ_pos _
    rw [h.subtree x hx y hy]
    omega
  case climb =>
    intro e he
    obtain ⟨x, hx, rfl⟩ := hmem e he
    rcases h.climb x hx with hnil | ⟨y, hy, hparent⟩
    · exact Or.inl ⟨(htop x hx).2 hnil, hnil⟩
    · refine Or.inr ⟨y.1, hentries ▸ List.mem_map_of_mem hy, ?_, hparent⟩
      rw [h.parent x hx, hparent]
      rfl
  case descending =>
    intro e he
    obtain ⟨x, hx, rfl⟩ := hmem e he
    obtain ⟨between, hancestors, hdescending, -⟩ := h.ancestors x hx
    rw [hancestors, List.append_nil]
    exact hdescending
  case ends =>
    intro e he
    obtain ⟨x, hx, rfl⟩ := hmem e he
    exact h.ends hx
  case depth => exact hzip ▸ h.depth

/-- The entries of a tree mirror the annotation that it was built from. -/
theorem mirrors_entries {catalog : Catalog} {settings : Settings} {d : Declaration} {t : RouteTree}
    (h : RouteTree.ofDeclaration catalog settings d = .ok t) : Mirrors d.annotation t.entries := by
  obtain ⟨-, ht⟩ := ofDeclaration_ok h
  obtain ⟨z, hentries, houtline, hz⟩ :=
    exists_numbered_buildTree _ {} [] 0 (by simp) d.annotation t ht
  exact hz.mirrors hentries houtline

/-- A leaf, a shell below it and a leaf below that. -/
theorem mirrors_family :
    RouteTree.ofDeclaration familyCatalog {} familyDeclaration = .ok familyTree ∧
      Mirrors familyDeclaration.annotation familyTree.entries :=
  ⟨ofDeclaration_family, mirrors_entries ofDeclaration_family⟩

end TypedRoutes
