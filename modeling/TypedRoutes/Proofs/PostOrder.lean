import TypedRoutes.Proofs.Chain
import TypedRoutes.Proofs.Query

/-!
# Routes in post-order

A position in a tree of routes is the list of the numbers of the children on the way down to it, so
its length is its depth.

* `Before` : positions in post-order; `Precedes` : positions in branches of which one is earlier;
* `Route.line` : the routes from the root down to a position;
* `Route.Leaf`, `Route.IsLeaf` : a navigable route at its position, with what the paths down to it
  join to;
* `Route.leaves` : the navigable routes in post-order; `mem_leaves`, `pairwise_leaves` : they are
  all there, and in this order;
* `Route.FirstMatch` : the first navigable route in post-order that matches a path;
* `find_firstMatch` : the search finds it;
* `decode_deepest_iff` : when it is a deepest one that matches.
-/

namespace TypedRoutes.Navigation

/-! ## Positions -/

/-- The numbers of the children on the way down to a route. -/
abbrev Position := List Nat

/-- The first position is in front of the second in post-order. -/
inductive Before : Position → Position → Prop
  /-- All that is below a route is in front of it. -/
  | descendant (i : Nat) (p : Position) : Before (i :: p) []
  /-- An earlier child is in front of a later one, with all that is below them. -/
  | earlier {i j : Nat} (h : i < j) (p q : Position) : Before (i :: p) (j :: q)
  /-- Below one child the order is that of the child. -/
  | within (i : Nat) {p q : Position} (h : Before p q) : Before (i :: p) (i :: q)

/-- The second position is in a later branch than the first: from some route the way to it goes on
to a later child. -/
def Precedes (p q : Position) : Prop :=
  ∃ (above : Position) (i j : Nat), i < j ∧ above ++ [i] <+: p ∧ above ++ [j] <+: q

namespace Before

variable {p q : Position}

theorem asymm (h : Before p q) : ¬Before q p := by
  induction h with
  | descendant i p =>
    intro h
    cases h
  | earlier hlt p q =>
    intro h
    cases h with
    | earlier hlt' => exact Nat.lt_asymm hlt hlt'
    | within => exact Nat.lt_irrefl _ hlt
  | within i h ih =>
    intro h'
    cases h' with
    | earlier hlt => exact Nat.lt_irrefl _ hlt
    | within _ h' => exact ih h'

/-- What is below a position is in front of it. -/
theorem append (p : Position) {below : Position} (h : below ≠ []) : Before (p ++ below) p := by
  induction p with
  | nil =>
    obtain ⟨i, below, rfl⟩ := List.exists_cons_of_ne_nil h
    exact .descendant i below
  | cons i p ih => exact .within i ih

/-- Behind a position are those above it and those in later branches. -/
theorem prefix_or_precedes (h : Before p q) : q <+: p ∨ Precedes p q := by
  induction h with
  | descendant i p => exact Or.inl List.nil_prefix
  | @earlier i j hlt p q => exact Or.inr ⟨[], i, j, hlt, ⟨p, rfl⟩, ⟨q, rfl⟩⟩
  | @within i p q h ih =>
    rcases ih with hprefix | ⟨above, j, k, hlt, hj, hk⟩
    · exact Or.inl ((List.prefix_cons_inj i).2 hprefix)
    · exact Or.inr ⟨i :: above, j, k, hlt, (List.prefix_cons_inj i).2 hj,
        (List.prefix_cons_inj i).2 hk⟩

end Before

namespace Route

variable {τ : Type}

/-! ## Routes at positions -/

/-- The routes right below a route. -/
def children : Route τ → List (Route τ)
  | go _ _ _ _ routes => routes
  | shell _ _ routes => routes

/-- The path of a navigable route, as declared. -/
def path? : Route τ → Option (List Char)
  | go own _ _ _ _ => some own.toList
  | shell _ _ _ => none

/-- The routes from the root down to a position. -/
def line : Route τ → Position → Option (List (Route τ))
  | r, [] => some [r]
  | r, i :: p => r.children[i]?.bind fun c => (c.line p).map (r :: ·)

/-- What the paths of the navigable routes along a line join to below a joined path. -/
def joinedAlong (parent : List Char) (line : List (Route τ)) : List Char :=
  (line.filterMap path?).foldl pathBelow parent

/-- A navigable route: its position, what the paths along the line down to it join to, and its
target. -/
structure Leaf (τ : Type) where
  position : Position
  template : List Char
  target : τ

/-- A navigable route of a tree that stands below a joined path. -/
def IsLeaf (parent : List Char) (r : Route τ) (l : Leaf τ) : Prop :=
  ∃ above own name? key? routes,
    r.line l.position = some (above ++ [go own name? key? l.target routes]) ∧
      l.template = joinedAlong parent (above ++ [go own name? key? l.target routes])

theorem line_begins {r : Route τ} {p : Position} {line : List (Route τ)}
    (h : r.line p = some line) : ∃ rest, line = r :: rest := by
  cases p with
  | nil => exact ⟨[], (Option.some.inj h).symm⟩
  | cons i p =>
    obtain ⟨c, -, h⟩ := Option.bind_eq_some_iff.1 h
    obtain ⟨rest, -, rfl⟩ := Option.map_eq_some_iff.1 h
    exact ⟨rest, rfl⟩

theorem joinedAlong_cons (parent : List Char) (r : Route τ) (line : List (Route τ)) :
    joinedAlong parent (r :: line) = joinedAlong (joinedAlong parent [r]) line := by
  cases r <;> rfl

section

variable {parent template : List Char} {r : Route τ} {target : τ}

theorem isLeaf_root :
    IsLeaf parent r ⟨[], template, target⟩ ↔
      ∃ own name? key? routes, r = go own name? key? target routes ∧
        template = pathBelow parent own.toList := by
  constructor
  · rintro ⟨above, own, name?, key?, routes, hline, htemplate⟩
    have hroot : [] ++ [r] = above ++ [go own name? key? target routes] := Option.some.inj hline
    obtain ⟨rfl, hr⟩ := List.append_inj' hroot rfl
    exact ⟨own, name?, key?, routes, List.singleton_inj.1 hr, htemplate⟩
  · rintro ⟨own, name?, key?, routes, rfl, rfl⟩
    exact ⟨[], own, name?, key?, routes, rfl, rfl⟩

theorem isLeaf_child {i : Nat} {p : Position} :
    IsLeaf parent r ⟨i :: p, template, target⟩ ↔
      ∃ c, r.children[i]? = some c ∧
        IsLeaf (joinedAlong parent [r]) c ⟨p, template, target⟩ := by
  constructor
  · rintro ⟨above, own, name?, key?, routes, hline, htemplate⟩
    obtain ⟨c, hc, hline⟩ := Option.bind_eq_some_iff.1 hline
    obtain ⟨line, hline, hcons⟩ := Option.map_eq_some_iff.1 hline
    obtain ⟨rest, hrest⟩ := line_begins hline
    cases above with
    | nil =>
      -- the line goes on below `r`, so `r` is not the route at its end
      rw [hrest] at hcons
      cases hcons
    | cons r' above =>
      obtain ⟨rfl, rfl⟩ := List.cons.inj hcons
      refine ⟨c, hc, above, own, name?, key?, routes, hline, ?_⟩
      rw [← joinedAlong_cons]
      exact htemplate
  · rintro ⟨c, hc, above, own, name?, key?, routes, hline, htemplate⟩
    refine ⟨r :: above, own, name?, key?, routes, ?_, ?_⟩
    · rw [line, hc, Option.bind_some, hline]
      rfl
    · rw [List.cons_append, joinedAlong_cons]
      exact htemplate

end

/-! ## Enumeration -/

/-- A navigable route of a child as one of the tree. -/
def Leaf.under (i : Nat) (l : Leaf τ) : Leaf τ :=
  { l with position := i :: l.position }

mutual

/-- The navigable routes of a tree below a joined path, in post-order. -/
def leaves (parent : List Char) : Route τ → List (Leaf τ)
  | go own _ _ target routes =>
    leavesFrom (pathBelow parent own.toList) 0 routes ++
      [⟨[], pathBelow parent own.toList, target⟩]
  | shell _ _ routes => leavesFrom parent 0 routes

/-- Those of children that are numbered from `i` on. -/
def leavesFrom (parent : List Char) (i : Nat) : List (Route τ) → List (Leaf τ)
  | [] => []
  | r :: rest => (r.leaves parent).map (Leaf.under i) ++ leavesFrom parent (i + 1) rest

end

/-- A navigable route of one of some children that are numbered from `i` on. -/
def IsLeafFrom (parent : List Char) (i : Nat) (rs : List (Route τ)) (l : Leaf τ) : Prop :=
  ∃ j c m, rs[j]? = some c ∧ IsLeaf parent c m ∧ l = m.under (i + j)

section

variable {parent template : List Char} {i : Nat} {r : Route τ} {rs routes : List (Route τ)}
  {target : τ} {l : Leaf τ}

theorem isLeafFrom_cons :
    IsLeafFrom parent i (r :: rs) l ↔
      (∃ m, IsLeaf parent r m ∧ l = m.under i) ∨ IsLeafFrom parent (i + 1) rs l := by
  constructor
  · rintro ⟨j, c, m, hc, hm, rfl⟩
    cases j with
    | zero =>
      cases hc
      exact Or.inl ⟨m, hm, rfl⟩
    | succ j => exact Or.inr ⟨j, c, m, hc, hm, by rw [Nat.add_right_comm, Nat.add_assoc]⟩
  · rintro (⟨m, hm, rfl⟩ | ⟨j, c, m, hc, hm, rfl⟩)
    · exact ⟨0, r, m, rfl, hm, rfl⟩
    · exact ⟨j + 1, c, m, hc, hm, by rw [Nat.add_right_comm, Nat.add_assoc]⟩

theorem not_isLeafFrom_root : ¬IsLeafFrom parent i rs ⟨[], template, target⟩ := by
  rintro ⟨j, c, m, -, -, hl⟩
  cases congrArg Leaf.position hl

theorem isLeafFrom_child {p : Position} :
    IsLeafFrom parent 0 rs ⟨i :: p, template, target⟩ ↔
      ∃ c, rs[i]? = some c ∧ IsLeaf parent c ⟨p, template, target⟩ := by
  constructor
  · rintro ⟨j, c, ⟨p', template', target'⟩, hc, hm, hl⟩
    rw [Nat.zero_add] at hl
    cases hl
    exact ⟨c, hc, hm⟩
  · rintro ⟨c, hc, hm⟩
    exact ⟨i, c, _, hc, hm, by rw [Nat.zero_add]; rfl⟩

theorem isLeaf_go {own : String} {name? key? : Option String} :
    IsLeaf parent (go own name? key? target routes) l ↔
      IsLeafFrom (pathBelow parent own.toList) 0 routes l ∨
        l = ⟨[], pathBelow parent own.toList, target⟩ := by
  obtain ⟨_ | ⟨i, p⟩, template, target'⟩ := l
  · rw [isLeaf_root, or_iff_right not_isLeafFrom_root]
    constructor
    · rintro ⟨_, _, _, _, ⟨⟩, rfl⟩
      rfl
    · rintro ⟨⟩
      exact ⟨own, name?, key?, routes, rfl, rfl⟩
  · rw [isLeaf_child, isLeafFrom_child]
    simp only [Leaf.mk.injEq, reduceCtorEq, false_and, or_false]
    rfl

theorem isLeaf_shell {key? parentKey? : Option String} :
    IsLeaf parent (shell key? parentKey? routes) l ↔ IsLeafFrom parent 0 routes l := by
  obtain ⟨_ | ⟨i, p⟩, template, target⟩ := l
  · rw [isLeaf_root, iff_false_right not_isLeafFrom_root]
    rintro ⟨_, _, _, _, ⟨⟩, -⟩
  · rw [isLeaf_child, isLeafFrom_child]
    rfl

end

-- Recursion over the tree and, at every route, over its children from the first on: the number of
-- the first goes up on the way.
mutual

theorem mem_leaves {l : Leaf τ} (parent : List Char) :
    ∀ r : Route τ, l ∈ r.leaves parent ↔ IsLeaf parent r l
  | go own name? key? target routes => by
    rw [leaves, List.mem_append, List.mem_singleton, isLeaf_go,
      mem_leavesFrom (pathBelow parent own.toList) 0 routes]
  | shell key? parentKey? routes => by
    rw [leaves, isLeaf_shell, mem_leavesFrom parent 0 routes]

theorem mem_leavesFrom {l : Leaf τ} (parent : List Char) :
    ∀ (i : Nat) (rs : List (Route τ)), l ∈ leavesFrom parent i rs ↔ IsLeafFrom parent i rs l
  | i, [] => by simp [leavesFrom, IsLeafFrom]
  | i, r :: rest => by
    rw [leavesFrom, List.mem_append, List.mem_map, isLeafFrom_cons,
      mem_leavesFrom parent (i + 1) rest]
    simp only [mem_leaves parent r, eq_comm]

end

/-- Routes in post-order. -/
def InOrder (l m : Leaf τ) : Prop :=
  Before l.position m.position

/-- What is found below a child has its number in front. -/
theorem position_of_mem_leavesFrom {parent : List Char} {i : Nat} {rs : List (Route τ)}
    {l : Leaf τ} (h : l ∈ leavesFrom parent i rs) : ∃ j p, i ≤ j ∧ l.position = j :: p := by
  obtain ⟨j, c, m, -, -, rfl⟩ := (mem_leavesFrom parent i rs).1 h
  exact ⟨i + j, m.position, Nat.le_add_right i j, rfl⟩

mutual

theorem pairwise_leaves (parent : List Char) : ∀ r : Route τ, (r.leaves parent).Pairwise InOrder
  | go own name? key? target routes => by
    rw [leaves, List.pairwise_append]
    refine ⟨pairwise_leavesFrom _ 0 routes, List.pairwise_singleton _ _, ?_⟩
    intro l hl m hm
    obtain rfl := List.mem_singleton.1 hm
    obtain ⟨j, p, -, hp⟩ := position_of_mem_leavesFrom hl
    rw [InOrder, hp]
    exact .descendant j p
  | shell key? parentKey? routes => pairwise_leavesFrom parent 0 routes

theorem pairwise_leavesFrom (parent : List Char) :
    ∀ (i : Nat) (rs : List (Route τ)), (leavesFrom parent i rs).Pairwise InOrder
  | i, [] => .nil
  | i, r :: rest => by
    rw [leavesFrom, List.pairwise_append, List.pairwise_map]
    refine ⟨(pairwise_leaves parent r).imp fun h => .within i h,
      pairwise_leavesFrom parent (i + 1) rest, ?_⟩
    intro l hl m hm
    obtain ⟨l, -, rfl⟩ := List.mem_map.1 hl
    obtain ⟨j, p, hij, hp⟩ := position_of_mem_leavesFrom hm
    rw [InOrder, hp]
    exact .earlier hij l.position p

end

mutual

theorem joined_eq_map_leaves (parent : List Char) :
    ∀ r : Route τ, r.joined parent = (r.leaves parent).map fun l => (l.template, l.target)
  | go own name? key? target routes => by
    rw [joined, leaves, List.map_append, joinedAll_eq_map_leavesFrom _ 0 routes]
    rfl
  | shell key? parentKey? routes => by
    rw [joined, leaves, joinedAll_eq_map_leavesFrom parent 0 routes]

theorem joinedAll_eq_map_leavesFrom (parent : List Char) :
    ∀ (i : Nat) (rs : List (Route τ)),
      joinedAll parent rs = (leavesFrom parent i rs).map fun l => (l.template, l.target)
  | i, [] => rfl
  | i, r :: rest => by
    rw [joinedAll, leavesFrom, List.map_append, List.map_map, joined_eq_map_leaves parent r,
      joinedAll_eq_map_leavesFrom parent (i + 1) rest]
    rfl

end

/-! ## Search -/

/-- A navigable route that matches a path, with the values of its parameters. -/
def Matches (r : Route τ) (path : List Char) (l : Leaf τ) (params : Params) : Prop :=
  IsLeaf [] r l ∧ matchTemplate l.template path = some params

/-- The first navigable route in post-order that matches a path. -/
structure FirstMatch (r : Route τ) (path : List Char) (l : Leaf τ) (params : Params) : Prop where
  isMatch : r.Matches path l params
  first : ∀ m ps, r.Matches path m ps → m = l ∨ Before l.position m.position

theorem find_eq_findSome_leaves (r : Route τ) (path : List Char) :
    r.find path =
      (r.leaves []).findSome? fun l => (matchTemplate l.template path).map (l.target, ·) := by
  rw [find_eq_findSome, joined_eq_map_leaves, List.findSome?_map]
  rfl

section

variable {r : Route τ} {path : List Char} {l m : Leaf τ} {params ps : Params}

/-- What matches while nothing in front of it does is the first match. -/
theorem firstMatch_of_leaves {before behind : List (Leaf τ)}
    (h : r.leaves [] = before ++ l :: behind)
    (hbefore : ∀ m ∈ before, matchTemplate m.template path = none)
    (hl : matchTemplate l.template path = some params) : r.FirstMatch path l params := by
  have hmem : ∀ m, IsLeaf [] r m ↔ m ∈ before ∨ m = l ∨ m ∈ behind := by
    intro m
    rw [← mem_leaves [] r, h, List.mem_append, List.mem_cons]
  have hpairwise := pairwise_leaves [] r
  rw [h, List.pairwise_append, List.pairwise_cons] at hpairwise
  refine ⟨⟨(hmem l).2 (Or.inr (Or.inl rfl)), hl⟩, ?_⟩
  rintro m ps ⟨hm, hmatch⟩
  rcases (hmem m).1 hm with hm | rfl | hm
  · rw [hbefore m hm] at hmatch
    cases hmatch
  · exact Or.inl rfl
  · exact Or.inr (hpairwise.2.1.1 m hm)

theorem exists_firstMatch {target : τ} (h : r.find path = some (target, params)) :
    ∃ l, r.FirstMatch path l params ∧ l.target = target := by
  rw [find_eq_findSome_leaves] at h
  obtain ⟨before, l, behind, hleaves, hl, hbefore⟩ := List.findSome?_eq_some_iff.1 h
  obtain ⟨ps, hmatch, heq⟩ := Option.map_eq_some_iff.1 hl
  obtain ⟨rfl, rfl⟩ := Prod.mk.inj heq
  have hnone : ∀ m ∈ before, matchTemplate m.template path = none :=
    fun m hm => Option.map_eq_none_iff.1 (hbefore m hm)
  exact ⟨l, firstMatch_of_leaves hleaves hnone hmatch, rfl⟩

theorem find_eq_none_iff :
    r.find path = none ↔ ∀ l, IsLeaf [] r l → matchTemplate l.template path = none := by
  rw [find_eq_findSome_leaves, List.findSome?_eq_none_iff]
  simp only [Option.map_eq_none_iff, mem_leaves]

/-- There is one first match. -/
theorem FirstMatch.unique (hl : r.FirstMatch path l params) (hm : r.FirstMatch path m ps) :
    l = m ∧ params = ps := by
  have heq : l = m := by
    rcases hl.first m ps hm.isMatch with rfl | hlm
    · rfl
    · rcases hm.first l params hl.isMatch with rfl | hml
      · rfl
      · exact absurd hml hlm.asymm
  subst heq
  exact ⟨rfl, Option.some.inj (hl.isMatch.2.symm.trans hm.isMatch.2)⟩

theorem FirstMatch.find_eq (h : r.FirstMatch path l params) :
    r.find path = some (l.target, params) := by
  cases hfind : r.find path with
  | none =>
    have hnone := find_eq_none_iff.1 hfind l h.isMatch.1
    rw [h.isMatch.2] at hnone
    cases hnone
  | some found =>
    obtain ⟨target, ps⟩ := found
    obtain ⟨m, hm, rfl⟩ := exists_firstMatch hfind
    obtain ⟨rfl, rfl⟩ := h.unique hm
    rfl

/-- Nothing below the first match matches. -/
theorem FirstMatch.eq_none_of_below (h : r.FirstMatch path l params) (hm : IsLeaf [] r m)
    {below : Position} (hbelow : below ≠ []) (hposition : m.position = l.position ++ below) :
    matchTemplate m.template path = none := by
  have hbefore : Before m.position l.position := by
    rw [hposition]
    exact .append l.position hbelow
  cases hmatch : matchTemplate m.template path with
  | none => rfl
  | some ps =>
    rcases h.first m ps ⟨hm, hmatch⟩ with rfl | hafter
    · exact absurd hbefore hbefore.asymm
    · exact absurd hbefore hafter.asymm

end

/-- A route is found for a path just if it is the first one in post-order that matches it, and none
just if none matches it. What is found has the parameters of that match, and nothing below it
matches. -/
theorem find_firstMatch (r : Route τ) (path : List Char) :
    (∀ target params, r.find path = some (target, params) ↔
      ∃ l, r.FirstMatch path l params ∧ l.target = target) ∧
    (r.find path = none ↔ ∀ l, IsLeaf [] r l → matchTemplate l.template path = none) ∧
    ∀ l params, r.FirstMatch path l params → ∀ m, IsLeaf [] r m →
      ∀ below ≠ [], m.position = l.position ++ below → matchTemplate m.template path = none := by
  refine ⟨fun target params => ⟨exists_firstMatch, ?_⟩, find_eq_none_iff, ?_⟩
  · rintro ⟨l, hl, rfl⟩
    exact hl.find_eq
  · intro l params hl m hm below hbelow hposition
    exact hl.eq_none_of_below hm hbelow hposition

/-! ### Two ways to one path -/

/-- Below the root a route with a parameter, and behind it a shell with a route that has such a
parameter one level further down. -/
def forkTree (target : String → τ) : Route τ :=
  .go "/" none none (target "root")
    [.go "a/:y" none none (target "short") [.go "c" none none (target "shorter") []],
      .shell none none [.go "a" none none (target "outer") [.go ":z" none none (target "long") []]]]

theorem leaves_fork (target : String → τ) :
    (forkTree target).leaves [] =
      [⟨[0, 0], "/a/:y/c".toList, target "shorter"⟩, ⟨[0], "/a/:y".toList, target "short"⟩,
        ⟨[1, 0, 0], "/a/:z".toList, target "long"⟩, ⟨[1, 0], "/a".toList, target "outer"⟩,
        ⟨[], "/".toList, target "root"⟩] := by
  rfl

theorem matchTemplate_fork :
    matchTemplate "/a/:y/c".toList "/a/b".toList = none ∧
      matchTemplate "/a/:y".toList "/a/b".toList = some [("y", "b")] ∧
      matchTemplate "/a/:z".toList "/a/b".toList = some [("z", "b")] ∧
      ∀ l ∈ (forkTree id).leaves [], matchTemplate l.template "/b".toList = none := by
  decide +kernel

/-- Of two routes that match the one in the earlier branch is first. -/
theorem firstMatch_fork (target : String → τ) :
    (forkTree target).FirstMatch "/a/b".toList ⟨[0], "/a/:y".toList, target "short"⟩
      [("y", "b")] := by
  obtain ⟨hshorter, hshort, -, -⟩ := matchTemplate_fork
  have hleaves : (forkTree target).leaves [] =
      [⟨[0, 0], "/a/:y/c".toList, target "shorter"⟩] ++
        ⟨[0], "/a/:y".toList, target "short"⟩ :: _ := leaves_fork target
  refine firstMatch_of_leaves hleaves ?_ hshort
  intro m hm
  obtain rfl := List.mem_singleton.1 hm
  exact hshorter

theorem matches_fork (target : String → τ) :
    (forkTree target).Matches "/a/b".toList ⟨[1, 0, 0], "/a/:z".toList, target "long"⟩
      [("z", "b")] := by
  obtain ⟨-, -, hlong, -⟩ := matchTemplate_fork
  refine ⟨(mem_leaves [] _).1 ?_, hlong⟩
  rw [leaves_fork]
  simp

/-- A path that two routes match, and one that none does. -/
theorem find_firstMatch_fork :
    (forkTree id).find "/a/b".toList = some ("short", [("y", "b")]) ∧
      (forkTree id).FirstMatch "/a/b".toList ⟨[0], "/a/:y".toList, "short"⟩ [("y", "b")] ∧
      (forkTree id).Matches "/a/b".toList ⟨[1, 0, 0], "/a/:z".toList, "long"⟩ [("z", "b")] ∧
      IsLeaf [] (forkTree id) ⟨[0] ++ [0], "/a/:y/c".toList, "shorter"⟩ ∧
      matchTemplate "/a/:y/c".toList "/a/b".toList = none ∧
      (∀ l, IsLeaf [] (forkTree id) l → matchTemplate l.template "/b".toList = none) ∧
      (forkTree id).find "/b".toList = none := by
  have hfirst := firstMatch_fork id
  have hshorter : IsLeaf [] (forkTree id) ⟨[0] ++ [0], "/a/:y/c".toList, "shorter"⟩ := by
    rw [← mem_leaves, leaves_fork]
    exact List.mem_cons_self
  have hother : ∀ l, IsLeaf [] (forkTree id) l → matchTemplate l.template "/b".toList = none := by
    intro l hl
    obtain ⟨-, -, -, hnone⟩ := matchTemplate_fork
    exact hnone l ((mem_leaves [] _).2 hl)
  obtain ⟨hfind, -, hbelow⟩ := find_firstMatch (forkTree id) "/a/b".toList
  obtain ⟨-, hnone, -⟩ := find_firstMatch (forkTree id) "/b".toList
  exact ⟨(hfind _ _).2 ⟨_, hfirst, rfl⟩, hfirst, matches_fork id, hshorter,
    hbelow _ _ hfirst _ hshorter [0] (by simp) rfl, hother, hnone.2 hother⟩

/-! ## Depth -/

/-- The value of a location is made by the first route in post-order that matches. No match is
deeper than that route just if none in a later branch is. -/
theorem decode_deepest_iff {π α : Type} (r : Route (Request π → Except ReadError α))
    (location : String) (payload : Option π) :
    (∀ value, r.decode location payload = some value ↔
      ∃ l params, r.FirstMatch (splitLocation location).1 l params ∧
        value = l.target ⟨params, Query.parse (splitLocation location).2, payload⟩) ∧
    ∀ l params, r.FirstMatch (splitLocation location).1 l params →
      ((∀ m ps, r.Matches (splitLocation location).1 m ps →
          m.position.length ≤ l.position.length) ↔
        ∀ m ps, r.Matches (splitLocation location).1 m ps → Precedes l.position m.position →
          m.position.length ≤ l.position.length) := by
  constructor
  · intro value
    rw [decode_eq_map_find, Option.map_eq_some_iff]
    constructor
    · rintro ⟨⟨target, params⟩, hfind, rfl⟩
      obtain ⟨l, hl, rfl⟩ := exists_firstMatch hfind
      exact ⟨l, params, hl, rfl⟩
    · rintro ⟨l, params, hl, rfl⟩
      exact ⟨_, hl.find_eq, rfl⟩
  · intro l params hl
    refine ⟨fun hdeepest m ps hm _ => hdeepest m ps hm, fun hlater m ps hm => ?_⟩
    rcases hl.first m ps hm with rfl | hbefore
    · exact Nat.le_refl _
    · -- a match behind `l` that is not in a later branch is above it, so it is less deep
      rcases hbefore.prefix_or_precedes with hprefix | hprecedes
      · exact hprefix.length_le
      · exact hlater m ps hm hprecedes

/-- The route that is decoded is in front of a deeper one that matches as well. -/
theorem decode_deepest_iff_fork :
    let target := fun name (_ : Request Unit) => (Except.ok name : Except ReadError String)
    (forkTree target).FirstMatch (splitLocation "/a/b").1
        ⟨[0], "/a/:y".toList, target "short"⟩ [("y", "b")] ∧
      (forkTree target).decode "/a/b" none = some (.ok "short") ∧
      (forkTree target).Matches (splitLocation "/a/b").1
        ⟨[1, 0, 0], "/a/:z".toList, target "long"⟩ [("z", "b")] ∧
      Precedes [0] [1, 0, 0] ∧
      ¬∀ m ps, (forkTree target).Matches (splitLocation "/a/b").1 m ps →
        Precedes [0] m.position → m.position.length ≤ 1 := by
  intro target
  have hpath : (splitLocation "/a/b").1 = "/a/b".toList :=
    congrArg Prod.fst (splitOnce_of_not_mem (by decide))
  obtain ⟨hvalue, hdeepest⟩ := decode_deepest_iff (forkTree target) "/a/b" none
  rw [hpath] at hvalue hdeepest ⊢
  have hfirst := firstMatch_fork target
  have hlong := matches_fork target
  refine ⟨hfirst, (hvalue _).2 ⟨_, _, hfirst, rfl⟩, hlong, ?_, ?_⟩
  · exact ⟨[], 0, 1, Nat.zero_lt_one, ⟨[], rfl⟩, ⟨[0, 0], rfl⟩⟩
  · intro h
    exact absurd ((hdeepest _ _ hfirst).2 h _ _ hlong) (by decide)

end Route

end TypedRoutes.Navigation
