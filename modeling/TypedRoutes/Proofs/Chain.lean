import TypedRoutes.Navigation.Route
import TypedRoutes.Proofs.Build
import TypedRoutes.Proofs.Joining

/-!
# Paths along a tree

* `RouteTree.chains` : for every node in pre-order the nodes from the root down to it;
* `paths` : the paths of the leaves among some nodes, as annotated;
* `checked_chain` : every node of a tree was checked in surroundings that suit the nodes above it;
* `text_template_chain` : the template of a leaf is that of the paths along its chain;
* `RouteTree.route` : the tree at run time; `Route.joined` : what its routes are matched against;
* `mem_joined_route` : a leaf is matched against what the navigator joins along its chain;
* `navigated_chain_eq_text_iff` : when a leaf is matched against its own template.
-/

namespace TypedRoutes

open Navigation

/-! ## Chains -/

/-- The path of a leaf, as annotated. -/
def Node.path? (n : Node) : Option (List Char) :=
  match n.role with
  | .leaf path _ _ => some path.toList
  | .shell _ => none

/-- The paths of the leaves among some nodes, as annotated. -/
def paths (ns : List Node) : List (List Char) :=
  ns.filterMap Node.path?

theorem paths_concat_leaf {n : Node} {path : String} {name? : Option String}
    {template : PathTemplate} (h : n.role = .leaf path name? template) (above : List Node) :
    paths (above ++ [n]) = paths above ++ [path.toList] := by
  simp [paths, Node.path?, h]

theorem paths_concat_shell {n : Node} {key? : Option KeyBinding} (h : n.role = .shell key?)
    (above : List Node) : paths (above ++ [n]) = paths above := by
  simp [paths, Node.path?, h]

namespace RouteTree

mutual

/-- For every node in pre-order the nodes from the root down to it, below `above`. -/
def chainsBelow (above : List Node) : RouteTree → List (List Node)
  | node n ts => (above ++ [n]) :: chainsAll (above ++ [n]) ts

def chainsAll (above : List Node) : List RouteTree → List (List Node)
  | [] => []
  | t :: rest => t.chainsBelow above ++ chainsAll above rest

end

/-- For every node in pre-order the nodes from the root down to it. -/
def chains (t : RouteTree) : List (List Node) :=
  t.chainsBelow []

mutual

theorem map_getLast_chainsBelow (above : List Node) :
    ∀ t : RouteTree, (t.chainsBelow above).map List.getLast? = t.nodes.map some
  | node n ts => by
    rw [chainsBelow, nodes, List.map_cons, List.map_cons, map_getLast_chainsAll (above ++ [n]) ts,
      List.getLast?_concat]

theorem map_getLast_chainsAll (above : List Node) :
    ∀ ts : List RouteTree, (chainsAll above ts).map List.getLast? = (nodesAll ts).map some
  | [] => rfl
  | t :: rest => by
    rw [chainsAll, nodesAll, List.map_append, List.map_append, map_getLast_chainsBelow above t,
      map_getLast_chainsAll above rest]

end

/-- There is one chain for every node, and it ends in that node. -/
theorem map_getLast_chains (t : RouteTree) : t.chains.map List.getLast? = t.nodes.map some :=
  map_getLast_chainsBelow [] t

theorem exists_chain {t : RouteTree} {n : Node} (hn : n ∈ t.nodes) :
    ∃ above, above ++ [n] ∈ t.chains := by
  have hlast : some n ∈ t.chains.map List.getLast? := by
    rw [map_getLast_chains]
    exact List.mem_map_of_mem hn
  obtain ⟨c, hc, hcn⟩ := List.mem_map.1 hlast
  obtain ⟨above, rfl⟩ := List.getLast?_eq_some_iff.1 hcn
  exact ⟨above, hc⟩

end RouteTree

/-! ## Templates -/

section Templates

variable {cx : Context} {around : Surroundings} {above : List Node} {n : Node}

/-- The path handed down to the routes below a node is the template of the paths down to it. -/
theorem below_path_eq_generated {a : Annotation} (h : checkNode cx around a = .ok n)
    (habove : around.path.toList = generated (paths above)) :
    (around.below n).path.toList = generated (paths (above ++ [n])) := by
  cases a with
  | go type path? name? routes =>
    obtain ⟨path, ps, fields, constants, template, bindings, -, -, htemplate, -, -, rfl⟩ :=
      checkNode_go_ok h
    rw [below_path_leaf rfl, paths_concat_leaf rfl, generated_concat, text_parseTemplate htemplate,
      joinTemplates, String.toList_ofList, habove]
  | shell type routes =>
    obtain ⟨ps, fields, constants, template?, bindings, -, -, -, rfl⟩ := checkNode_shell_ok h
    rw [below_path_shell rfl, paths_concat_shell rfl, habove]

end Templates

section Checked

variable {cx : Context} {P : Surroundings → List Node → Prop}

mutual

theorem checked_chainsBelow
    (hstep : ∀ around above a n, P around above → checkNode cx around a = .ok n →
      P (around.below n) (above ++ [n])) (around : Surroundings) (above : List Node)
    (hP : P around above) :
    ∀ (a : Annotation) (t : RouteTree), buildTree cx around a = .ok t →
      ∀ c ∈ t.chainsBelow above, ∃ around' above' a' n, c = above' ++ [n] ∧ P around' above' ∧
        checkNode cx around' a' = .ok n
  | a, t, h => by
    obtain ⟨n, ts, hn, hts, rfl⟩ := buildTree_ok h
    intro c hc
    rw [RouteTree.chainsBelow] at hc
    rcases List.mem_cons.1 hc with rfl | hc
    · exact ⟨around, above, a, n, rfl, hP, hn⟩
    · exact checked_chainsAll hstep (around.below n) (above ++ [n]) (hstep around above a n hP hn)
        a.routes ts hts c hc

theorem checked_chainsAll
    (hstep : ∀ around above a n, P around above → checkNode cx around a = .ok n →
      P (around.below n) (above ++ [n])) (around : Surroundings) (above : List Node)
    (hP : P around above) :
    ∀ (as : List Annotation) (ts : List RouteTree), buildAll cx around as = .ok ts →
      ∀ c ∈ RouteTree.chainsAll above ts, ∃ around' above' a' n, c = above' ++ [n] ∧
        P around' above' ∧ checkNode cx around' a' = .ok n
  | [], ts, h => by
    cases h
    intro c hc
    cases hc
  | a :: rest, ts, h => by
    obtain ⟨t, ts', ht, hts, rfl⟩ := buildAll_cons_ok h
    intro c hc
    rw [RouteTree.chainsAll] at hc
    rcases List.mem_append.1 hc with hc | hc
    · exact checked_chainsBelow hstep around above hP a t ht c hc
    · exact checked_chainsAll hstep around above hP rest ts' hts c hc

end

/-- Every node of a tree was checked in surroundings that have any property which is kept when a node
is put at the end of a chain and what it hands down is taken. -/
theorem checked_chain {catalog : Catalog} {settings : Settings} {d : Declaration} {t : RouteTree}
    (h : RouteTree.ofDeclaration catalog settings d = .ok t) (hroot : P {} [])
    (hstep : ∀ around above a n, P around above →
      checkNode ⟨catalog, settings, d.type⟩ around a = .ok n → P (around.below n) (above ++ [n]))
    {above : List Node} {n : Node} (hc : above ++ [n] ∈ t.chains) :
    ∃ around a, P around above ∧ checkNode ⟨catalog, settings, d.type⟩ around a = .ok n := by
  obtain ⟨-, ht⟩ := ofDeclaration_ok h
  obtain ⟨around, above', a, n', heq, hP, hn⟩ :=
    checked_chainsBelow hstep {} [] hroot _ t ht _ hc
  obtain ⟨rfl, hlast⟩ := List.append_inj' heq rfl
  obtain rfl := List.singleton_inj.1 hlast
  exact ⟨around, a, hP, hn⟩

end Checked

/-- The template of a leaf is that of the paths along its chain. -/
theorem text_template_chain {catalog : Catalog} {settings : Settings} {d : Declaration}
    {t : RouteTree} (h : RouteTree.ofDeclaration catalog settings d = .ok t) {above : List Node}
    {n : Node} (hc : above ++ [n] ∈ t.chains) {path : String} {name? : Option String}
    {template : PathTemplate} (hn : n.role = .leaf path name? template) :
    template.text.toList = generated (paths (above ++ [n])) := by
  obtain ⟨around, a, habove, hcheck⟩ :=
    checked_chain (P := fun around above => around.path.toList = generated (paths above)) h rfl
      (fun around above a n hP hn => below_path_eq_generated hn hP) hc
  rw [← below_path_eq_generated hcheck habove, below_path_leaf hn]

/-! ## Routes at run time -/

namespace Navigation.Route

variable {τ : Type}

mutual

/-- What the routes below a joined path are matched against, each with its target, in the order in
which they are tried. -/
def joined (parent : List Char) : Route τ → List (List Char × τ)
  | go own _ _ target routes =>
    joinedAll (pathBelow parent own.toList) routes ++ [(pathBelow parent own.toList, target)]
  | shell _ _ routes => joinedAll parent routes

def joinedAll (parent : List Char) : List (Route τ) → List (List Char × τ)
  | [] => []
  | r :: rest => joined parent r ++ joinedAll parent rest

end

/-- A path matched against the joined path of a route. -/
def tryMatch (path : List Char) (candidate : List Char × τ) : Option (τ × Params) :=
  (matchTemplate candidate.1 path).map (candidate.2, ·)

mutual

theorem findBelow_eq_findSome (path parent : List Char) :
    ∀ r : Route τ, r.findBelow path parent = (r.joined parent).findSome? (tryMatch path)
  | go own name? key? target routes => by
    rw [findBelow, joined, List.findSome?_append,
      ← findAmong_eq_findSome path (pathBelow parent own.toList) routes]
    cases findAmong path (pathBelow parent own.toList) routes with
    | some found => rfl
    | none =>
      rw [List.findSome?_cons, List.findSome?_nil, tryMatch]
      cases matchTemplate (pathBelow parent own.toList) path <;> rfl
  | shell key? parentKey? routes => by
    rw [findBelow, joined]
    exact findAmong_eq_findSome path parent routes

theorem findAmong_eq_findSome (path parent : List Char) :
    ∀ rs : List (Route τ),
      findAmong path parent rs = (joinedAll parent rs).findSome? (tryMatch path)
  | [] => rfl
  | r :: rest => by
    rw [findAmong, joinedAll, List.findSome?_append, findBelow_eq_findSome path parent r,
      findAmong_eq_findSome path parent rest]
    cases (r.joined parent).findSome? (tryMatch path) <;> rfl

end

/-- The route of a path is the first whose joined path it matches. -/
theorem find_eq_findSome (r : Route τ) (path : List Char) :
    r.find path = (r.joined []).findSome? (tryMatch path) :=
  findBelow_eq_findSome path [] r

end Navigation.Route

namespace RouteTree

/-- The text of a navigator that a route's own type names. -/
def ownKey? (text : KeyBinding → String) (key? : Option KeyBinding) : Option String :=
  (key?.filter (!·.inherited)).map text

mutual

/-- The tree at run time, with the nodes as targets. The constants of navigators have the values
that `text` gives. -/
def route (text : KeyBinding → String) : RouteTree → Route Node
  | node n ts =>
    match n.role with
    | .leaf path name? _ => .go path name? (ownKey? text n.parentKey?) n (routes text ts)
    | .shell key? => .shell (ownKey? text key?) (ownKey? text n.parentKey?) (routes text ts)

def routes (text : KeyBinding → String) : List RouteTree → List (Route Node)
  | [] => []
  | t :: rest => t.route text :: routes text rest

end

/-- A leaf at the end of a chain, with what the navigator joins along it. -/
def IsJoined (chains : List (List Node)) (candidate : List Char × Node) : Prop :=
  ∃ above, above ++ [candidate.2] ∈ chains ∧ candidate.2.path?.isSome ∧
    candidate.1 = navigated (paths (above ++ [candidate.2]))

theorem isJoined_append {cs ds : List (List Node)} {candidate : List Char × Node} :
    IsJoined (cs ++ ds) candidate ↔ IsJoined cs candidate ∨ IsJoined ds candidate := by
  unfold IsJoined
  constructor
  · rintro ⟨above, hc, h⟩
    rcases List.mem_append.1 hc with hc | hc
    · exact Or.inl ⟨above, hc, h⟩
    · exact Or.inr ⟨above, hc, h⟩
  · rintro (⟨above, hc, h⟩ | ⟨above, hc, h⟩)
    · exact ⟨above, List.mem_append_left _ hc, h⟩
    · exact ⟨above, List.mem_append_right _ hc, h⟩

theorem isJoined_singleton {above : List Node} {n : Node} {candidate : List Char × Node} :
    IsJoined [above ++ [n]] candidate ↔
      n.path?.isSome ∧ candidate = (navigated (paths (above ++ [n])), n) := by
  obtain ⟨joined, m⟩ := candidate
  constructor
  · rintro ⟨above', hc, hleaf, hjoined⟩
    obtain ⟨rfl, hlast⟩ := List.append_inj' (List.mem_singleton.1 hc) rfl
    obtain rfl := List.singleton_inj.1 hlast
    exact ⟨hleaf, Prod.ext hjoined rfl⟩
  · rintro ⟨hleaf, heq⟩
    cases heq
    exact ⟨above, List.mem_singleton_self _, hleaf, rfl⟩

mutual

theorem mem_joined_route_below (text : KeyBinding → String) (candidate : List Char × Node) :
    ∀ (above : List Node) (t : RouteTree),
      candidate ∈ (t.route text).joined (navigated (paths above)) ↔
        IsJoined (t.chainsBelow above) candidate
  | above, node n ts => by
    rw [chainsBelow, ← List.singleton_append, isJoined_append, isJoined_singleton,
      ← mem_joined_routes text candidate (above ++ [n]) ts]
    cases hn : n.role with
    | leaf path name? template =>
      have hjoined : navigated (paths (above ++ [n])) =
          pathBelow (navigated (paths above)) path.toList := by
        rw [paths_concat_leaf hn, navigated_concat]
      have hleaf : n.path?.isSome = true := by simp [Node.path?, hn]
      simp only [route, hn, Route.joined, hjoined, hleaf, List.mem_append, List.mem_singleton,
        true_and]
      exact or_comm
    | shell key? =>
      have hjoined : navigated (paths (above ++ [n])) = navigated (paths above) := by
        rw [paths_concat_shell hn]
      have hleaf : n.path?.isSome = false := by simp [Node.path?, hn]
      simp [route, hn, Route.joined, hjoined, hleaf]

theorem mem_joined_routes (text : KeyBinding → String) (candidate : List Char × Node) :
    ∀ (above : List Node) (ts : List RouteTree),
      candidate ∈ Route.joinedAll (navigated (paths above)) (routes text ts) ↔
        IsJoined (chainsAll above ts) candidate
  | above, [] => by
    simp [routes, Route.joinedAll, chainsAll, IsJoined]
  | above, t :: rest => by
    rw [routes, Route.joinedAll, chainsAll, List.mem_append, isJoined_append,
      mem_joined_route_below text candidate above t, mem_joined_routes text candidate above rest]

end

/-- The leaves are matched against what the navigator joins along their chains. -/
theorem mem_joined_route (text : KeyBinding → String) (t : RouteTree)
    (candidate : List Char × Node) :
    candidate ∈ (t.route text).joined [] ↔ IsJoined t.chains candidate :=
  mem_joined_route_below text candidate [] t

end RouteTree

/-! ## Templates at run time -/

/-- A leaf is matched against its own template just if every path along its chain continues those
above it and, where its own path has no characters but slashes, the template ends in one slash. -/
theorem navigated_chain_eq_text_iff {catalog : Catalog} {settings : Settings} {d : Declaration}
    {t : RouteTree} (h : RouteTree.ofDeclaration catalog settings d = .ok t) {above : List Node}
    {n : Node} (hc : above ++ [n] ∈ t.chains) {path : String} {name? : Option String}
    {template : PathTemplate} (hn : n.role = .leaf path name? template) :
    navigated (paths (above ++ [n])) = template.text.toList ↔
      Aligned (paths (above ++ [n])) ∧
        (Bare path.toList →
          template.text.toList = dropSlashesEnd template.text.toList ++ ['/']) := by
  rw [text_template_chain h hc hn, paths_concat_leaf hn]
  exact navigated_eq_generated_iff (paths above) path.toList

/-! ### A route below another -/

/-- Two types without parameters. -/
def pairCatalog : Catalog :=
  .ofList [.routeData "A" [], .routeData "B" []]

/-- A route at `/a` with a route below it. -/
def pairDeclaration (child : String) : Declaration where
  type := "A"
  annotation := .go "A" (some "/a") none [.ofPath "B" child]

/-- A leaf without parameters, its template all literal. -/
def literalLeaf (type path template : String) : Node where
  type := type
  role := .leaf path none ⟨template, [.literal template]⟩
  parentKey? := none
  bindings := []
  fields := []

def pairTree (child : String) : RouteTree :=
  .node (literalLeaf "A" "/a" "/a") [.node (literalLeaf "B" child "/a/b") []]

theorem ofDeclaration_pair_relative :
    RouteTree.ofDeclaration pairCatalog {} (pairDeclaration "b") = .ok (pairTree "b") := by
  cbv

theorem ofDeclaration_pair_absolute :
    RouteTree.ofDeclaration pairCatalog {} (pairDeclaration "/b") = .ok (pairTree "/b") := by
  cbv

/-- Below `/a` a path without a slash in front is placed as its template says. -/
theorem navigated_pair_relative :
    navigated (paths [literalLeaf "A" "/a" "/a", literalLeaf "B" "b" "/a/b"]) = "/a/b".toList := by
  have hchain : [literalLeaf "A" "/a" "/a"] ++ [literalLeaf "B" "b" "/a/b"] ∈
      (pairTree "b").chains := List.mem_cons_of_mem _ (List.mem_singleton_self _)
  refine (navigated_chain_eq_text_iff ofDeclaration_pair_relative hchain rfl).2 ⟨?_, ?_⟩
  · show Aligned (([] ++ ["/a".toList]) ++ ["b".toList])
    exact aligned_concat.2 ⟨aligned_concat.2 ⟨aligned_nil, by decide⟩, by decide⟩
  · intro h
    exact absurd h (by decide)

/-- Below `/a` the navigator places `/b` on top, and its template is `/a/b`. -/
theorem navigated_pair_absolute :
    ¬∀ (catalog : Catalog) (settings : Settings) (d : Declaration) (t : RouteTree),
      RouteTree.ofDeclaration catalog settings d = .ok t →
      ∀ (above : List Node) (n : Node), above ++ [n] ∈ t.chains →
      ∀ (path : String) (name? : Option String) (template : PathTemplate),
        n.role = .leaf path name? template →
        navigated (paths (above ++ [n])) = template.text.toList := by
  intro h
  have hchain : [literalLeaf "A" "/a" "/a"] ++ [literalLeaf "B" "/b" "/a/b"] ∈
      (pairTree "/b").chains := List.mem_cons_of_mem _ (List.mem_singleton_self _)
  have heq := h pairCatalog {} (pairDeclaration "/b") _ ofDeclaration_pair_absolute _ _ hchain
    "/b" none _ rfl
  exact absurd heq (by decide)

end TypedRoutes
