import TypedRoutes.Proofs.EmissionFaults
import TypedRoutes.Proofs.FirstFault

/-!
# Checks that are made twice

* `Visits` : the routes that building a tree comes to, each with its surroundings;
* `Inheritable` : a joined path that a shell can take over; `inheritable_below`, `Visits.inheritable` :
  a node hands on only such a path, so every route is given one;
* `visits_of_buildTree_eq_error` : building fails at a route that it comes to;
* `leaf_of_pattern` : at fault for its template is only a leaf;
* `defaultFault?_of_mem_nodes` : the defaults in a tree are without fault;
* `repeatedChecks_pass` : no second check of a template, a path or a default ever fails.
-/

namespace TypedRoutes

open Emission (treeBlocks treeBlocks_failsIn)

/-! ## Routes that building comes to -/

/-- The routes that building the tree of an annotation comes to, each with its surroundings: the
annotated one, and those nested in a route whose own node was made. -/
inductive Visits (cx : Context) (root : Annotation) : Surroundings → Annotation → Prop
  | root : Visits cx root {} root
  | nested {around : Surroundings} {a b : Annotation} {n : Node} (visited : Visits cx root around a)
    (checked : checkNode cx around a = .ok n) (mem : b ∈ a.routes) :
    Visits cx root (around.below n) b

section Visits

variable {cx : Context} {root a : Annotation} {around : Surroundings} {n : Node} {f : Failure}

mutual

/-- Building fails at a route that it comes to. -/
theorem visits_of_buildTree_eq_error :
    ∀ (a : Annotation) (around : Surroundings), Visits cx root around a →
      buildTree cx around a = .error f →
      ∃ around' a', Visits cx root around' a' ∧ checkNode cx around' a' = .error f
  | a, around, hvisits, h => by
    rw [buildTree_eq] at h
    rcases bind_eq_error.1 h with h | ⟨n, hn, h⟩
    · exact ⟨around, a, hvisits, h⟩
    · exact visits_of_buildAll_eq_error a.routes (around.below n)
        (fun b hb => .nested hvisits hn hb) (map_eq_error.1 h)
termination_by a => sizeOf a
decreasing_by exact a.sizeOf_routes_lt

theorem visits_of_buildAll_eq_error :
    ∀ (as : List Annotation) (around : Surroundings), (∀ a ∈ as, Visits cx root around a) →
      buildAll cx around as = .error f →
      ∃ around' a', Visits cx root around' a' ∧ checkNode cx around' a' = .error f
  | [], around, _, h => by
    rw [buildAll] at h
    cases h
  | a :: rest, around, hvisits, h => by
    obtain ⟨hfirst, hrest⟩ := List.forall_mem_cons.1 hvisits
    rw [buildAll] at h
    rcases bind_eq_error.1 h with h | ⟨t, -, h⟩
    · exact visits_of_buildTree_eq_error a around hfirst h
    · rcases bind_eq_error.1 h with h | ⟨ts, -, h⟩
      · exact visits_of_buildAll_eq_error rest around hrest h
      · cases h
termination_by as => sizeOf as

end

/-! ## Templates -/

/-- A joined path that a shell can take over: there is none, or it is a template. -/
def Inheritable (path : String) : Prop :=
  path = "" ∨ ∃ t, PathTemplate.parse path = .ok t

/-- A leaf hands the text of its template on, and a shell what it was given. -/
theorem inheritable_below (h : checkNode cx around a = .ok n) (hpath : Inheritable around.path) :
    Inheritable (around.below n).path := by
  cases a with
  | go type path? name? routes =>
    obtain ⟨path, ps, fields, constants, template, bindings, -, -, htemplate, -, -, rfl⟩ :=
      checkNode_go_ok h
    rw [below_path_leaf rfl, text_parseTemplate htemplate]
    exact Or.inr ⟨template, parseTemplate_ok htemplate⟩
  | shell type routes =>
    obtain ⟨ps, fields, constants, template?, bindings, -, -, -, rfl⟩ := checkNode_shell_ok h
    rw [below_path_shell rfl]
    exact hpath

theorem Visits.inheritable (h : Visits cx root around a) : Inheritable around.path := by
  induction h with
  | root => exact Or.inl rfl
  | nested _ checked _ ih => exact inheritable_below checked ih

/-- The text that a shell takes its template from is none or a template. -/
theorem Visits.shell {type : String} {routes : List Annotation}
    (h : Visits cx root around (.shell type routes)) :
    around.path = "" ∨ ∃ t, cx.parseTemplate type around.path = .ok t := by
  rcases h.inheritable with hempty | ⟨t, ht⟩
  · exact Or.inl hempty
  · exact Or.inr ⟨t, parseTemplate_eq_ok.2 ht⟩

/-- Of the routes that building comes to, only a leaf is at fault for a template, that of its own
path behind those above. -/
theorem leaf_of_pattern (hvisits : Visits cx root around a) (h : checkNode cx around a = .error f)
    (hpattern : f.fault.category = .pattern) :
    ∃ type path name? routes e, a = .go type (some path) name? routes ∧
      PathTemplate.parse (joinTemplates around.path path) = .error e ∧
      f = ⟨.template e, cx.place type⟩ := by
  cases checkNode_eq_error.1 h with
  | template described text_eq unreadable =>
    cases a with
    | go type path? name? routes =>
      obtain ⟨path, rfl, rfl⟩ := Option.map_eq_some_iff.1 text_eq
      exact ⟨type, path, name?, routes, _, rfl, unreadable, rfl⟩
    | shell type routes =>
      dsimp only [Site.text?] at text_eq
      split at text_eq
      · cases text_eq
      · next hpath =>
        obtain rfl := Option.some.inj text_eq
        rcases hvisits.inheritable with hempty | ⟨t, ht⟩
        · exact absurd (String.isEmpty_iff.2 hempty) hpath
        · rw [ht] at unreadable
          cases unreadable
  | parameter described path template first faulty =>
    have hcategory := parameterFault?_category faulty
    rw [hpattern] at hcategory
    exact absurd hcategory (by decide)
  | unknown | enumeration | noPath | unbound => cases hpattern

end Visits

/-! ## Trees -/

section Trees

variable {catalog : Catalog} {settings : Settings} {d : Declaration} {t : RouteTree}

/-- The defaults in a tree are without fault. -/
theorem defaultFault?_of_mem_nodes (h : RouteTree.ofDeclaration catalog settings d = .ok t) :
    ∀ n ∈ t.nodes, ∀ b ∈ n.bindings, b.defaultFault? = none := by
  intro n hn b hb
  obtain ⟨above, hc⟩ := RouteTree.exists_chain hn
  obtain ⟨ps, template?, -, -, hbindings, -⟩ := readAlong_chain h hc above n List.prefix_rfl
  exact (bound_of_bindAll hbindings b hb).2.2

/-- A tree that cannot be built for a template has a leaf that is at fault. -/
theorem visits_of_pattern {f : Failure}
    (h : RouteTree.ofDeclaration catalog settings d = .error f)
    (hpattern : f.fault.category = .pattern) :
    ∃ around a, Visits ⟨catalog, settings, d.type⟩ d.annotation around a ∧
      checkNode ⟨catalog, settings, d.type⟩ around a = .error f := by
  unfold RouteTree.ofDeclaration at h
  split at h
  · exact visits_of_buildTree_eq_error d.annotation {} .root h
  · cases h
    cases hpattern

end Trees

/-- No second check ever fails. A shell takes over a joined path that was read as a template before, so
for a template only a leaf is ever at fault, that of its own path behind those above. And whatever
a built tree is emitted against, it fails at names, types, fields and the layout of its code: never
at a template, at a path that is written without values, at a default, or at what else was asked of
its parameters before. -/
theorem repeatedChecks_pass (catalog : Catalog) (settings : Settings) (d : Declaration) :
    (∀ around type routes,
      Visits ⟨catalog, settings, d.type⟩ d.annotation around (.shell type routes) →
        around.path = "" ∨
          ∃ t, Context.parseTemplate ⟨catalog, settings, d.type⟩ type around.path = .ok t) ∧
    (∀ f, RouteTree.ofDeclaration catalog settings d = .error f → f.fault.category = .pattern →
      ∃ around type path name? routes e,
        Visits ⟨catalog, settings, d.type⟩ d.annotation around (.go type (some path) name? routes) ∧
          PathTemplate.parse (joinTemplates around.path path) = .error e ∧
          f = ⟨.template e, { declaration := d.type, route? := some type }⟩) ∧
    ∀ t, RouteTree.ofDeclaration catalog settings d = .ok t → ∀ tg f,
      treeBlocks tg d.type t = .error f →
        f.fault.category ∈
          [.invalidIdentifier, .unsupportedParameterType, .unresolvedField, .render] := by
  refine ⟨fun around type routes h => h.shell, ?_, ?_⟩
  · intro f h hpattern
    obtain ⟨around, a, hvisits, hfault⟩ := visits_of_pattern h hpattern
    obtain ⟨type, path, name?, routes, e, rfl, hparse, rfl⟩ :=
      leaf_of_pattern hvisits hfault hpattern
    exact ⟨around, type, path, name?, routes, e, hvisits, hparse, rfl⟩
  · intro t ht tg
    have hdefaults := defaultFault?_of_mem_nodes ht
    apply treeBlocks_failsIn
    case h => exact ⟨by simp, by simp, by simp⟩
    case hrender => simp
    case hnodes => exact fun n hn b hb => Or.inr (hdefaults n hn b hb)

/-! ### A marker without a name

A shell between two leaves, the lower of which has a path that ends in a marker; and a shell whose
type has a number as its name.
-/

def unnamedCatalog : Catalog :=
  .ofList [.routeData "A" [], .routeData "B" [], .routeData "C" []]

def unnamedDeclaration : Declaration where
  type := "A"
  annotation := .go "A" (some "/a") none [.shell "B" [.ofPath "C" "c/:"]]

/-- A node without navigators and parameters. -/
def plainNode (type : String) (role : Role) : Node where
  type := type
  role := role
  parentKey? := none
  bindings := []
  fields := []

def unnamedNode : Node :=
  plainNode "A" (.leaf "/a" none ⟨"/a", [.literal "/a"]⟩)

theorem checkNode_unnamed :
    checkNode ⟨unnamedCatalog, {}, "A"⟩ {} unnamedDeclaration.annotation = .ok unnamedNode := by
  cbv

theorem ofDeclaration_unnamed :
    RouteTree.ofDeclaration unnamedCatalog {} unnamedDeclaration =
      .error ⟨.template (.emptyName "/a/c/:" 5), { declaration := "A", route? := some "C" }⟩ := by
  cbv

def numberCatalog : Catalog :=
  .ofList [.routeData "1" []]

theorem ofDeclaration_number :
    RouteTree.ofDeclaration numberCatalog {} ⟨"1", .shell "1" []⟩ =
      .ok (.node (plainNode "1" (.shell none)) []) := by
  rfl

theorem treeBlocks_number (tg : Emission.Target) :
    treeBlocks tg "1" (.node (plainNode "1" (.shell none)) []) =
      .error ⟨.badIdentifier "1", { declaration := "1", route? := some "1" }⟩ := by
  have hsnake : Text.snake (Emission.plainSegment "1") = "1" := by decide
  have hparse : Syntax.parseIdent "1" = none := by decide
  refine bind_eq_error.2 (Or.inl (bind_eq_error.2 (Or.inl ?_)))
  rw [hsnake, Emission.identifier, hparse]
  rfl

/-- The shell takes over the path above it, the leaf below it is at fault for its own, and the name of
the other shell is refused when it is emitted. -/
theorem repeatedChecks_pass_unnamed :
    (∃ t, Context.parseTemplate ⟨unnamedCatalog, {}, "A"⟩ "B" "/a" = .ok t) ∧
      (∃ around path name? routes,
        Visits ⟨unnamedCatalog, {}, "A"⟩ unnamedDeclaration.annotation around
            (.go "C" (some path) name? routes) ∧
          PathTemplate.parse (joinTemplates around.path path) = .error (.emptyName "/a/c/:" 5)) ∧
      ∀ tg, ∃ f, treeBlocks tg "1" (.node (plainNode "1" (.shell none)) []) = .error f ∧
        f.fault.category ∈
          [.invalidIdentifier, .unsupportedParameterType, .unresolvedField, .render] := by
  obtain ⟨hshell, hleaf, -⟩ := repeatedChecks_pass unnamedCatalog {} unnamedDeclaration
  obtain ⟨-, -, hemitted⟩ := repeatedChecks_pass numberCatalog {} ⟨"1", .shell "1" []⟩
  refine ⟨?_, ?_, fun tg => ?_⟩
  · have hvisits : Visits ⟨unnamedCatalog, {}, "A"⟩ unnamedDeclaration.annotation ⟨"/a", none⟩
        (.shell "B" [.ofPath "C" "c/:"]) :=
      .nested .root checkNode_unnamed (List.mem_singleton_self _)
    exact (hshell _ _ _ hvisits).resolve_left (by decide)
  · obtain ⟨around, type, path, name?, routes, e, hvisits, hparse, hf⟩ :=
      hleaf _ ofDeclaration_unnamed rfl
    injection hf with hfault hplace
    injection hfault with he
    injection hplace with hdeclaration htype
    obtain rfl := he
    obtain rfl := Option.some.inj htype
    exact ⟨around, path, name?, routes, hvisits, hparse⟩
  · exact ⟨_, treeBlocks_number tg, hemitted _ ofDeclaration_number tg _ (treeBlocks_number tg)⟩

end TypedRoutes
