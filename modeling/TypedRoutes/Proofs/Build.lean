import Mathlib
import TypedRoutes.Proofs.Binding
import TypedRoutes.Proofs.Outcome
import TypedRoutes.Tree.Build

/-!
# What building a tree comes to

* `checkNode_go_ok`, `checkNode_shell_ok` : the node of an annotation and all that was looked up,
  read and checked for it;
* `buildTree_eq`, `buildTree_ok` : a tree is the node of its annotation with the trees of the routes
  below;
* `checkNode_go`, `checkNode_shell`, `buildTree_node` : the same from the parts to the whole;
* `ofDeclaration_ok` : the tree of a declaration is that of its annotation;
* `below_path_leaf`, `below_path_shell` : the joined path that the routes below a node are given.
-/

namespace TypedRoutes

/-! ## Templates -/

theorem PathTemplate.text_parse {text : String} {t : PathTemplate}
    (h : PathTemplate.parse text = .ok t) : t.text = text := by
  unfold PathTemplate.parse at h
  split at h
  · cases h
    rfl
  · cases h

theorem parseTemplate_ok {cx : Context} {type text : String} {t : PathTemplate}
    (h : cx.parseTemplate type text = .ok t) : PathTemplate.parse text = .ok t := by
  unfold Context.parseTemplate at h
  split at h
  · next t' ht =>
    cases h
    exact ht
  · cases h

theorem text_parseTemplate {cx : Context} {type text : String} {t : PathTemplate}
    (h : cx.parseTemplate type text = .ok t) : t.text = text :=
  PathTemplate.text_parse (parseTemplate_ok h)

/-! ## Nodes -/

section Nodes

variable {cx : Context} {around : Surroundings} {n : Node}

theorem checkNode_go_ok {type : String} {path? name? : Option String} {routes : List Annotation}
    (h : checkNode cx around (.go type path? name? routes) = .ok n) :
    ∃ path ps fields constants template bindings,
      path? = some path ∧
      cx.describe type = .ok (ps, fields, constants) ∧
      cx.parseTemplate type (joinTemplates around.path path) = .ok template ∧
      cx.bindings type (some template) ps = .ok bindings ∧
      cx.checkBound type template bindings = .ok () ∧
      n = ⟨type, .leaf path name? template,
        cx.ownKey? type cx.settings.parentNavigatorKeyField constants <|> around.key?,
        bindings, fields⟩ := by
  unfold checkNode at h
  obtain ⟨⟨ps, fields, constants⟩, hdescribe, h⟩ := bind_eq_ok.1 h
  cases path? with
  | none => cases h
  | some path =>
    obtain ⟨template, htemplate, h⟩ := bind_eq_ok.1 h
    obtain ⟨bindings, hbindings, h⟩ := bind_eq_ok.1 h
    obtain ⟨⟨⟩, hbound, h⟩ := bind_eq_ok.1 h
    exact ⟨path, ps, fields, constants, template, bindings, rfl, hdescribe, htemplate, hbindings,
      hbound, (pure_eq_ok.1 h).symm⟩

theorem checkNode_shell_ok {type : String} {routes : List Annotation}
    (h : checkNode cx around (.shell type routes) = .ok n) :
    ∃ ps fields constants template? bindings,
      cx.describe type = .ok (ps, fields, constants) ∧
      (if around.path.isEmpty then pure none
        else some <$> cx.parseTemplate type around.path) = .ok template? ∧
      cx.bindings type template? ps = .ok bindings ∧
      n = ⟨type, .shell (cx.ownKey? type cx.settings.navigatorKeyField constants),
        cx.ownKey? type cx.settings.parentNavigatorKeyField constants <|> around.key?,
        bindings, fields⟩ := by
  unfold checkNode at h
  obtain ⟨⟨ps, fields, constants⟩, hdescribe, h⟩ := bind_eq_ok.1 h
  dsimp only at h
  by_cases hpath : around.path.isEmpty = true
  · rw [if_pos hpath] at h
    obtain ⟨template?, htemplate, h⟩ := bind_eq_ok.1 h
    obtain ⟨bindings, hbindings, h⟩ := bind_eq_ok.1 h
    exact ⟨ps, fields, constants, template?, bindings, hdescribe, by rw [if_pos hpath, htemplate],
      hbindings, (pure_eq_ok.1 h).symm⟩
  · rw [if_neg hpath] at h
    obtain ⟨template?, htemplate, h⟩ := bind_eq_ok.1 h
    obtain ⟨bindings, hbindings, h⟩ := bind_eq_ok.1 h
    exact ⟨ps, fields, constants, template?, bindings, hdescribe, by rw [if_neg hpath, htemplate],
      hbindings, (pure_eq_ok.1 h).symm⟩

theorem checkNode_go {type path : String} {name? : Option String} {routes : List Annotation}
    {ps : List Parameter} {fields constants : List Field} {template : PathTemplate}
    {bindings : List Binding} (hdescribe : cx.describe type = .ok (ps, fields, constants))
    (htemplate : cx.parseTemplate type (joinTemplates around.path path) = .ok template)
    (hbindings : cx.bindings type (some template) ps = .ok bindings)
    (hbound : cx.checkBound type template bindings = .ok ()) :
    checkNode cx around (.go type (some path) name? routes) =
      .ok ⟨type, .leaf path name? template,
        cx.ownKey? type cx.settings.parentNavigatorKeyField constants <|> around.key?,
        bindings, fields⟩ := by
  refine bind_eq_ok.2 ⟨_, hdescribe, ?_⟩
  refine bind_eq_ok.2 ⟨_, htemplate, ?_⟩
  exact bind_eq_ok.2 ⟨_, hbindings, bind_eq_ok.2 ⟨_, hbound, rfl⟩⟩

/-- A shell below a leaf. -/
theorem checkNode_shell {type : String} {routes : List Annotation} {ps : List Parameter}
    {fields constants : List Field} {template : PathTemplate} {bindings : List Binding}
    (hdescribe : cx.describe type = .ok (ps, fields, constants))
    (hpath : around.path.isEmpty = false)
    (htemplate : cx.parseTemplate type around.path = .ok template)
    (hbindings : cx.bindings type (some template) ps = .ok bindings) :
    checkNode cx around (.shell type routes) =
      .ok ⟨type, .shell (cx.ownKey? type cx.settings.navigatorKeyField constants),
        cx.ownKey? type cx.settings.parentNavigatorKeyField constants <|> around.key?,
        bindings, fields⟩ := by
  refine bind_eq_ok.2 ⟨_, hdescribe, ?_⟩
  dsimp only
  rw [hpath, if_neg Bool.false_ne_true, htemplate]
  exact bind_eq_ok.2 ⟨_, rfl, bind_eq_ok.2 ⟨_, hbindings, rfl⟩⟩

end Nodes

/-! ## Trees -/

section Trees

variable {cx : Context} {around : Surroundings}

theorem buildTree_eq (cx : Context) (around : Surroundings) (a : Annotation) :
    buildTree cx around a =
      checkNode cx around a >>= fun n =>
        RouteTree.node n <$> buildAll cx (around.below n) a.routes := by
  cases a <;> rw [buildTree] <;> rfl

theorem buildTree_ok {a : Annotation} {t : RouteTree} (h : buildTree cx around a = .ok t) :
    ∃ n ts, checkNode cx around a = .ok n ∧ buildAll cx (around.below n) a.routes = .ok ts ∧
      t = .node n ts := by
  rw [buildTree_eq] at h
  obtain ⟨n, hn, h⟩ := bind_eq_ok.1 h
  obtain ⟨ts, hts, rfl⟩ := map_eq_ok.1 h
  exact ⟨n, ts, hn, hts, rfl⟩

theorem buildTree_node {a : Annotation} {n : Node} {ts : List RouteTree}
    (hn : checkNode cx around a = .ok n) (hts : buildAll cx (around.below n) a.routes = .ok ts) :
    buildTree cx around a = .ok (.node n ts) := by
  rw [buildTree_eq]
  exact bind_eq_ok.2 ⟨n, hn, map_eq_ok.2 ⟨ts, hts, rfl⟩⟩

theorem buildAll_cons_ok {a : Annotation} {rest : List Annotation} {ts : List RouteTree}
    (h : buildAll cx around (a :: rest) = .ok ts) :
    ∃ t ts', buildTree cx around a = .ok t ∧ buildAll cx around rest = .ok ts' ∧
      ts = t :: ts' := by
  unfold buildAll at h
  obtain ⟨t, ht, h⟩ := bind_eq_ok.1 h
  obtain ⟨ts', hts, h⟩ := bind_eq_ok.1 h
  exact ⟨t, ts', ht, hts, (pure_eq_ok.1 h).symm⟩

theorem buildAll_singleton {a : Annotation} {t : RouteTree} (h : buildTree cx around a = .ok t) :
    buildAll cx around [a] = .ok [t] :=
  bind_eq_ok.2 ⟨t, h, rfl⟩

theorem ofDeclaration_ok {catalog : Catalog} {settings : Settings} {d : Declaration}
    {t : RouteTree} (h : RouteTree.ofDeclaration catalog settings d = .ok t) :
    d.annotation.type = d.type ∧ buildTree ⟨catalog, settings, d.type⟩ {} d.annotation = .ok t := by
  unfold RouteTree.ofDeclaration at h
  split at h
  · next htype => exact ⟨htype, h⟩
  · cases h

end Trees

/-! ## Paths that are handed down -/

theorem below_path_leaf {around : Surroundings} {n : Node} {path : String} {name? : Option String}
    {template : PathTemplate} (h : n.role = .leaf path name? template) :
    (around.below n).path = template.text := by
  simp [Surroundings.below, Node.template?, h]

theorem below_path_shell {around : Surroundings} {n : Node} {key? : Option KeyBinding}
    (h : n.role = .shell key?) : (around.below n).path = around.path := by
  simp [Surroundings.below, Node.template?, h]

/-! ## A shell between two leaves -/

def familyParameters : List Parameter :=
  [.byName "fid" (.named "String")]

/-- Parameters in the path, a defaulted one in the query, and a payload. -/
def personParameters : List Parameter :=
  [.byName "fid" (.named "String"), .byName "pid" (.named "u32"),
    (Parameter.byName "tab" (.named "u32")).withDefault "1",
    (Parameter.byName "extra" (TypeRef.named "Draft").asNullable).optional]

def familyCatalog : Catalog :=
  .ofList [.routeData "Family" familyParameters, .routeData "Frame" familyParameters,
    .routeData "Person" personParameters]

def familyDeclaration : Declaration where
  type := "Family"
  annotation :=
    .go "Family" (some "/family/:fid") none [.shell "Frame" [.ofPath "Person" "person/:pid"]]

def familyTemplate : PathTemplate where
  text := "/family/:fid"
  segments := [.literal "/family/", .parameter "fid" none]

def personTemplate : PathTemplate where
  text := "/family/:fid/person/:pid"
  segments := [.literal "/family/", .parameter "fid" none, .literal "/person/",
    .parameter "pid" none]

/-- A node without navigators whose parameters are bound against a template. -/
def boundNode (type : String) (role : Role) (t : PathTemplate) (ps : List Parameter) : Node where
  type := type
  role := role
  parentKey? := none
  bindings := ps.map (.ofParameter (some t) "extra")
  fields := ps.map fun p => ⟨p.name, p.type⟩

def familyNode : Node :=
  boundNode "Family" (.leaf "/family/:fid" none familyTemplate) familyTemplate familyParameters

def frameNode : Node :=
  boundNode "Frame" (.shell none) familyTemplate familyParameters

def personNode : Node :=
  boundNode "Person" (.leaf "person/:pid" none personTemplate) personTemplate
    personParameters

def familyTree : RouteTree :=
  .node familyNode [.node frameNode [.node personNode []]]

def familyContext : Context where
  catalog := familyCatalog
  settings := {}
  declaration := "Family"

/-- What a type without constants is described by. -/
def described (ps : List Parameter) : List Parameter × List Field × List Field :=
  (ps, ps.map fun p => ⟨p.name, p.type⟩, [])

theorem checkNode_family :
    checkNode familyContext {} familyDeclaration.annotation = .ok familyNode := by
  have hdescribe : familyContext.describe "Family" = .ok (described familyParameters) := rfl
  have htemplate : familyContext.parseTemplate "Family" (joinTemplates "" "/family/:fid") =
      .ok familyTemplate := by cbv
  have hbindings : familyContext.bindings "Family" (some familyTemplate) familyParameters =
      .ok familyNode.bindings := bindAll_eq_ok_iff.2 ⟨by decide, rfl⟩
  have hbound : familyContext.checkBound "Family" familyTemplate familyNode.bindings = .ok () := by
    rfl
  exact checkNode_go hdescribe htemplate hbindings hbound

theorem checkNode_frame :
    checkNode familyContext ⟨"/family/:fid", none⟩ (.shell "Frame" [.ofPath "Person" "person/:pid"]) =
      .ok frameNode := by
  have hdescribe : familyContext.describe "Frame" = .ok (described familyParameters) := rfl
  have htemplate : familyContext.parseTemplate "Frame" "/family/:fid" = .ok familyTemplate := by cbv
  have hbindings : familyContext.bindings "Frame" (some familyTemplate) familyParameters =
      .ok frameNode.bindings := bindAll_eq_ok_iff.2 ⟨by decide, rfl⟩
  exact checkNode_shell hdescribe rfl htemplate hbindings

theorem checkNode_person :
    checkNode familyContext ⟨"/family/:fid", none⟩ (.ofPath "Person" "person/:pid") =
      .ok personNode := by
  have hdescribe : familyContext.describe "Person" =
      .ok (described personParameters) := rfl
  have htemplate : familyContext.parseTemplate "Person"
      (joinTemplates "/family/:fid" "person/:pid") = .ok personTemplate := by cbv
  have hbindings : familyContext.bindings "Person" (some personTemplate)
      personParameters = .ok personNode.bindings :=
    bindAll_eq_ok_iff.2 ⟨by decide, rfl⟩
  have hbound : familyContext.checkBound "Person" personTemplate personNode.bindings = .ok () := by
    rfl
  exact checkNode_go hdescribe htemplate hbindings hbound

theorem ofDeclaration_family :
    RouteTree.ofDeclaration familyCatalog {} familyDeclaration = .ok familyTree :=
  buildTree_node checkNode_family
    (buildAll_singleton (buildTree_node checkNode_frame
      (buildAll_singleton (buildTree_node checkNode_person rfl))))

end TypedRoutes
