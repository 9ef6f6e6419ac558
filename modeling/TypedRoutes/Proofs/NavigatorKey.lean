import TypedRoutes.Proofs.Chain

/-!
# The navigator of a route

* `Catalog.hasKey` : whether a type declares a navigator under a name;
* `Node.contributed?` : what a route gives those below it, from its own type alone;
* `below_key` : what is handed down below a node is what the nearest route of the chain contributes;
* `parentKey_chain` : a route is placed on the navigator that its type declares, or else on the one
  of the nearest ancestor that contributes any.
-/

namespace TypedRoutes

/-- Whether a type has a constant of a name whose type is one for navigators. -/
def Catalog.hasKey (catalog : Catalog) (settings : Settings) (type field : String) : Bool :=
  ((catalog.constants? type).getD []).any fun f =>
    f.name = field && settings.isNavigatorKeyType f.type.simpleName

/-- The navigator that a type declares under a name. -/
def declaredKey? (catalog : Catalog) (settings : Settings) (type field : String) :
    Option KeyBinding :=
  if catalog.hasKey settings type field then some ⟨type, field, false⟩ else none

namespace Node

def isShell (n : Node) : Bool :=
  match n.role with
  | .leaf _ _ _ => false
  | .shell _ => true

/-- What a route contributes to those below it: a shell its own navigator, else every route the one
that its type declares for placing it. Only the types in the catalog are looked at. -/
def contributed? (catalog : Catalog) (settings : Settings) (n : Node) : Option KeyBinding :=
  if n.isShell && catalog.hasKey settings n.type settings.navigatorKeyField then
    some ⟨n.type, settings.navigatorKeyField, true⟩
  else if catalog.hasKey settings n.type settings.parentNavigatorKeyField then
    some ⟨n.type, settings.parentNavigatorKeyField, true⟩
  else none

end Node

/-! ## Constants of a type -/

theorem constants?_of_describe {cx : Context} {type : String} {ps : List Parameter}
    {fields constants : List Field} (h : cx.describe type = .ok (ps, fields, constants)) :
    cx.catalog.constants? type = some constants := by
  unfold Context.describe at h
  unfold Catalog.constants?
  split at h
  · next hfind =>
    cases h
    rw [hfind]
  · cases h
  · cases h

/-- The builder finds just the navigator that the type declares. -/
theorem ownKey?_eq_declaredKey? {cx : Context} {type : String} {ps : List Parameter}
    {fields constants : List Field} (h : cx.describe type = .ok (ps, fields, constants))
    (field : String) :
    cx.ownKey? type field constants = declaredKey? cx.catalog cx.settings type field := by
  unfold Context.ownKey? declaredKey? Catalog.hasKey
  rw [constants?_of_describe h, Option.getD_some, ← List.isSome_find?]
  cases hfind : constants.find? fun f =>
      f.name = field && cx.settings.isNavigatorKeyType f.type.simpleName with
  | none => rfl
  | some f =>
    have hf := List.find?_some hfind
    have hname : f.name = field := of_decide_eq_true (Bool.and_eq_true_iff.1 hf).1
    rw [Option.map_some, Option.isSome_some, if_pos rfl, hname]

/-! ## What a node is given and hands down -/

section Step

variable {cx : Context} {around : Surroundings} {above : List Node} {n : Node}

/-- A checked node is placed on the navigator that its type declares, else on the one handed down to
it. -/
theorem parentKey?_of_checkNode {a : Annotation} (h : checkNode cx around a = .ok n) :
    n.parentKey? =
      if cx.catalog.hasKey cx.settings n.type cx.settings.parentNavigatorKeyField then
        some ⟨n.type, cx.settings.parentNavigatorKeyField, false⟩
      else around.key? := by
  have hown : ∀ key? : Option KeyBinding,
      key? = declaredKey? cx.catalog cx.settings n.type cx.settings.parentNavigatorKeyField →
      (key? <|> around.key?) =
        if cx.catalog.hasKey cx.settings n.type cx.settings.parentNavigatorKeyField then
          some ⟨n.type, cx.settings.parentNavigatorKeyField, false⟩
        else around.key? := by
    rintro key? rfl
    unfold declaredKey?
    split <;> rfl
  cases a with
  | go type path? name? routes =>
    obtain ⟨path, ps, fields, constants, template, bindings, -, hdescribe, -, -, -, rfl⟩ :=
      checkNode_go_ok h
    exact hown _ (ownKey?_eq_declaredKey? hdescribe _)
  | shell type routes =>
    obtain ⟨ps, fields, constants, template?, bindings, hdescribe, -, -, rfl⟩ :=
      checkNode_shell_ok h
    exact hown _ (ownKey?_eq_declaredKey? hdescribe _)

/-- A shell names just the navigator that its type declares. -/
theorem key?_of_checkNode {a : Annotation} (h : checkNode cx around a = .ok n)
    {key? : Option KeyBinding} (hrole : n.role = .shell key?) :
    key? = declaredKey? cx.catalog cx.settings n.type cx.settings.navigatorKeyField := by
  cases a with
  | go type path? name? routes =>
    obtain ⟨path, ps, fields, constants, template, bindings, -, -, -, -, -, rfl⟩ :=
      checkNode_go_ok h
    cases hrole
  | shell type routes =>
    obtain ⟨ps, fields, constants, template?, bindings, hdescribe, -, -, rfl⟩ :=
      checkNode_shell_ok h
    cases hrole
    exact ownKey?_eq_declaredKey? hdescribe _

theorem inherited_contributed? {catalog : Catalog} {settings : Settings} {b : KeyBinding}
    (h : n.contributed? catalog settings = some b) : b.inherited = true := by
  unfold Node.contributed? at h
  split at h
  · cases h
    rfl
  · split at h
    · cases h
      rfl
    · cases h

/-- What a chain contributes stays as it is when it is handed down once more. -/
theorem handDown_nearest (catalog : Catalog) (settings : Settings) (ns : List Node) :
    (ns.findSome? (Node.contributed? catalog settings)).map KeyBinding.handDown =
      ns.findSome? (Node.contributed? catalog settings) := by
  cases h : ns.findSome? (Node.contributed? catalog settings) with
  | none => rfl
  | some b =>
    obtain ⟨m, -, hm⟩ := List.exists_of_findSome?_eq_some h
    exact congrArg some (congrArg (KeyBinding.mk b.owner b.field) (inherited_contributed? hm).symm)

/-- What the nearest route of a chain contributes is handed down below the chain. -/
theorem below_key {a : Annotation} (h : checkNode cx around a = .ok n)
    (habove : around.key? =
      above.reverse.findSome? (Node.contributed? cx.catalog cx.settings)) :
    (around.below n).key? =
      (above ++ [n]).reverse.findSome? (Node.contributed? cx.catalog cx.settings) := by
  have hplaced : n.parentKey?.map KeyBinding.handDown =
      if cx.catalog.hasKey cx.settings n.type cx.settings.parentNavigatorKeyField then
        some ⟨n.type, cx.settings.parentNavigatorKeyField, true⟩
      else above.reverse.findSome? (Node.contributed? cx.catalog cx.settings) := by
    rw [parentKey?_of_checkNode h]
    split
    · rfl
    · rw [habove, handDown_nearest]
  rw [List.reverse_concat, List.findSome?_cons]
  cases hrole : n.role with
  | leaf path name? template =>
    have hleaf : n.isShell = false := by rw [Node.isShell, hrole]
    have hbelow : n.keyForChildren? = n.parentKey? := by rw [Node.keyForChildren?, hrole]
    rw [Node.contributed?, hleaf, Bool.false_and, if_neg Bool.false_ne_true, Surroundings.below]
    simp only [hbelow, hplaced]
    split <;> rfl
  | shell key? =>
    have hshell : n.isShell = true := by rw [Node.isShell, hrole]
    have hbelow : n.keyForChildren? = (key? <|> n.parentKey?) := by rw [Node.keyForChildren?, hrole]
    have hkey := key?_of_checkNode h hrole
    rw [Node.contributed?, hshell, Bool.true_and, Surroundings.below]
    simp only [hbelow]
    by_cases hown : cx.catalog.hasKey cx.settings n.type cx.settings.navigatorKeyField = true
    · rw [declaredKey?, if_pos hown] at hkey
      rw [if_pos hown, hkey]
      rfl
    · rw [declaredKey?, if_neg hown] at hkey
      rw [if_neg hown, hkey]
      show n.parentKey?.map KeyBinding.handDown = _
      rw [hplaced]
      split <;> rfl

end Step

/-- A route is placed on the navigator that its type declares, or else on the one that the nearest
ancestor contributes which contributes any. A shell's own navigator is never an inherited one. -/
theorem parentKey_chain {catalog : Catalog} {settings : Settings} {d : Declaration} {t : RouteTree}
    (h : RouteTree.ofDeclaration catalog settings d = .ok t) {above : List Node} {n : Node}
    (hc : above ++ [n] ∈ t.chains) :
    (n.parentKey? =
      if catalog.hasKey settings n.type settings.parentNavigatorKeyField then
        some ⟨n.type, settings.parentNavigatorKeyField, false⟩
      else above.reverse.findSome? (Node.contributed? catalog settings)) ∧
    ∀ key?, n.role = .shell key? →
      key? =
        if catalog.hasKey settings n.type settings.navigatorKeyField then
          some ⟨n.type, settings.navigatorKeyField, false⟩
        else none := by
  obtain ⟨around, a, habove, hcheck⟩ :=
    checked_chain
      (P := fun around above =>
        around.key? = above.reverse.findSome? (Node.contributed? catalog settings))
      h rfl (fun around above a n habove hn => below_key hn habove) hc
  refine ⟨?_, fun key? hrole => key?_of_checkNode hcheck hrole⟩
  rw [parentKey?_of_checkNode hcheck, habove]

/-! ### A shell between two routes -/

def keyField (name : String) : Field :=
  ⟨name, .named "NavigatorKey"⟩

/-- The first type places its routes, the shell names a navigator for them. -/
def drawerCatalog : Catalog :=
  .ofList [(TypeInfo.routeData "Home" []).withConstant (keyField "PARENT_NAVIGATOR_KEY"),
    (TypeInfo.routeData "Drawer" []).withConstant (keyField "NAVIGATOR_KEY"),
    TypeInfo.routeData "Page" []]

def drawerDeclaration : Declaration where
  type := "Home"
  annotation := .go "Home" (some "/home") none [.shell "Drawer" [.ofPath "Page" "page"]]

def homeNode : Node :=
  { literalLeaf "Home" "/home" "/home" with
    parentKey? := some ⟨"Home", "PARENT_NAVIGATOR_KEY", false⟩ }

def drawerNode : Node where
  type := "Drawer"
  role := .shell (some ⟨"Drawer", "NAVIGATOR_KEY", false⟩)
  parentKey? := some ⟨"Home", "PARENT_NAVIGATOR_KEY", true⟩
  bindings := []
  fields := []

def pageNode : Node :=
  { literalLeaf "Page" "page" "/home/page" with
    parentKey? := some ⟨"Drawer", "NAVIGATOR_KEY", true⟩ }

def drawerTree : RouteTree :=
  .node homeNode [.node drawerNode [.node pageNode []]]

theorem ofDeclaration_drawer :
    RouteTree.ofDeclaration drawerCatalog {} drawerDeclaration = .ok drawerTree := by
  cbv

/-- The page is placed on what the nearest of the two routes above it contributes, and that is the
shell's navigator, not the one further up. -/
theorem parentKey_page :
    pageNode.parentKey? =
        [homeNode, drawerNode].reverse.findSome? (Node.contributed? drawerCatalog {}) ∧
      pageNode.parentKey? = some ⟨"Drawer", "NAVIGATOR_KEY", true⟩ := by
  have hchain : [homeNode, drawerNode] ++ [pageNode] ∈ drawerTree.chains :=
    List.mem_cons_of_mem _ (List.mem_cons_of_mem _ (List.mem_singleton_self _))
  have hown : drawerCatalog.hasKey {} pageNode.type "PARENT_NAVIGATOR_KEY" = false := rfl
  have hkey := (parentKey_chain ofDeclaration_drawer hchain).1
  rw [hown, if_neg Bool.false_ne_true] at hkey
  exact ⟨hkey, rfl⟩

end TypedRoutes
