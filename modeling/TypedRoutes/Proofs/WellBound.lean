import TypedRoutes.Proofs.Inherited

/-!
# How the parameters of a tree are bound

* `nearestTemplate?` : the template of the nearest leaf among the nodes above;
* `WellBound` : a node whose parameters travel in ways that suit their types and its template;
* `wellBound_chain` : every node of a tree is well bound;
* `inPath_vec_of_two_arguments` : a list with an allocator may stand in a path.
-/

namespace TypedRoutes

/-! ## Leaves -/

theorem checkBound_ok {cx : Context} {type : String} {t : PathTemplate} {bs : List Binding}
    (h : cx.checkBound type t bs = .ok ()) :
    ∀ name ∈ t.names, ∃ b ∈ Bindings.inPath bs, b.name = name := by
  unfold Context.checkBound at h
  split at h
  · cases h
  · next hfind =>
    intro name hname
    have hbound := List.find?_eq_none.1 hfind name hname
    simpa using hbound

/-! ## The nearest leaf above -/

/-- The template of the nearest leaf among the nodes above. -/
def nearestTemplate? (above : List Node) : Option PathTemplate :=
  above.reverse.findSome? Node.template?

theorem nearestTemplate?_concat_leaf {n : Node} {t : PathTemplate} (h : n.template? = some t)
    (above : List Node) : nearestTemplate? (above ++ [n]) = some t := by
  simp [nearestTemplate?, h]

theorem nearestTemplate?_concat_shell {n : Node} (h : n.template? = none) (above : List Node) :
    nearestTemplate? (above ++ [n]) = nearestTemplate? above := by
  simp [nearestTemplate?, h]

/-- The joined path of some nodes is read as the template of the last leaf among them, and is empty
where there is none. -/
theorem parse_nearestTemplate {cx : Context} {above : List Node} (h : ReadAlong cx above) :
    (nearestTemplate? above = none → joinedPath above = "") ∧
      ∀ t ∈ nearestTemplate? above, PathTemplate.parse (joinedPath above) = .ok t := by
  induction above using List.reverseRecOn with
  | nil => exact ⟨fun _ => rfl, fun t ht => by cases ht⟩
  | append_singleton above n ih =>
    cases hrole : n.role with
    | leaf path name? template =>
      have htemplate : n.template? = some template := by rw [Node.template?, hrole]
      rw [nearestTemplate?_concat_leaf htemplate]
      refine ⟨fun hnone => absurd hnone (Option.some_ne_none template), ?_⟩
      rintro t ⟨⟩
      exact (h above n List.prefix_rfl).parse htemplate
    | shell key? =>
      have htemplate : n.template? = none := by rw [Node.template?, hrole]
      have hjoined : joinedPath (above ++ [n]) = joinedPath above := by
        rw [joinedPath, paths_concat_shell hrole, joinedPath]
      rw [nearestTemplate?_concat_shell htemplate, hjoined]
      exact ih fun above' n' hpre => h above' n' (hpre.trans (List.prefix_append _ _))

/-! ## Nodes -/

/-- A node whose parameters travel in ways that suit their types and the templates around it. -/
structure WellBound (catalog : Catalog) (settings : Settings) (above : List Node) (n : Node) :
    Prop where
  /-- A leaf has in its path just what its template names. -/
  leaf : ∀ t ∈ n.template?, ∀ name,
    name ∈ (Bindings.inPath n.bindings).map Binding.name ↔ name ∈ t.names
  /-- A shell has in its path only what the nearest leaf above names. -/
  shell : n.template? = none → ∀ b ∈ Bindings.inPath n.bindings,
    ∃ t ∈ nearestTemplate? above, b.name ∈ t.names
  payload : ∀ b ∈ n.bindings, b.name = settings.payloadField →
    b.carrier ≠ .path ∧ b.carrier ≠ .query
  path : ∀ b ∈ Bindings.inPath n.bindings,
    ¬(b.required = true ∧ b.type.nullable = true) ∧ b.type.element? = none
  query : ∀ b ∈ Bindings.inQuery n.bindings,
    ¬(b.type.nullable = true ∧ b.hasDefault = true) ∧
      ∀ e ∈ b.type.element?, e.nullable = false ∧ e.args = []
  default : ∀ b ∈ n.bindings, ∀ e ∈ b.default?, (Syntax.parseExpr e).isSome = true
  /-- The parameters are those of the constructor, in its order. -/
  parameters : catalog.constructor? n.type = some (n.bindings.map Binding.parameter)

/-- A leaf is bound against its own template. -/
theorem takes_leaf {n : Node} {joined : String} {template? : Option PathTemplate} {t : PathTemplate}
    (htakes : n.Takes joined template?) (hn : n.template? = some t) : template? = some t := by
  unfold Node.template? at hn
  unfold Node.Takes at htakes
  split at hn
  · next hrole =>
    rw [hrole] at htakes
    exact htakes.2.trans hn
  · cases hn

/-- A shell that is bound against a template is bound against that of the nearest leaf above. -/
theorem takes_shell {cx : Context} {above : List Node} {n : Node} {template? : Option PathTemplate}
    (habove : ReadAlong cx above) (htakes : n.Takes (joinedPath (above ++ [n])) template?)
    (hn : n.template? = none) : ∀ t ∈ template?, nearestTemplate? above = some t := by
  unfold Node.template? at hn
  unfold Node.Takes at htakes
  split at hn
  · cases hn
  · next hrole =>
    have hjoined : joinedPath (above ++ [n]) = joinedPath above := by
      rw [joinedPath, paths_concat_shell hrole, joinedPath]
    obtain ⟨hempty, hread⟩ := parse_nearestTemplate habove
    rw [hrole, hjoined] at htakes
    intro t ht
    rcases htakes with ⟨-, rfl⟩ | ⟨hne, template, hparse, rfl⟩
    · cases ht
    · cases hnearest : nearestTemplate? above with
      | none => exact absurd (hempty hnearest) hne
      | some t' =>
        have hparse' := hread t' hnearest
        rw [hparse] at hparse'
        cases hparse'
        exact ht

/-- Every node of a tree is well bound. -/
theorem wellBound_chain {catalog : Catalog} {settings : Settings} {d : Declaration} {t : RouteTree}
    (h : RouteTree.ofDeclaration catalog settings d = .ok t) {above : List Node} {n : Node}
    (hc : above ++ [n] ∈ t.chains) : WellBound catalog settings above n := by
  have halong := readAlong_chain h hc
  have habove : ReadAlong ⟨catalog, settings, d.type⟩ above :=
    fun above' n' hpre => halong above' n' (hpre.trans (List.prefix_append _ _))
  obtain ⟨ps, template?, hps, htakes, hbindings, hbound⟩ := halong above n List.prefix_rfl
  have hfree := bound_of_bindAll hbindings
  have hpath : ∀ b ∈ Bindings.inPath n.bindings, ∃ t ∈ template?, b.name ∈ t.names := by
    intro b hb
    obtain ⟨hb, hcarrier⟩ := mem_carriedBy.1 hb
    rw [(hfree b hb).1] at hcarrier
    exact (carrierOf_eq_path.1 hcarrier).2
  constructor
  case leaf =>
    intro t ht name
    obtain rfl := takes_leaf htakes ht
    rw [List.mem_map]
    constructor
    · rintro ⟨b, hb, rfl⟩
      obtain ⟨t', ⟨⟩, hname⟩ := hpath b hb
      exact hname
    · exact checkBound_ok (hbound t ht) name
  case shell =>
    intro hn b hb
    obtain ⟨t, ht, hname⟩ := hpath b hb
    exact ⟨t, takes_shell habove htakes hn t ht, hname⟩
  case payload =>
    intro b hb hname
    rw [(hfree b hb).1, carrierOf, if_pos hname]
    exact ⟨Carrier.noConfusion, Carrier.noConfusion⟩
  case path =>
    intro b hb
    obtain ⟨hb, hcarrier⟩ := mem_carriedBy.1 hb
    exact suits_path hcarrier (hfree b hb).2.1
  case query =>
    intro b hb
    obtain ⟨hb, hcarrier⟩ := mem_carriedBy.1 hb
    exact suits_query hcarrier (hfree b hb).2.1
  case default => exact fun b hb => default_parses (hfree b hb).2.2
  case parameters => rw [map_parameter_of_bindAll hbindings, hps]

/-- A leaf below a leaf and a shell, with parameters of every kind. -/
theorem wellBound_person :
    RouteTree.ofDeclaration familyCatalog {} familyDeclaration = .ok familyTree ∧
      [familyNode, frameNode] ++ [personNode] ∈ familyTree.chains ∧
      WellBound familyCatalog {} [familyNode, frameNode] personNode := by
  have hchain : [familyNode, frameNode] ++ [personNode] ∈ familyTree.chains :=
    List.mem_cons_of_mem _ (List.mem_cons_of_mem _ List.mem_cons_self)
  exact ⟨ofDeclaration_family, hchain, wellBound_chain ofDeclaration_family hchain⟩

/-! ### A list with an allocator

Only a `Vec` of one argument is taken as a list. With a second argument it is a type like any other,
and may stand in a path.
-/

def idsParameters : List Parameter :=
  [.byName "ids" { name := "Vec", args := [.named "u8", .named "Global"] }]

def idsCatalog : Catalog :=
  .ofList [.routeData "A" idsParameters]

def idsDeclaration : Declaration where
  type := "A"
  annotation := .ofPath "A" "/:ids"

def idsTemplate : PathTemplate where
  text := "/:ids"
  segments := [.literal "/", .parameter "ids" none]

def idsNode : Node :=
  boundNode "A" (.leaf "/:ids" none idsTemplate) idsTemplate idsParameters

def idsContext : Context where
  catalog := idsCatalog
  settings := {}
  declaration := "A"

theorem ofDeclaration_ids :
    RouteTree.ofDeclaration idsCatalog {} idsDeclaration = .ok (.node idsNode []) := by
  have hdescribe : idsContext.describe "A" = .ok (described idsParameters) := rfl
  have htemplate : idsContext.parseTemplate "A" (joinTemplates "" "/:ids") = .ok idsTemplate := by
    cbv
  have hbindings : idsContext.bindings "A" (some idsTemplate) idsParameters =
      .ok idsNode.bindings := bindAll_eq_ok_iff.2 ⟨by decide, rfl⟩
  have hbound : idsContext.checkBound "A" idsTemplate idsNode.bindings = .ok () := rfl
  exact buildTree_node (checkNode_go hdescribe htemplate hbindings hbound) rfl

/-- A list with an allocator is bound in a path. -/
theorem inPath_vec_of_two_arguments :
    ¬∀ (catalog : Catalog) (settings : Settings) (d : Declaration) (t : RouteTree),
      RouteTree.ofDeclaration catalog settings d = .ok t →
      ∀ (above : List Node) (n : Node), above ++ [n] ∈ t.chains →
      ∀ b ∈ Bindings.inPath n.bindings, b.type.simpleName ≠ "Vec" := by
  intro h
  have hchain : [] ++ [idsNode] ∈ (RouteTree.node idsNode []).chains := List.mem_singleton_self _
  have hids : Binding.ofParameter (some idsTemplate) "extra"
      (.byName "ids" { name := "Vec", args := [.named "u8", .named "Global"] }) ∈
      Bindings.inPath idsNode.bindings :=
    mem_carriedBy.2 ⟨List.mem_singleton_self _, by decide⟩
  exact h idsCatalog {} idsDeclaration _ ofDeclaration_ids _ _ hchain _ hids (by decide)

end TypedRoutes
