import TypedRoutes.Proofs.Chain
import TypedRoutes.Proofs.JoinedTemplate

/-!
# Templates along a chain

* `parameters_prefix_of_parse` : of two joined paths, one of which goes on from the other, the longer
  has the parameters of the shorter first;
* `Node.Reads` : a node that was checked against the joined path down to it;
* `readAlong_chain` : every node of a tree was checked so;
* `template_chain` : the templates along a chain are those of its joined paths, and the parameters of
  a leaf come first in every leaf below it.
-/

namespace TypedRoutes

/-! ## Joined paths -/

namespace PathTemplate

/-- Of two joined paths that can be read, where one goes on from the other, the longer yields the
parameters of the shorter first. -/
theorem parameters_prefix_of_parse {ps qs : List (List Char)} {a b : PathTemplate}
    (ha : parse (String.ofList (generated ps)) = .ok a)
    (hb : parse (String.ofList (generated (ps ++ qs))) = .ok b) : a.parameters <+: b.parameters := by
  obtain ⟨as, has, rfl⟩ := parse_iff_scan.1 ha
  obtain ⟨bs, hbs, rfl⟩ := parse_iff_scan.1 hb
  rw [String.toList_ofList] at has hbs
  rw [generated_append] at hbs
  obtain ⟨cs, -, -, hjoins⟩ := joins_of_scan has hbs
  exact ⟨parametersOf cs, hjoins.parameters.symm⟩

end PathTemplate

/-! ## Nodes along a chain -/

/-- The joined path of the leaves among some nodes. -/
def joinedPath (ns : List Node) : String :=
  String.ofList (generated (paths ns))

/-- What the parameters of a node are bound against where `joined` is the joined path down to it. A
leaf has the template of that path; a shell is bound against it if the path is not empty. -/
def Node.Takes (n : Node) (joined : String) (template? : Option PathTemplate) : Prop :=
  match n.role with
  | .leaf _ _ template => PathTemplate.parse joined = .ok template ∧ template? = some template
  | .shell _ =>
    joined = "" ∧ template? = none ∨
      joined ≠ "" ∧ ∃ template, PathTemplate.parse joined = .ok template ∧ template? = some template

/-- A node that was checked against the joined path down to it. -/
def Node.Reads (cx : Context) (joined : String) (n : Node) : Prop :=
  ∃ ps template?, cx.catalog.constructor? n.type = some ps ∧ n.Takes joined template? ∧
    cx.bindings n.type template? ps = .ok n.bindings ∧
    ∀ t ∈ n.template?, cx.checkBound n.type t n.bindings = .ok ()

theorem constructor?_of_describe {cx : Context} {type : String} {ps : List Parameter}
    {fields constants : List Field} (h : cx.describe type = .ok (ps, fields, constants)) :
    cx.catalog.constructor? type = some ps := by
  unfold Context.describe at h
  unfold Catalog.constructor?
  split at h
  · next hfind =>
    cases h
    rw [hfind]
  · cases h
  · cases h

theorem Node.Reads.parse {cx : Context} {joined : String} {n : Node} (h : n.Reads cx joined)
    {template : PathTemplate} (hn : n.template? = some template) :
    PathTemplate.parse joined = .ok template := by
  obtain ⟨ps, template?, -, htakes, -, -⟩ := h
  unfold Node.Takes at htakes
  unfold Node.template? at hn
  split at hn
  · next hrole =>
    cases hn
    rw [hrole] at htakes
    exact htakes.1
  · cases hn

section Checks

variable {cx : Context} {around : Surroundings} {above : List Node} {n : Node}

/-- A node that is checked below some leaves is checked against their joined path and its own. -/
theorem reads_checkNode {a : Annotation} (h : checkNode cx around a = .ok n)
    (habove : around.path.toList = generated (paths above)) :
    n.Reads cx (joinedPath (above ++ [n])) := by
  cases a with
  | go type path? name? routes =>
    obtain ⟨path, ps, fields, constants, template, bindings, -, hdescribe, htemplate, hbindings,
      hbound, hn⟩ := checkNode_go_ok h
    have hrole : n.role = .leaf path name? template := by rw [hn]
    have hjoined : joinedPath (above ++ [n]) = joinTemplates around.path path := by
      rw [joinedPath, paths_concat_leaf hrole, generated_concat, joinTemplates, habove]
    refine ⟨ps, some template, ?_, ?_, ?_, ?_⟩
    · rw [hn]
      exact constructor?_of_describe hdescribe
    · unfold Node.Takes
      rw [hrole, hjoined]
      exact ⟨parseTemplate_ok htemplate, rfl⟩
    · rw [hn]
      exact hbindings
    · intro t ht
      rw [Node.template?, hrole] at ht
      cases ht
      rw [hn]
      exact hbound
  | shell type routes =>
    obtain ⟨ps, fields, constants, template?, bindings, hdescribe, htemplate, hbindings, hn⟩ :=
      checkNode_shell_ok h
    obtain ⟨key?, hrole⟩ : ∃ key?, n.role = .shell key? := ⟨_, by rw [hn]⟩
    have hjoined : joinedPath (above ++ [n]) = around.path := by
      rw [joinedPath, paths_concat_shell hrole, ← habove, String.ofList_toList]
    refine ⟨ps, template?, ?_, ?_, ?_, ?_⟩
    · rw [hn]
      exact constructor?_of_describe hdescribe
    · unfold Node.Takes
      rw [hrole, hjoined]
      split at htemplate
      · next hempty => exact Or.inl ⟨String.isEmpty_iff.1 hempty, (pure_eq_ok.1 htemplate).symm⟩
      · next hempty =>
        obtain ⟨template, hparse, rfl⟩ := map_eq_ok.1 htemplate
        refine Or.inr ⟨fun hnil => hempty (by rw [hnil]; rfl), template, ?_, rfl⟩
        exact parseTemplate_ok hparse
    · rw [hn]
      exact hbindings
    · intro t ht
      rw [Node.template?, hrole] at ht
      cases ht

/-- Every node of some was checked against the joined path down to it. -/
def ReadAlong (cx : Context) (c : List Node) : Prop :=
  ∀ above n, above ++ [n] <+: c → n.Reads cx (joinedPath (above ++ [n]))

theorem readAlong_nil : ReadAlong cx [] := by
  intro above n hpre
  exact absurd (List.prefix_nil.1 hpre) (by simp)

theorem readAlong_concat (h : ReadAlong cx above) (hn : n.Reads cx (joinedPath (above ++ [n]))) :
    ReadAlong cx (above ++ [n]) := by
  intro above' n' hpre
  rcases List.prefix_concat_iff.1 hpre with heq | hpre
  · obtain ⟨rfl, hlast⟩ := List.append_inj' heq rfl
    obtain rfl := List.singleton_inj.1 hlast
    exact hn
  · exact h above' n' hpre

end Checks

section Trees

variable {catalog : Catalog} {settings : Settings} {d : Declaration} {t : RouteTree}

/-- Every node along a chain of a tree was checked against the joined path down to it. -/
theorem readAlong_chain (h : RouteTree.ofDeclaration catalog settings d = .ok t)
    {above : List Node} {n : Node} (hc : above ++ [n] ∈ t.chains) :
    ReadAlong ⟨catalog, settings, d.type⟩ (above ++ [n]) := by
  obtain ⟨around, a, ⟨hpath, habove⟩, hcheck⟩ :=
    checked_chain (P := fun around above => around.path.toList = generated (paths above) ∧
        ReadAlong ⟨catalog, settings, d.type⟩ above) h ⟨rfl, readAlong_nil⟩
      (fun around above a n hP hn => ⟨below_path_eq_generated hn hP.1,
        readAlong_concat hP.2 (reads_checkNode hn hP.1)⟩) hc
  exact readAlong_concat habove (reads_checkNode hcheck hpath)

/-- The template of a leaf is read from the joined path down to it, the parameters of every node are
bound against what it takes of that path, and those of a leaf above come first in a leaf below. -/
theorem template_chain (h : RouteTree.ofDeclaration catalog settings d = .ok t)
    {above : List Node} {n : Node} (hc : above ++ [n] ∈ t.chains) :
    (∃ ps template?, catalog.constructor? n.type = some ps ∧
      n.Takes (joinedPath (above ++ [n])) template? ∧
      bindAll template? settings.payloadField { declaration := d.type, route? := some n.type } ps =
        .ok n.bindings) ∧
    ∀ m ∈ above, ∀ a b, m.template? = some a → n.template? = some b →
      a.parameters <+: b.parameters := by
  have halong := readAlong_chain h hc
  have hreads := halong above n List.prefix_rfl
  constructor
  · obtain ⟨ps, template?, hps, htakes, hbindings, -⟩ := hreads
    exact ⟨ps, template?, hps, htakes, hbindings⟩
  · intro m hm a b ha hb
    obtain ⟨before, behind, rfl⟩ := List.append_of_mem hm
    have hsplit : before ++ m :: behind ++ [n] = (before ++ [m]) ++ (behind ++ [n]) := by simp
    rw [hsplit] at halong hreads
    have hparse := (halong before m (List.prefix_append _ _)).parse ha
    have hparse' := hreads.parse hb
    rw [joinedPath, paths, List.filterMap_append] at hparse'
    exact PathTemplate.parameters_prefix_of_parse hparse hparse'

/-- Below a leaf and a shell. -/
theorem template_chain_person :
    (∃ ps template?, familyCatalog.constructor? "Person" = some ps ∧
      personNode.Takes (joinedPath ([familyNode, frameNode] ++ [personNode])) template? ∧
      bindAll template? "extra" { declaration := "Family", route? := some "Person" } ps =
        .ok personNode.bindings) ∧
    familyTemplate.parameters <+: personTemplate.parameters := by
  have hchain : [familyNode, frameNode] ++ [personNode] ∈ familyTree.chains :=
    List.mem_cons_of_mem _ (List.mem_cons_of_mem _ List.mem_cons_self)
  obtain ⟨hbindings, hpre⟩ := template_chain ofDeclaration_family hchain
  exact ⟨hbindings, hpre familyNode List.mem_cons_self _ _ rfl rfl⟩

end Trees

end TypedRoutes
