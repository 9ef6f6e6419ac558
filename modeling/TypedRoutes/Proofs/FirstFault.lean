import TypedRoutes.Proofs.Arena
import TypedRoutes.Proofs.Inherited

/-!
# The first fault of a declaration

* `Site` : an annotated route with the joined path of the leaves above it; `Annotation.sites` : those
  of an annotation in pre-order;
* `Site.Valid` : a route without fault, looked at alone; `Site.HasFault` : a route with its first
  fault;
* `exists_checkNode_eq`, `checkNode_eq_error_iff` : the checks of a node in their order, and how each
  refuses it;
* `exists_checkNode_iff`, `checkNode_eq_error` : a node is made of a valid route, and of any other the
  first fault is reported;
* `FirstFault` : the fault of the first route that is not valid;
* `exists_buildTree_iff`, `buildTree_eq_error` : the same for trees;
* `ofDeclaration_firstFault` : the outcome of a declaration that is annotated for its own type.
-/

namespace TypedRoutes

/-! ## Sites -/

/-- A route as it is annotated, with the joined path of the leaves above it. -/
structure Site where
  above : String
  route : Annotation

namespace Annotation

/-- The joined path of the leaves down to an annotated route, where `above` is that of the leaves
above it. -/
def reach (above : String) : Annotation → String
  | go _ (some path) _ _ => joinTemplates above path
  | _ => above

mutual

/-- An annotated route and all nested in it in pre-order, below leaves of the joined path `above`. -/
def sitesFrom (above : String) : Annotation → List Site
  | go type path? name? routes =>
    ⟨above, go type path? name? routes⟩ :: sitesAll (reach above (go type path? name? routes)) routes
  | shell type routes => ⟨above, shell type routes⟩ :: sitesAll above routes

def sitesAll (above : String) : List Annotation → List Site
  | [] => []
  | a :: rest => a.sitesFrom above ++ sitesAll above rest

end

/-- An annotated route and all nested in it in pre-order. -/
def sites (a : Annotation) : List Site :=
  a.sitesFrom ""

theorem sitesFrom_eq (above : String) (a : Annotation) :
    a.sitesFrom above = ⟨above, a⟩ :: sitesAll (a.reach above) a.routes := by
  cases a <;> rfl

end Annotation

open Annotation (sitesAll sitesFrom_eq)

/-- A parameter of the name is among those of a constructor, and it travels in the path. -/
def TakesInPath (template? : Option PathTemplate) (payload : String) (ps : List Parameter)
    (name : String) : Prop :=
  ∃ p ∈ ps, p.name = name ∧ carrierOf template? payload p.name = .path

namespace Site

/-- A leaf. -/
def IsLeaf (s : Site) : Prop :=
  ∃ type path? name? routes, s.route = .go type path? name? routes

/-- A leaf that is annotated without a path. -/
def LacksPath (s : Site) : Prop :=
  ∃ type name? routes, s.route = .go type none name? routes

/-- The text that the template of a route is read from. A leaf has the joined path down to it, and a
shell that of the leaves above it, unless there are none. -/
def text? (s : Site) : Option String :=
  match s.route with
  | .go _ path? _ _ => path?.map (joinTemplates s.above)
  | .shell _ _ => if s.above.isEmpty then none else some s.above

/-- What the parameters of a route are bound against. -/
def BoundAgainst (s : Site) (template? : Option PathTemplate) : Prop :=
  match s.text? with
  | some text => ∃ t, PathTemplate.parse text = .ok t ∧ template? = some t
  | none => template? = none

/-- A route that passes every check, with the parameters of its constructor and the template they
are bound against. -/
structure Passes (cx : Context) (s : Site) (ps : List Parameter) (template? : Option PathTemplate) :
    Prop where
  described : cx.catalog.constructor? s.route.type = some ps
  path : ¬s.LacksPath
  template : s.BoundAgainst template?
  parameters : ∀ p ∈ ps, parameterFault? template? cx.settings.payloadField p = none
  bound : s.IsLeaf → ∀ t ∈ template?, ∀ name ∈ t.names,
    TakesInPath template? cx.settings.payloadField ps name

/-- A route without fault, looked at alone. -/
def Valid (cx : Context) (s : Site) : Prop :=
  ∃ ps template?, s.Passes cx ps template?

/-- A route with its first fault, looked at alone. The conditions of a fault are that the checks in
front were passed and that its own fails. -/
inductive HasFault (cx : Context) (s : Site) : Failure → Prop
  | unknown (undescribed : cx.catalog.find? s.route.type = none) :
    HasFault cx s ⟨.unknownRouteType s.route.type (closest s.route.type cx.catalog.names),
      cx.place s.route.type⟩
  | enumeration {members : List String}
    (described : cx.catalog.members? s.route.type = some members) :
    HasFault cx s ⟨.enumerationAsRoute s.route.type, cx.place s.route.type⟩
  | noPath {ps : List Parameter} (described : cx.catalog.constructor? s.route.type = some ps)
    (path : s.LacksPath) : HasFault cx s ⟨.pathMissing s.route.type, cx.place s.route.type⟩
  | template {ps : List Parameter} {text : String} {e : TemplateError}
    (described : cx.catalog.constructor? s.route.type = some ps) (text_eq : s.text? = some text)
    (unreadable : PathTemplate.parse text = .error e) :
    HasFault cx s ⟨.template e, cx.place s.route.type⟩
  | parameter {before behind : List Parameter} {p : Parameter} {template? : Option PathTemplate}
    {fault : Fault} (described : cx.catalog.constructor? s.route.type = some (before ++ p :: behind))
    (path : ¬s.LacksPath) (template : s.BoundAgainst template?)
    (first : ∀ q ∈ before, parameterFault? template? cx.settings.payloadField q = none)
    (faulty : parameterFault? template? cx.settings.payloadField p = some fault) :
    HasFault cx s ⟨fault, (cx.place s.route.type).parameter p.name⟩
  | unbound {ps : List Parameter} {t : PathTemplate} {before behind : List String} {name : String}
    (described : cx.catalog.constructor? s.route.type = some ps) (leaf : s.IsLeaf)
    (path : ¬s.LacksPath) (template : s.BoundAgainst (some t))
    (parameters : ∀ p ∈ ps, parameterFault? (some t) cx.settings.payloadField p = none)
    (names : t.names = before ++ name :: behind)
    (first : ∀ n ∈ before, TakesInPath (some t) cx.settings.payloadField ps n)
    (missing : ¬TakesInPath (some t) cx.settings.payloadField ps name) :
    HasFault cx s ⟨.unboundInTemplate name t.text, (cx.place s.route.type).parameter name⟩

/-- A fault is reported at the route's type. -/
theorem HasFault.place {cx : Context} {s : Site} {f : Failure} (h : s.HasFault cx f) :
    f.place.declaration = cx.declaration ∧ f.place.route? = some s.route.type := by
  cases h <;> exact ⟨rfl, rfl⟩

end Site

/-! ## Checks -/

section Checks

variable {cx : Context} {type : String} {f : Failure}

theorem exists_describe_iff {ps : List Parameter} :
    (∃ fields constants, cx.describe type = .ok (ps, fields, constants)) ↔
      cx.catalog.constructor? type = some ps := by
  unfold Context.describe Catalog.constructor?
  split <;> simp_all

theorem describe_eq_error :
    cx.describe type = .error f ↔
      (cx.catalog.find? type = none ∧
        f = ⟨.unknownRouteType type (closest type cx.catalog.names), cx.place type⟩) ∨
      (∃ members, cx.catalog.members? type = some members) ∧
        f = ⟨.enumerationAsRoute type, cx.place type⟩ := by
  unfold Context.describe Catalog.members?
  cases cx.catalog.find? type with
  | none => simp [eq_comm]
  | some info =>
    obtain ⟨name, shape⟩ := info
    cases shape <;> simp [eq_comm]

theorem parseTemplate_eq_error {text : String} :
    cx.parseTemplate type text = .error f ↔
      ∃ e, PathTemplate.parse text = .error e ∧ f = ⟨.template e, cx.place type⟩ := by
  unfold Context.parseTemplate
  cases PathTemplate.parse text <;> simp [eq_comm]

theorem parseTemplate_eq_ok {text : String} {t : PathTemplate} :
    cx.parseTemplate type text = .ok t ↔ PathTemplate.parse text = .ok t := by
  unfold Context.parseTemplate
  cases PathTemplate.parse text <;> simp

theorem bind?_eq_error {template? : Option PathTemplate} {payload : String} {place : Place}
    {p : Parameter} :
    bind? template? payload place p = .error f ↔
      ∃ fault, parameterFault? template? payload p = some fault ∧
        f = ⟨fault, place.parameter p.name⟩ := by
  unfold bind?
  cases parameterFault? template? payload p <;> simp [eq_comm]

/-- Binding fails with the fault of the first parameter that has one. -/
theorem bindAll_eq_error {template? : Option PathTemplate} {payload : String} {place : Place}
    {ps : List Parameter} :
    bindAll template? payload place ps = .error f ↔
      ∃ before p behind, ps = before ++ p :: behind ∧
        (∀ q ∈ before, parameterFault? template? payload q = none) ∧
        ∃ fault, parameterFault? template? payload p = some fault ∧
          f = ⟨fault, place.parameter p.name⟩ := by
  have hbound : ∀ q, (∃ b, bind? template? payload place q = .ok b) ↔
      parameterFault? template? payload q = none := by
    intro q
    simp [bind?_eq_ok_iff]
  unfold bindAll
  rw [mapM_eq_error]
  simp only [hbound, bind?_eq_error]

theorem any_inPath_iff {template? : Option PathTemplate} {payload : String} {ps : List Parameter}
    {name : String} :
    (Bindings.inPath (ps.map (Binding.ofParameter template? payload))).any (·.name = name) = true ↔
      TakesInPath template? payload ps name := by
  rw [List.any_eq_true]
  constructor
  · rintro ⟨b, hb, hname⟩
    obtain ⟨hb, hcarrier⟩ := mem_carriedBy.1 hb
    obtain ⟨p, hp, rfl⟩ := List.mem_map.1 hb
    exact ⟨p, hp, of_decide_eq_true hname, hcarrier⟩
  · rintro ⟨p, hp, hname, hcarrier⟩
    exact ⟨_, mem_carriedBy.2 ⟨List.mem_map_of_mem hp, hcarrier⟩, decide_eq_true hname⟩

theorem checkBound_eq_ok {t : PathTemplate} {template? : Option PathTemplate} {payload : String}
    {ps : List Parameter} :
    cx.checkBound type t (ps.map (Binding.ofParameter template? payload)) = .ok () ↔
      ∀ name ∈ t.names, TakesInPath template? payload ps name := by
  simp only [← any_inPath_iff]
  unfold Context.checkBound
  split
  · next name hfind =>
    obtain ⟨hmissing, hmem⟩ := List.find?_some hfind, List.mem_of_find?_eq_some hfind
    refine iff_of_false (fun h => nomatch h) fun hall => ?_
    rw [hall name hmem] at hmissing
    cases hmissing
  · next hfind =>
    refine iff_of_true rfl fun name hname => ?_
    simpa using List.find?_eq_none.1 hfind name hname

/-- A leaf is refused for the first name of its template that no parameter in the path has. -/
theorem checkBound_eq_error {t : PathTemplate} {template? : Option PathTemplate} {payload : String}
    {ps : List Parameter} :
    cx.checkBound type t (ps.map (Binding.ofParameter template? payload)) = .error f ↔
      ∃ before name behind, t.names = before ++ name :: behind ∧
        (∀ n ∈ before, TakesInPath template? payload ps n) ∧
        ¬TakesInPath template? payload ps name ∧
        f = ⟨.unboundInTemplate name t.text, (cx.place type).parameter name⟩ := by
  simp only [← any_inPath_iff]
  unfold Context.checkBound
  split
  · next name hfind =>
    constructor
    · intro h
      cases h
      obtain ⟨hmissing, before, behind, hsplit, hfirst⟩ := List.find?_eq_some_iff_append.1 hfind
      exact ⟨before, name, behind, hsplit, by simpa using hfirst, by simpa using hmissing, rfl⟩
    · rintro ⟨before, name', behind, hsplit, hfirst, hmissing, rfl⟩
      rw [List.find?_eq_some_iff_append.2
        ⟨by simpa using hmissing, before, behind, hsplit, by simpa using hfirst⟩] at hfind
      obtain rfl := Option.some.inj hfind
      rfl
  · next hfind =>
    refine iff_of_false (fun h => nomatch h) ?_
    rintro ⟨before, name, behind, hsplit, -, hmissing, -⟩
    have hnone := List.find?_eq_none.1 hfind name (by simp [hsplit])
    exact hmissing (by simpa using hnone)

end Checks

/-! ## Nodes -/

namespace Site

/-- What the parameters of a route are bound against, or the fault in its path. -/
def template (cx : Context) (s : Site) : Except Failure (Option PathTemplate) :=
  match s.route with
  | .go type none _ _ => .error ⟨.pathMissing type, cx.place type⟩
  | .go type (some path) _ _ => some <$> cx.parseTemplate type (joinTemplates s.above path)
  | .shell type _ =>
    if s.above.isEmpty then .ok none else some <$> cx.parseTemplate type s.above

/-- Refuse a leaf whose template has a parameter that is not bound in the path. -/
def checkBound (cx : Context) (s : Site) (template? : Option PathTemplate) (bs : List Binding) :
    Except Failure Unit :=
  match s.route, template? with
  | .go type _ _ _, some t => cx.checkBound type t bs
  | _, _ => .ok ()

section Stages

variable {cx : Context} {s : Site} {f : Failure} {template? : Option PathTemplate}

theorem template_eq_ok :
    s.template cx = .ok template? ↔ ¬s.LacksPath ∧ s.BoundAgainst template? := by
  obtain ⟨above, a⟩ := s
  unfold template LacksPath BoundAgainst text?
  cases a with
  | go type path? name? routes =>
    cases path? with
    | none => simp
    | some path => simp [map_eq_ok, parseTemplate_eq_ok, eq_comm (a := template?)]
  | shell type routes =>
    by_cases habove : above.isEmpty = true
    · simp [habove, eq_comm]
    · simp [habove, map_eq_ok, parseTemplate_eq_ok, eq_comm (a := template?)]

theorem template_eq_error :
    s.template cx = .error f ↔
      (s.LacksPath ∧ f = ⟨.pathMissing s.route.type, cx.place s.route.type⟩) ∨
      ∃ text e, s.text? = some text ∧ PathTemplate.parse text = .error e ∧
        f = ⟨.template e, cx.place s.route.type⟩ := by
  obtain ⟨above, a⟩ := s
  unfold template LacksPath text?
  cases a with
  | go type path? name? routes =>
    cases path? with
    | none => simp [eq_comm, Annotation.type]
    | some path => simp [map_eq_error, parseTemplate_eq_error, Annotation.type]
  | shell type routes =>
    by_cases habove : above.isEmpty = true
    · simp [habove]
    · simp [habove, Annotation.type, map_eq_error, parseTemplate_eq_error]

variable {ps : List Parameter}

theorem checkBound_eq_ok :
    s.checkBound cx template? (ps.map (Binding.ofParameter template? cx.settings.payloadField)) =
        .ok () ↔
      (s.IsLeaf → ∀ t ∈ template?, ∀ name ∈ t.names,
        TakesInPath template? cx.settings.payloadField ps name) := by
  obtain ⟨above, a⟩ := s
  unfold checkBound IsLeaf
  cases a with
  | go type path? name? routes =>
    cases template? with
    | none => simp
    | some t => simp [TypedRoutes.checkBound_eq_ok]
  | shell type routes => simp

theorem checkBound_eq_error :
    s.checkBound cx template? (ps.map (Binding.ofParameter template? cx.settings.payloadField)) =
        .error f ↔
      s.IsLeaf ∧ ∃ t, template? = some t ∧ ∃ before name behind,
        t.names = before ++ name :: behind ∧
        (∀ n ∈ before, TakesInPath template? cx.settings.payloadField ps n) ∧
        ¬TakesInPath template? cx.settings.payloadField ps name ∧
        f = ⟨.unboundInTemplate name t.text, (cx.place s.route.type).parameter name⟩ := by
  obtain ⟨above, a⟩ := s
  unfold checkBound IsLeaf
  cases a with
  | go type path? name? routes =>
    cases template? with
    | none => simp
    | some t => simp [TypedRoutes.checkBound_eq_error, Annotation.type]
  | shell type routes => simp

end Stages

end Site

section Nodes

variable {cx : Context} {around : Surroundings} {a : Annotation}

/-- The checks of a node in their order. -/
theorem exists_checkNode_eq (cx : Context) (around : Surroundings) (a : Annotation) :
    ∃ result : List Field × List Field → Option PathTemplate → List Binding → Node,
      checkNode cx around a = do
        let (ps, described) ← cx.describe a.type
        let template? ← Site.template cx ⟨around.path, a⟩
        let bindings ← cx.bindings a.type template? ps
        Site.checkBound cx ⟨around.path, a⟩ template? bindings
        return result described template? bindings := by
  cases a with
  | go type path? name? routes =>
    -- both alternatives that `getD` covers are refused before the node is made
    refine ⟨fun (fields, constants) template? bindings =>
      ⟨type, .leaf (path?.getD "") name? (template?.getD default),
        cx.ownKey? type cx.settings.parentNavigatorKeyField constants <|> around.key?,
        bindings, fields⟩, ?_⟩
    unfold checkNode
    refine bind_congr fun ⟨ps, fields, constants⟩ => ?_
    cases path? with
    | none => rfl
    | some path =>
      dsimp only [Site.template]
      cases cx.parseTemplate type (joinTemplates around.path path) <;> rfl
  | shell type routes =>
    refine ⟨fun (fields, constants) _ bindings =>
      ⟨type, .shell (cx.ownKey? type cx.settings.navigatorKeyField constants),
        cx.ownKey? type cx.settings.parentNavigatorKeyField constants <|> around.key?,
        bindings, fields⟩, ?_⟩
    unfold checkNode
    refine bind_congr fun ⟨ps, fields, constants⟩ => ?_
    unfold Site.template
    by_cases habove : around.path.isEmpty = true
    · simp only [habove, if_true]
      rfl
    · simp only [habove]
      rfl

/-- A node is made just of a route without fault. -/
theorem exists_checkNode_iff :
    (∃ n, checkNode cx around a = .ok n) ↔ Site.Valid cx ⟨around.path, a⟩ := by
  obtain ⟨result, heq⟩ := exists_checkNode_eq cx around a
  rw [heq]
  constructor
  · rintro ⟨n, h⟩
    obtain ⟨⟨ps, fields, constants⟩, hdescribe, h⟩ := bind_eq_ok.1 h
    obtain ⟨template?, htemplate, h⟩ := bind_eq_ok.1 h
    obtain ⟨bindings, hbindings, h⟩ := bind_eq_ok.1 h
    obtain ⟨⟨⟩, hbound, -⟩ := bind_eq_ok.1 h
    obtain ⟨hpath, hagainst⟩ := Site.template_eq_ok.1 htemplate
    obtain ⟨hparameters, rfl⟩ := bindAll_eq_ok_iff.1 hbindings
    exact ⟨ps, template?, exists_describe_iff.1 ⟨fields, constants, hdescribe⟩, hpath, hagainst,
      hparameters, Site.checkBound_eq_ok.1 hbound⟩
  · rintro ⟨ps, template?, h⟩
    obtain ⟨fields, constants, hdescribe⟩ := exists_describe_iff.2 h.described
    refine ⟨result (fields, constants) template?
      (ps.map (.ofParameter template? cx.settings.payloadField)), ?_⟩
    refine bind_eq_ok.2 ⟨_, hdescribe, ?_⟩
    refine bind_eq_ok.2 ⟨_, Site.template_eq_ok.2 ⟨h.path, h.template⟩, ?_⟩
    refine bind_eq_ok.2 ⟨_, bindAll_eq_ok_iff.2 ⟨h.parameters, rfl⟩, ?_⟩
    exact bind_eq_ok.2 ⟨_, Site.checkBound_eq_ok.2 h.bound, rfl⟩

/-- A node is refused by the first check that fails. -/
theorem checkNode_eq_error_iff {f : Failure} :
    checkNode cx around a = .error f ↔
      cx.describe a.type = .error f ∨ ∃ ps, cx.catalog.constructor? a.type = some ps ∧
        (Site.template cx ⟨around.path, a⟩ = .error f ∨
          ∃ template?, Site.template cx ⟨around.path, a⟩ = .ok template? ∧
            (cx.bindings a.type template? ps = .error f ∨
              (∀ p ∈ ps, parameterFault? template? cx.settings.payloadField p = none) ∧
                Site.checkBound cx ⟨around.path, a⟩ template?
                  (ps.map (.ofParameter template? cx.settings.payloadField)) = .error f)) := by
  obtain ⟨result, heq⟩ := exists_checkNode_eq cx around a
  rw [heq, bind_eq_error]
  refine or_congr_right ?_
  constructor
  · rintro ⟨⟨ps, fields, constants⟩, hdescribe, h⟩
    refine ⟨ps, exists_describe_iff.1 ⟨fields, constants, hdescribe⟩, ?_⟩
    rcases bind_eq_error.1 h with h | ⟨template?, htemplate, h⟩
    · exact Or.inl h
    refine Or.inr ⟨template?, htemplate, ?_⟩
    rcases bind_eq_error.1 h with h | ⟨bindings, hbindings, h⟩
    · exact Or.inl h
    obtain ⟨hparameters, rfl⟩ := bindAll_eq_ok_iff.1 hbindings
    rcases bind_eq_error.1 h with h | ⟨⟨⟩, -, h⟩
    · exact Or.inr ⟨hparameters, h⟩
    · cases h
  · rintro ⟨ps, hps, h⟩
    obtain ⟨fields, constants, hdescribe⟩ := exists_describe_iff.2 hps
    refine ⟨_, hdescribe, bind_eq_error.2 ?_⟩
    rcases h with h | ⟨template?, htemplate, h⟩
    · exact Or.inl h
    refine Or.inr ⟨template?, htemplate, bind_eq_error.2 ?_⟩
    rcases h with h | ⟨hparameters, h⟩
    · exact Or.inl h
    · exact Or.inr ⟨_, bindAll_eq_ok_iff.2 ⟨hparameters, rfl⟩, bind_eq_error.2 (Or.inl h)⟩

/-- Of any other route its first fault is reported. -/
theorem checkNode_eq_error {f : Failure} :
    checkNode cx around a = .error f ↔ Site.HasFault cx ⟨around.path, a⟩ f := by
  rw [checkNode_eq_error_iff]
  constructor
  · rintro (h | ⟨ps, hps, h | ⟨template?, htemplate, h⟩⟩)
    · rcases describe_eq_error.1 h with ⟨hnone, rfl⟩ | ⟨⟨members, hmembers⟩, rfl⟩
      · exact .unknown hnone
      · exact .enumeration hmembers
    · rcases Site.template_eq_error.1 h with ⟨hpath, rfl⟩ | ⟨text, e, htext, he, rfl⟩
      · exact .noPath hps hpath
      · exact .template hps htext he
    obtain ⟨hpath, hagainst⟩ := Site.template_eq_ok.1 htemplate
    rcases h with h | ⟨hparameters, h⟩
    · obtain ⟨before, p, behind, rfl, hfirst, fault, hfault, rfl⟩ := bindAll_eq_error.1 h
      exact .parameter hps hpath hagainst hfirst hfault
    · obtain ⟨hleaf, t, rfl, before, name, behind, hnames, hfirst, hmissing, rfl⟩ :=
        Site.checkBound_eq_error.1 h
      exact .unbound hps hleaf hpath hagainst hparameters hnames hfirst hmissing
  · intro h
    cases h with
    | unknown hnone => exact Or.inl (describe_eq_error.2 (Or.inl ⟨hnone, rfl⟩))
    | enumeration hmembers => exact Or.inl (describe_eq_error.2 (Or.inr ⟨⟨_, hmembers⟩, rfl⟩))
    | noPath hps hpath =>
      exact Or.inr ⟨_, hps, Or.inl (Site.template_eq_error.2 (Or.inl ⟨hpath, rfl⟩))⟩
    | template hps htext he =>
      refine Or.inr ⟨_, hps, Or.inl (Site.template_eq_error.2 (Or.inr ?_))⟩
      exact ⟨_, _, htext, he, rfl⟩
    | parameter hps hpath hagainst hfirst hfault =>
      refine Or.inr ⟨_, hps, Or.inr ⟨_, Site.template_eq_ok.2 ⟨hpath, hagainst⟩, Or.inl ?_⟩⟩
      exact bindAll_eq_error.2 ⟨_, _, _, rfl, hfirst, _, hfault, rfl⟩
    | unbound hps hleaf hpath hagainst hparameters hnames hfirst hmissing =>
      refine Or.inr ⟨_, hps, Or.inr ⟨_, Site.template_eq_ok.2 ⟨hpath, hagainst⟩, Or.inr ?_⟩⟩
      refine ⟨hparameters, Site.checkBound_eq_error.2 ?_⟩
      exact ⟨hleaf, _, rfl, _, _, _, hnames, hfirst, hmissing, rfl⟩

/-- No valid route has a fault. -/
theorem Site.HasFault.not_valid {s : Site} {f : Failure} (h : s.HasFault cx f) : ¬s.Valid cx := by
  intro hvalid
  obtain ⟨n, hn⟩ := (@exists_checkNode_iff cx ⟨s.above, none⟩ s.route).2 hvalid
  have herror := (@checkNode_eq_error cx ⟨s.above, none⟩ s.route f).2 h
  rw [hn] at herror
  cases herror

/-- The path handed down to the routes below is the joined path of the leaves down to them. -/
theorem below_path_eq_reach {n : Node} (h : checkNode cx around a = .ok n) :
    (around.below n).path = a.reach around.path := by
  cases a with
  | go type path? name? routes =>
    obtain ⟨path, ps, fields, constants, template, bindings, rfl, -, htemplate, -, -, rfl⟩ :=
      checkNode_go_ok h
    exact (below_path_leaf rfl).trans (text_parseTemplate htemplate)
  | shell type routes =>
    obtain ⟨ps, fields, constants, template?, bindings, -, -, -, rfl⟩ := checkNode_shell_ok h
    exact below_path_shell rfl

end Nodes

/-! ## Trees -/

/-- The fault of the first route that is not valid. -/
def FirstFault (cx : Context) (sites : List Site) (f : Failure) : Prop :=
  ∃ before s behind, sites = before ++ s :: behind ∧ (∀ b ∈ before, b.Valid cx) ∧ s.HasFault cx f

section Trees

variable {cx : Context} {f : Failure}

theorem not_firstFault_nil : ¬FirstFault cx [] f := by
  rintro ⟨before, s, behind, heq, -⟩
  simp at heq

theorem firstFault_cons {s : Site} {sites : List Site} :
    FirstFault cx (s :: sites) f ↔ s.HasFault cx f ∨ s.Valid cx ∧ FirstFault cx sites f := by
  constructor
  · rintro ⟨before, s', behind, heq, hbefore, hfault⟩
    cases before with
    | nil =>
      obtain ⟨rfl, rfl⟩ := List.cons.inj heq
      exact Or.inl hfault
    | cons b before =>
      obtain ⟨rfl, rfl⟩ := List.cons.inj heq
      obtain ⟨hvalid, hbefore⟩ := List.forall_mem_cons.1 hbefore
      exact Or.inr ⟨hvalid, before, s', behind, rfl, hbefore, hfault⟩
  · rintro (hfault | ⟨hvalid, before, s', behind, rfl, hbefore, hfault⟩)
    · exact ⟨[], s, sites, rfl, by simp, hfault⟩
    · exact ⟨s :: before, s', behind, rfl, List.forall_mem_cons.2 ⟨hvalid, hbefore⟩, hfault⟩

theorem firstFault_append {xs ys : List Site} :
    FirstFault cx (xs ++ ys) f ↔
      FirstFault cx xs f ∨ (∀ s ∈ xs, s.Valid cx) ∧ FirstFault cx ys f := by
  induction xs with
  | nil => simp [not_firstFault_nil]
  | cons s xs ih =>
    rw [List.cons_append, firstFault_cons, firstFault_cons, ih, List.forall_mem_cons]
    tauto

mutual

/-- A tree comes of an annotation just if all routes in it are without fault. -/
theorem exists_buildTree_iff (cx : Context) :
    ∀ (a : Annotation) (around : Surroundings),
      (∃ t, buildTree cx around a = .ok t) ↔ ∀ s ∈ a.sitesFrom around.path, s.Valid cx
  | a, around => by
    rw [sitesFrom_eq, List.forall_mem_cons, ← exists_checkNode_iff]
    constructor
    · rintro ⟨t, h⟩
      obtain ⟨n, ts, hn, hts, rfl⟩ := buildTree_ok h
      refine ⟨⟨n, hn⟩, ?_⟩
      rw [← below_path_eq_reach hn]
      exact (exists_buildAll_iff cx a.routes (around.below n)).1 ⟨ts, hts⟩
    · rintro ⟨⟨n, hn⟩, hroutes⟩
      rw [← below_path_eq_reach hn] at hroutes
      obtain ⟨ts, hts⟩ := (exists_buildAll_iff cx a.routes (around.below n)).2 hroutes
      exact ⟨_, buildTree_node hn hts⟩
termination_by a => sizeOf a
decreasing_by all_goals exact a.sizeOf_routes_lt

theorem exists_buildAll_iff (cx : Context) :
    ∀ (as : List Annotation) (around : Surroundings),
      (∃ ts, buildAll cx around as = .ok ts) ↔
        ∀ s ∈ sitesAll around.path as, s.Valid cx
  | [], around => by simp [buildAll, sitesAll]
  | a :: rest, around => by
    rw [sitesAll, List.forall_mem_append, ← exists_buildTree_iff cx a around,
      ← exists_buildAll_iff cx rest around]
    constructor
    · rintro ⟨ts, h⟩
      obtain ⟨t, ts', ht, hts, rfl⟩ := buildAll_cons_ok h
      exact ⟨⟨t, ht⟩, ts', hts⟩
    · rintro ⟨⟨t, ht⟩, ts, hts⟩
      exact ⟨t :: ts, bind_eq_ok.2 ⟨t, ht, bind_eq_ok.2 ⟨ts, hts, rfl⟩⟩⟩
termination_by as => sizeOf as

end

mutual

/-- Of any other annotation the fault of the first route that has one is reported. -/
theorem buildTree_eq_error (cx : Context) (f : Failure) :
    ∀ (a : Annotation) (around : Surroundings),
      buildTree cx around a = .error f ↔ FirstFault cx (a.sitesFrom around.path) f
  | a, around => by
    rw [sitesFrom_eq, firstFault_cons, ← checkNode_eq_error, ← exists_checkNode_iff,
      buildTree_eq, bind_eq_error]
    refine or_congr_right ?_
    constructor
    · rintro ⟨n, hn, h⟩
      refine ⟨⟨n, hn⟩, ?_⟩
      rw [← below_path_eq_reach hn]
      exact (buildAll_eq_error cx f a.routes (around.below n)).1 (map_eq_error.1 h)
    · rintro ⟨⟨n, hn⟩, hroutes⟩
      rw [← below_path_eq_reach hn] at hroutes
      have h := (buildAll_eq_error cx f a.routes (around.below n)).2 hroutes
      exact ⟨n, hn, map_eq_error.2 h⟩
termination_by a => sizeOf a
decreasing_by all_goals exact a.sizeOf_routes_lt

theorem buildAll_eq_error (cx : Context) (f : Failure) :
    ∀ (as : List Annotation) (around : Surroundings),
      buildAll cx around as = .error f ↔ FirstFault cx (sitesAll around.path as) f
  | [], around => by simp [buildAll, sitesAll, not_firstFault_nil]
  | a :: rest, around => by
    rw [sitesAll, firstFault_append, ← buildTree_eq_error cx f a around,
      ← exists_buildTree_iff, ← buildAll_eq_error cx f rest around, buildAll, bind_eq_error]
    refine or_congr_right ?_
    constructor
    · rintro ⟨t, ht, h⟩
      rcases bind_eq_error.1 h with h | ⟨ts, -, h⟩
      · exact ⟨⟨t, ht⟩, h⟩
      · cases h
    · rintro ⟨⟨t, ht⟩, h⟩
      exact ⟨t, ht, bind_eq_error.2 (Or.inl h)⟩
termination_by as => sizeOf as

end

end Trees

/-! ## Declarations -/

/-- A tree comes of a declaration that is annotated for its own type just if every route in it is
without fault. Otherwise the first fault of the first route that has one is reported, in pre-order
and at that route's type, whatever is behind it. -/
theorem ofDeclaration_firstFault {catalog : Catalog} {settings : Settings} {d : Declaration}
    (htype : d.annotation.type = d.type) :
    ((∃ t, RouteTree.ofDeclaration catalog settings d = .ok t) ↔
      ∀ s ∈ d.annotation.sites, s.Valid ⟨catalog, settings, d.type⟩) ∧
    ∀ f, RouteTree.ofDeclaration catalog settings d = .error f ↔
      ∃ before s behind, d.annotation.sites = before ++ s :: behind ∧
        (∀ b ∈ before, b.Valid ⟨catalog, settings, d.type⟩) ∧
        ¬s.Valid ⟨catalog, settings, d.type⟩ ∧ s.HasFault ⟨catalog, settings, d.type⟩ f ∧
        f.place.declaration = d.type ∧ f.place.route? = some s.route.type := by
  have hbuild : RouteTree.ofDeclaration catalog settings d =
      buildTree ⟨catalog, settings, d.type⟩ {} d.annotation := if_pos htype
  rw [hbuild]
  refine ⟨exists_buildTree_iff _ d.annotation {}, fun f => ?_⟩
  rw [buildTree_eq_error]
  constructor
  · rintro ⟨before, s, behind, heq, hbefore, hfault⟩
    exact ⟨before, s, behind, heq, hbefore, hfault.not_valid, hfault, hfault.place⟩
  · rintro ⟨before, s, behind, heq, hbefore, -, hfault, -⟩
    exact ⟨before, s, behind, heq, hbefore, hfault⟩

/-- A route without fault, and below it a leaf without a path in front of an unknown type. -/
def brokenDeclaration : Declaration where
  type := "Family"
  annotation :=
    .go "Family" (some "/family/:fid") none [.go "Frame" none none [], .shell "Missing" []]

/-- The leaf without a path is reported, and not the unknown type. -/
theorem ofDeclaration_broken :
    brokenDeclaration.annotation.type = brokenDeclaration.type ∧
      RouteTree.ofDeclaration familyCatalog {} brokenDeclaration =
        .error ⟨.pathMissing "Frame", familyContext.place "Frame"⟩ := by
  have hsites : brokenDeclaration.annotation.sites =
      [⟨"", brokenDeclaration.annotation⟩] ++ ⟨"/family/:fid", .go "Frame" none none []⟩ ::
        [⟨"/family/:fid", .shell "Missing" []⟩] := by
    rfl
  have hroot : Site.Valid familyContext ⟨"", brokenDeclaration.annotation⟩ :=
    (@exists_checkNode_iff familyContext {} _).1 ⟨familyNode, checkNode_family⟩
  have hdescribed : familyCatalog.constructor? "Frame" = some familyParameters := rfl
  have hframe : Site.HasFault familyContext ⟨"/family/:fid", .go "Frame" none none []⟩
      ⟨.pathMissing "Frame", familyContext.place "Frame"⟩ :=
    .noPath hdescribed ⟨_, _, _, rfl⟩
  have hbefore := List.forall_mem_singleton.2 hroot
  exact ⟨rfl, ((ofDeclaration_firstFault rfl).2 _).2
    ⟨_, _, _, hsites, hbefore, hframe.not_valid, hframe, hframe.place⟩⟩

end TypedRoutes
