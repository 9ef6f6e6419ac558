import TypedRoutes.Proofs.Inherited
import TypedRoutes.Proofs.Locals

/-!
# Parameters beside the variables of emitted functions

* `Uses` : the names of the state and of helpers by which a parameter is read;
* `Body.Captures` : a statement has a name that a statement before it binds;
* `DecodeLocals`, `LocationLocals` : the variables of the functions that make a value and that write a
  location;
* `hygienic_locals` : in every output the variables of a location are distinct just if no parameter of
  its path is called `query`, and those that make a value leave the names it is read by alone just if
  no parameter has one of them.
-/

namespace TypedRoutes

/-! ## Names that are bound -/

/-- The parameters of a tree have names that a variable can have. -/
theorem isPlainIdentifier_bindings {catalog : Catalog} {settings : Settings} {d : Declaration}
    {t : RouteTree} (h : RouteTree.ofDeclaration catalog settings d = .ok t) {n : Node}
    (hn : n ∈ t.nodes) : ∀ b ∈ n.bindings, Text.isPlainIdentifier b.name = true := by
  obtain ⟨above, hc⟩ := RouteTree.exists_chain hn
  obtain ⟨ps, template?, -, -, hbindings, -⟩ := readAlong_chain h hc above n List.prefix_rfl
  intro b hb
  exact (Bool.and_eq_true_iff.1 (isUsableName_of_bindAll hbindings b hb)).1

/-- The template of a leaf is made of canonical segments. -/
theorem canonical_template {catalog : Catalog} {settings : Settings} {d : Declaration}
    {t : RouteTree} (h : RouteTree.ofDeclaration catalog settings d = .ok t) {n : Node}
    (hn : n ∈ t.nodes) {template : PathTemplate} (htemplate : n.template? = some template) :
    Canonical template.segments := by
  obtain ⟨above, hc⟩ := RouteTree.exists_chain hn
  have hreads := readAlong_chain h hc above n List.prefix_rfl
  exact (PathTemplate.canonical_of_parse (hreads.parse htemplate)).1

namespace Emission

open Syntax Code

/-! ## Names that are used -/

/-- A name that is not bound by the code which reads a parameter, but used there: that of the state, or
that of a function among the helpers. The third helper is a trait, whose name no variable hides. -/
inductive Uses (catalog : Catalog) (b : Binding) : String → Prop
  | state : Uses catalog b "__state"
  | queryReader (carried : b.carrier = .query) (single : b.type.element? = none) :
      Uses catalog b Helper.queryReader.name
  | boolReader {place : Place} (carried : b.carrier ≠ .payload)
      (codec : Codec.ofType catalog place (b.type.element?.getD b.type) = .ok .bool) :
      Uses catalog b Helper.boolReader.name

section Reading

variable {tg : Target} {place : Place} {b : Binding} {name : String} {value : Code}

theorem state_readPath (key : Code) (codec : Codec) (nullable : Bool) :
    Mentions "__state" (readPath tg key codec nullable) := by
  cases nullable <;> simp [readPath, present]

theorem state_readPayload (key type : Code) (nullable : Bool) :
    Mentions "__state" (readPayload tg key type nullable) := by
  cases nullable <;> simp [readPayload]

theorem state_readCode (key : Code) (form : QueryForm) :
    Mentions "__state" (form.readCode tg key) := by
  cases form with
  | scalar codec fallback isText => cases fallback <;> simp [QueryForm.readCode]
  | list codec fallback => cases fallback <;> simp [QueryForm.readCode, QueryForm.readList]

theorem queryReader_readCode (key : Code) (codec : Codec) (fallback : Fallback) (isText : Bool) :
    Mentions queryReader ((QueryForm.scalar codec fallback isText).readCode tg key) := by
  cases fallback <;> simp [QueryForm.readCode]

theorem exists_scalar_of_ofBinding {catalog : Catalog} {form : QueryForm}
    (h : QueryForm.ofBinding catalog place b = .ok form) (hsingle : b.type.element? = none) :
    ∃ codec fallback isText, form = .scalar codec fallback isText := by
  obtain ⟨default?, -, h⟩ := bind_eq_ok.1 h
  dsimp only at h
  rw [hsingle] at h
  obtain ⟨codec, -, h⟩ := bind_eq_ok.1 h
  exact ⟨_, _, _, (pure_eq_ok.1 h).symm⟩

/-- The code that reads a parameter has the names that it is said to use. -/
theorem mentions_of_uses (h : readBinding tg place b = .ok value) (huses : Uses tg.catalog b name) :
    Mentions name value := by
  unfold readBinding at h
  cases hcarrier : b.carrier with
  | path =>
    rw [hcarrier] at h
    obtain ⟨codec, hcodec, h⟩ := bind_eq_ok.1 h
    obtain rfl := pure_eq_ok.1 h
    cases huses with
    | state => exact state_readPath _ codec _
    | queryReader carried => exact nomatch hcarrier.symm.trans carried
    | boolReader _ hbool =>
      rw [element?_of_ofType hcodec] at hbool
      obtain rfl := Except.ok.inj ((ofType_elsewhere place hbool).symm.trans hcodec)
      exact mentions_readPath _ _ (mentions_word.2 rfl)
  | query =>
    rw [hcarrier] at h
    obtain ⟨form, hform, h⟩ := bind_eq_ok.1 h
    obtain rfl := pure_eq_ok.1 h
    cases huses with
    | state => exact state_readCode _ form
    | queryReader _ single =>
      obtain ⟨codec, fallback, isText, rfl⟩ := exists_scalar_of_ofBinding hform single
      exact queryReader_readCode _ codec fallback isText
    | boolReader _ hbool =>
      have hcodec := QueryForm.codec_of_ofBinding hform
      rw [ofType_elsewhere place hbool] at hcodec
      refine mentions_readCode form _ ?_
      rw [← Except.ok.inj hcodec]
      exact mentions_word.2 rfl
  | payload =>
    rw [hcarrier] at h
    obtain ⟨type, -, h⟩ := bind_eq_ok.1 h
    obtain rfl := pure_eq_ok.1 h
    cases huses with
    | state => exact state_readPayload _ type _
    | queryReader carried => exact nomatch hcarrier.symm.trans carried
    | boolReader carried => exact absurd hcarrier carried

end Reading

/-! ## Names that are captured -/

/-- A statement has a name that a statement before it binds. Its own variable is not in scope there. -/
def Body.Captures (body : Body) (name : String) : Prop :=
  ∃ before l behind, body.lets = before ++ l :: behind ∧ name ∈ before.map Let.name ∧
    Mentions name l.value

/-- The variables of the function that makes a value. -/
structure DecodeLocals (catalog : Catalog) (n : Node) (body : Body) : Prop where
  /-- The function binds the parameters in constructor order, and nothing else. -/
  bound_eq : body.bound = n.bindings.map Binding.name
  rest_eq : body.rest = []
  /-- The value of each variable is read by the names that suit its parameter. -/
  uses : ∀ b ∈ n.bindings, ∃ l ∈ body.lets, l.name = b.name ∧
    ∀ name, Uses catalog b name → Mentions name l.value
  /-- A parameter in front of another captures a name that the other uses. -/
  captures : ∀ before b behind, n.bindings = before ++ b :: behind →
    ∀ name, Uses catalog b name → name ∈ before.map Binding.name → body.Captures name
  /-- The state is out of reach somewhere just if a parameter in front of the last has its name. -/
  captures_state_iff : body.Captures "__state" ↔ "__state" ∈ n.bindings.dropLast.map Binding.name
  /-- No variable has a name that a parameter is read by just if no parameter has one. -/
  clear_iff : (∀ b ∈ n.bindings, ∀ name, Uses catalog b name → name ∉ body.bound) ↔
    ∀ b ∈ n.bindings, ∀ b' ∈ n.bindings, ¬Uses catalog b b'.name

/-- The variables of the function that writes a location. -/
structure LocationLocals (tg : Target) (place : Place) (n : Node) (t : PathTemplate) (body : Body) :
    Prop where
  bound_eq : body.bound = t.names.map localName ++ ["__query"]
  rest_unbound : ∀ statement ∈ body.rest, statement.head? ≠ some (.ident "let")
  value_eq : body.value = call (tg.name ["location"]) [pathCode t, refer (word "__query")]
  /-- The path is formatted from the literal text of the template and the variables of its
  parameters. -/
  format : t.names ≠ [] → ∃ text,
    pathCode t = refer (invoke (path ["std", "format"]) (parens (str text))) ∧
      readFormat text = some (t.segments.flatMap formatItems)
  nodup_iff : body.bound.Nodup ↔ "query" ∉ t.names
  /-- Behind the statements the variable of a parameter stands for the encoded value of the parameter
  just if it is not that of the query. -/
  refers_iff : ∀ p ∈ t.names, ∃ value,
    writePath tg place n p = .ok (Code.bind (word (localName p)) value) ∧
      (body.value? (localName p) = some value ↔ p ≠ "query")
  refers_query : body.value? "__query" = some (call (member vecType "new") [])

section Locals

variable {tg : Target} {place : Place} {n : Node} {code : Code}

/-- If every statement has a name, it is captured just if a statement in front of the last binds it. -/
theorem captures_iff {body : Body} {name : String} (hall : ∀ l ∈ body.lets, Mentions name l.value) :
    body.Captures name ↔ name ∈ body.lets.dropLast.map Let.name := by
  constructor
  · rintro ⟨before, l, behind, hlets, hname, -⟩
    rw [hlets, List.dropLast_append_cons, List.map_append]
    exact List.mem_append_left _ hname
  · intro hname
    have hne : body.lets ≠ [] := by
      intro hnil
      rw [hnil] at hname
      cases hname
    exact ⟨body.lets.dropLast, body.lets.getLast hne, [], (List.dropLast_append_getLast hne).symm,
      hname, hall _ (List.getLast_mem hne)⟩

theorem decodeLocals {catalog : Catalog} {body : Body} (hrest : body.rest = [])
    (hlets : List.Forall₂ (fun b l => l.name = b.name ∧
      ∀ name, Uses catalog b name → Mentions name l.value) n.bindings body.lets) :
    DecodeLocals catalog n body := by
  have hbound : body.lets.map Let.name = n.bindings.map Binding.name :=
    map_name_of_forall₂ hlets fun _ _ _ h => h.1
  constructor
  case bound_eq => exact hbound
  case rest_eq => exact hrest
  case uses =>
    intro b hb
    obtain ⟨before, behind, hbindings⟩ := List.append_of_mem hb
    rw [hbindings] at hlets
    obtain ⟨before', l, behind', hsplit, -, hl⟩ := exists_split_of_forall₂ hlets
    exact ⟨l, hsplit ▸ List.mem_append_right _ List.mem_cons_self, hl⟩
  case captures =>
    intro before b behind hbindings name huses hname
    rw [hbindings] at hlets
    obtain ⟨before', l, behind', hsplit, hbefore, hl⟩ := exists_split_of_forall₂ hlets
    rw [← map_name_of_forall₂ hbefore fun _ _ _ h => h.1] at hname
    exact ⟨before', l, behind', hsplit, hname, hl.2 name huses⟩
  case captures_state_iff =>
    have hall : ∀ l ∈ body.lets, Mentions "__state" l.value :=
      forall_mem_of_forall₂ hlets fun _ _ h => h.2 _ .state
    rw [captures_iff hall, List.map_dropLast, hbound, List.map_dropLast]
  case clear_iff =>
    rw [Body.bound, hbound]
    refine forall₂_congr fun b _ => ⟨fun h b' hb' huses => ?_, fun h name huses hname => ?_⟩
    · exact h _ huses (List.mem_map_of_mem hb')
    · obtain ⟨b', hb', rfl⟩ := List.mem_map.1 hname
      exact h b' hb' huses

/-- The variables of the function that makes a value. -/
theorem exists_decodeLocals (h : decodeFunction tg place n = .ok code)
    (hplain : ∀ b ∈ n.bindings, Text.isPlainIdentifier b.name = true) :
    ∃ marker output body, code = marker ++ publicFunction (word decodeName)
        [typed (word "__state") (dynRef (tg.name ["NavigationState"]))] output (Body.code body) ∧
      DecodeLocals tg.catalog n body := by
  obtain ⟨marker, output, body, hcode, hrest, hlets⟩ := decodeFunction_ok h hplain
  refine ⟨marker, output, body, hcode, decodeLocals hrest (hlets.imp fun b l ⟨hname, hread⟩ => ?_)⟩
  exact ⟨hname, fun name huses => mentions_of_uses hread huses⟩

/-- The variable of a parameter that is called `query` is the one of the query. -/
theorem localName_query : localName "query" = "__query" := by
  decide

theorem localName_eq_query {p : String} : localName p = "__query" ↔ p = "query" := by
  rw [← localName_query, localName_injective.eq_iff]

theorem mem_map_localName {names : List String} :
    "__query" ∈ names.map localName ↔ "query" ∈ names := by
  rw [← localName_query, List.mem_map_of_injective localName_injective]

/-- A call with a reference is none without arguments. -/
theorem call_refer_ne_call_nil {callee callee' value : Code} :
    call callee [refer value] ≠ call callee' [] := by
  intro h
  have hlast := (List.append_inj' h rfl).2
  cases hlast

/-- The variables of the function that writes a location. -/
theorem exists_locationLocals {t : PathTemplate} (h : locationFunction tg place n t = .ok code)
    (ht : Canonical t.segments) :
    ∃ body : Body, code = publicFunction (word "location") [refer (word "self")] stringType body.code ∧
      LocationLocals tg place n t body := by
  obtain ⟨body, hcode, hvalue, hrest, encoded, query, hlets, hname, hnew, hencoded⟩ :=
    locationFunction_ok h
  have hnames : encoded.map Let.name = t.names.map localName :=
    map_name_of_forall₂ hencoded fun _ _ _ h => h.1
  have hbound : body.bound = t.names.map localName ++ ["__query"] := by
    rw [Body.bound, hlets, List.map_append, hnames, List.map_singleton, hname]
  have hdistinct : (t.names.map localName).Nodup := ht.distinct.map localName_injective
  have hquery : body.value? "__query" = some (call (member vecType "new") []) := by
    rw [← hname, Body.value?_of_last hlets, hnew]
  refine ⟨body, hcode, ?_⟩
  constructor
  case bound_eq => exact hbound
  case rest_unbound => exact hrest
  case value_eq => exact hvalue
  case format =>
    intro hne
    refine ⟨formatText t.segments, ?_, readFormat_formatText ht.valid⟩
    rw [pathCode, if_neg (by simpa using hne)]
  case nodup_iff =>
    rw [hbound, List.nodup_append_comm, List.singleton_append, List.nodup_cons, mem_map_localName]
    exact and_iff_left hdistinct
  case refers_iff =>
    intro p hp
    obtain ⟨before, behind, hsplit⟩ := List.append_of_mem hp
    rw [hsplit] at hencoded
    obtain ⟨before', l, behind', hlets', -, hl, value, hvalue, hwrite⟩ :=
      exists_split_of_forall₂ hencoded
    have hmem : l ∈ encoded := hlets' ▸ List.mem_append_right _ List.mem_cons_self
    refine ⟨l.value, hwrite, ?_⟩
    constructor
    · rintro hrefers rfl
      rw [localName_query, hquery, hvalue] at hrefers
      exact call_refer_ne_call_nil (Option.some.inj hrefers).symm
    · intro hne
      rw [← hl]
      refine Body.value?_of_mem (hlets ▸ List.mem_append_left _ hmem) fun l' hl' heq => ?_
      rw [hlets] at hl'
      rcases List.mem_append.1 hl' with hl' | hl'
      · exact List.inj_on_of_nodup_map (hnames ▸ hdistinct) hl' hmem heq
      · obtain rfl := List.mem_singleton.1 hl'
        rw [hname, hl] at heq
        exact absurd (localName_eq_query.1 heq.symm) hne
  case refers_query => exact hquery

/-- The code of a route has these bodies of the functions that make a value and that write a
location. -/
def HasBodies (tg : Target) (code : Code) (decode : Body) (location? : Option Body) : Prop :=
  ∃ type marker output navigation, code = word "impl" ++ type ++ braces
    (marker ++ publicFunction (word decodeName)
        [typed (word "__state") (dynRef (tg.name ["NavigationState"]))] output decode.code ++
      match location? with
      | some location =>
        publicFunction (word "location") [refer (word "self")] stringType location.code ++ navigation
      | none => [])

/-- The variables of the functions of a route. -/
theorem exists_bodies (h : routeCode tg place n = .ok code)
    (hplain : ∀ b ∈ n.bindings, Text.isPlainIdentifier b.name = true)
    (hcanonical : ∀ t, n.template? = some t → Canonical t.segments) :
    ∃ decode location?, HasBodies tg code decode location? ∧ DecodeLocals tg.catalog n decode ∧
      (n.template? = none → location? = none) ∧
      ∀ t, n.template? = some t → ∃ location, location? = some location ∧
        LocationLocals tg place n t location := by
  obtain ⟨type, decodeCode, leaf, rfl, hdecode, hshell, hleaf⟩ := routeCode_shape h
  obtain ⟨marker, output, decode, rfl, hlocals⟩ := exists_decodeLocals hdecode hplain
  cases htemplate : n.template? with
  | none =>
    rw [hshell htemplate]
    exact ⟨decode, none, ⟨type, marker, output, [], rfl⟩, hlocals, fun _ => rfl, fun t ht => nomatch ht⟩
  | some t =>
    obtain ⟨locationCode, navigation, rfl, hlocation⟩ := hleaf t htemplate
    obtain ⟨location, rfl, hwritten⟩ := exists_locationLocals hlocation (hcanonical t htemplate)
    refine ⟨decode, some location, ⟨type, marker, output, navigation, rfl⟩, hlocals,
      (fun hnone => nomatch hnone), fun t' ht' => ⟨location, rfl, ?_⟩⟩
    obtain rfl := Option.some.inj ht'
    exact hwritten

end Locals

/-- In every output each route has the functions of a route, whose variables are these. -/
theorem hygienic_locals {catalog : Catalog} {settings : Settings} {d : Declaration} {o : Output}
    (h : generate catalog settings d = .ok o) :
    ∃ tg t, target? catalog settings = some tg ∧ RouteTree.ofDeclaration catalog settings d = .ok t ∧
      ∀ n ∈ t.nodes, ∃ r ∈ o.blocks, r.kind = .routeData ∧ r.key = n.type ∧
        ∃ code decode location?, layOut code = .ok r.text ∧ HasBodies tg code decode location? ∧
          DecodeLocals catalog n decode ∧ (n.template? = none → location? = none) ∧
          ∀ template, n.template? = some template → ∃ location, location? = some location ∧
            LocationLocals tg (n.place d.type) n template location := by
  obtain ⟨t, ht, ⟨p⟩⟩ := generate_ok h
  refine ⟨p.target, t, p.target_eq, ht, fun n hn => ?_⟩
  obtain ⟨r, hr, hnode⟩ := p.nodes_ok.emitted n hn
  obtain ⟨hkind, hkey, code, hcode, htext⟩ := nodeBlock_ok hnode
  obtain ⟨decode, location?, hbodies, hdecode, hlocation⟩ := exists_bodies hcode
    (isPlainIdentifier_bindings ht hn) fun _ htemplate => canonical_template ht hn htemplate
  rw [p.catalog_eq] at hdecode
  exact ⟨r, p.mem_blocks.2 (Or.inr (Or.inl hr)), hkind, hkey, code, decode, location?, htext, hbodies,
    hdecode, hlocation⟩

/-- A parameter of the path that is called `query`, behind one that has the name of the state. -/
theorem locals_shadowed :
    let catalog := Catalog.ofList [.routeData "A"
      [.byName "__state" (.named "u32"), .byName "query" (.named "String")]]
    let d : Declaration := ⟨"A", .ofPath "A" "/a/:query"⟩
    ∃ o, generate catalog {} d = .ok o ∧ ∃ r ∈ o.blocks, ∃ tg code decode location,
      layOut code = .ok r.text ∧ HasBodies tg code decode (some location) ∧
      decode.bound = ["__state", "query"] ∧ decode.Captures "__state" ∧
      location.bound = ["__query", "__query"] ∧ ¬location.bound.Nodup := by
  intro catalog d
  obtain ⟨o, ho, -⟩ := exists_output_of catalog d (fun _ => true) (by decide +kernel)
  obtain ⟨tg, t, -, ht, hlocals⟩ := hygienic_locals ho
  have hnode : (RouteTree.ofDeclaration catalog {} d).toOption.any (fun t => t.nodes.any fun n =>
      n.bindings.map Binding.name = ["__state", "query"] ∧
        n.template?.map PathTemplate.names = some ["query"]) := by
    decide +kernel
  rw [ht] at hnode
  obtain ⟨n, hn, hnames⟩ := List.any_eq_true.1 hnode
  obtain ⟨hbindings, htemplate⟩ := of_decide_eq_true hnames
  obtain ⟨template, htemplate, hquery⟩ := Option.map_eq_some_iff.1 htemplate
  obtain ⟨r, hr, -, -, code, decode, location?, htext, hbodies, hdecode, -, hleaf⟩ := hlocals n hn
  obtain ⟨location, rfl, hlocation⟩ := hleaf template htemplate
  refine ⟨o, ho, r, hr, tg, code, decode, location, htext, hbodies, ?_, ?_, ?_, ?_⟩
  · rw [hdecode.bound_eq, hbindings]
  · rw [hdecode.captures_state_iff, List.map_dropLast, hbindings]
    exact List.mem_cons_self
  · rw [hlocation.bound_eq, hquery]
    decide
  · rw [hlocation.nodup_iff, hquery]
    simp

end Emission

end TypedRoutes
