import TypedRoutes.Proofs.EnumTable
import TypedRoutes.Proofs.RouteMeaning
import TypedRoutes.Sample.Tree

/-!
# The code of the sample application

* `schema`, `homeDeclaration`, `appDeclaration` : how the types and the routes of the application are
  described; `ofDeclaration_home`, `ofDeclaration_app` : their trees;
* `getter_home`, `getter_app` : the emitted getters build the routes of the application;
* `colorTable` : the emitted table of the colors is the one they are converted by;
* `IsEmitted` : the functions that are emitted for a type read its values as a reader does and write
  their locations;
* `isEmitted_home`, `isEmitted_family`, `isEmitted_person`, `isEmitted_search`, `isEmitted_settings` :
  so do those of each type.

The functions are put together of pieces of code with their meanings, and shown to be the emitted ones.
-/

namespace TypedRoutes.Sample

open Emission Syntax Code Navigation

/-! ## The schema -/

def familyParameters : List Parameter :=
  [.byPosition "fid" (.named "String")]

def colorParameter : Parameter :=
  (Parameter.byName "color" (.named "Color")).withDefault "Color::Red"

def tagsParameter : Parameter :=
  .optional (.byName "tags" (.list (.named "Color")))

def noteParameter : Parameter :=
  .optional (.byName "note" (TypeRef.named "String").asNullable)

def personParameters : List Parameter :=
  [.byName "fid" (.named "String"), .byName "pid" (.named "u32"), colorParameter, tagsParameter,
    noteParameter, .optional (.byName "extra" (TypeRef.named "Draft").asNullable)]

def qParameter : Parameter :=
  .byName "q" (.named "String")

def pageSizeParameter : Parameter :=
  (Parameter.byName "page_size" (.named "u32")).withDefault "20"

def exactParameter : Parameter :=
  (Parameter.byName "exact" (.named "bool")).withDefault "false"

def sortParameter : Parameter :=
  (Parameter.byName "sort" (.named "String")).withDefault "\"name\""

def searchParameters : List Parameter :=
  [qParameter, pageSizeParameter, exactParameter, sortParameter]

def settingsParameters : List Parameter :=
  [.byName "extra" (.named "Draft")]

def schema : Catalog :=
  .ofList [.routeData "HomeRoute" [], .routeData "FamilyRoute" familyParameters,
    .routeData "PersonRoute" personParameters, .routeData "SearchRoute" searchParameters,
    (TypeInfo.routeData "AppShell" []).withConstant ⟨"NAVIGATOR_KEY", .named "NavigatorKey"⟩,
    .routeData "SettingsRoute" settingsParameters,
    .enumeration "Color" ["Red", "DarkBlue", "Green"]]

def homeDeclaration : Declaration where
  type := "HomeRoute"
  annotation := .go "HomeRoute" (some "/") (some "home")
    [.go "FamilyRoute" (some "family/:fid") none [.ofPath "PersonRoute" "person/:pid"],
      .ofPath "SearchRoute" "search"]

def appDeclaration : Declaration where
  type := "AppShell"
  annotation := .shell "AppShell" [.ofPath "SettingsRoute" "/settings"]

/-- The application's own module takes the place of the library. -/
def settings : Settings where
  runtimePath := "crate::route_runtime"

def target : Target where
  catalog := schema
  settings := settings
  runtime := member (word "crate") "route_runtime"

theorem target?_schema : target? schema settings = some target := by
  have hruntime : settings.runtime? =
      some [.ident "crate", .punct ':' true, .punct ':' false, .ident "route_runtime"] := by
    decide +kernel
  rw [target?, hruntime]
  rfl

/-! ## Trees -/

def homeTemplate : PathTemplate := ⟨"/", [.literal "/"]⟩

def familyTemplate : PathTemplate :=
  ⟨"/family/:fid", [.literal "/family/", .parameter "fid" none]⟩

def personTemplate : PathTemplate where
  text := "/family/:fid/person/:pid"
  segments := [.literal "/family/", .parameter "fid" none, .literal "/person/",
    .parameter "pid" none]

def searchTemplate : PathTemplate := ⟨"/search", [.literal "/search"]⟩

def settingsTemplate : PathTemplate := ⟨"/settings", [.literal "/settings"]⟩

def templates : List PathTemplate :=
  [homeTemplate, familyTemplate, personTemplate, searchTemplate, settingsTemplate]

/-- The templates are read as they are, all by one run of the reader. -/
theorem parse_text : ∀ t ∈ templates, PathTemplate.parse t.text = .ok t := by
  decide +kernel

def homeNode : Node :=
  boundNode "HomeRoute" (.leaf "/" (some "home") homeTemplate) homeTemplate []

def familyNode : Node :=
  boundNode "FamilyRoute" (.leaf "family/:fid" none familyTemplate) familyTemplate familyParameters

def personNode : Node :=
  boundNode "PersonRoute" (.leaf "person/:pid" none personTemplate) personTemplate personParameters

def searchNode : Node :=
  boundNode "SearchRoute" (.leaf "search" none searchTemplate) searchTemplate searchParameters

def shellNode : Node where
  type := "AppShell"
  role := .shell (some ⟨"AppShell", "NAVIGATOR_KEY", false⟩)
  parentKey? := none
  bindings := []
  fields := []

/-- The settings are placed on the shell's navigator. -/
def settingsNode : Node :=
  { boundNode "SettingsRoute" (.leaf "/settings" none settingsTemplate) settingsTemplate
      settingsParameters with
    parentKey? := some ⟨"AppShell", "NAVIGATOR_KEY", true⟩ }

def homeTree : RouteTree :=
  .node homeNode [.node familyNode [.node personNode []], .node searchNode []]

def appTree : RouteTree :=
  .node shellNode [.node settingsNode []]

def context (declaration : String) : Context where
  catalog := schema
  settings := settings
  declaration := declaration

/-- A leaf of the application whose parameters are bound against its template. -/
theorem checkNode_bound {declaration type path : String} {around : Surroundings}
    {name? : Option String} {routes : List Annotation} (ps : List Parameter)
    (template : PathTemplate)
    (hdescribe : (context declaration).describe type = .ok (described ps))
    (hjoined : joinTemplates around.path path = template.text) (htemplate : template ∈ templates)
    (hfaults : ∀ p ∈ ps, parameterFault? (some template) "extra" p = none)
    (hbound : (context declaration).checkBound type template
      (ps.map (.ofParameter (some template) "extra")) = .ok ()) :
    checkNode (context declaration) around (.go type (some path) name? routes) =
      .ok { boundNode type (.leaf path name? template) template ps with parentKey? := around.key? } :=
  checkNode_go hdescribe (parseTemplate_eq_ok.2 (hjoined ▸ parse_text _ htemplate))
    (bindAll_eq_ok_iff.2 ⟨hfaults, rfl⟩) hbound

theorem ofDeclaration_home :
    RouteTree.ofDeclaration schema settings homeDeclaration = .ok homeTree := by
  have hhome : checkNode (context "HomeRoute") {} homeDeclaration.annotation = .ok homeNode :=
    checkNode_bound [] homeTemplate rfl rfl (by simp [templates]) (by decide) rfl
  have hfamily : checkNode (context "HomeRoute") ⟨"/", none⟩
      (.go "FamilyRoute" (some "family/:fid") none [.ofPath "PersonRoute" "person/:pid"]) =
      .ok familyNode :=
    checkNode_bound familyParameters familyTemplate rfl rfl (by simp [templates]) (by decide) rfl
  have hperson : checkNode (context "HomeRoute") ⟨"/family/:fid", none⟩
      (.ofPath "PersonRoute" "person/:pid") = .ok personNode :=
    checkNode_bound personParameters personTemplate rfl rfl (by simp [templates])
      (by decide +kernel) rfl
  have hsearch : checkNode (context "HomeRoute") ⟨"/", none⟩ (.ofPath "SearchRoute" "search") =
      .ok searchNode :=
    checkNode_bound searchParameters searchTemplate rfl rfl (by simp [templates]) (by decide) rfl
  have hbelow := buildTree_node hfamily (buildAll_singleton (buildTree_node hperson rfl))
  exact buildTree_node hhome
    (bind_eq_ok.2 ⟨_, hbelow, bind_eq_ok.2 ⟨_, buildAll_singleton (buildTree_node hsearch rfl), rfl⟩⟩)

theorem ofDeclaration_app :
    RouteTree.ofDeclaration schema settings appDeclaration = .ok appTree := by
  have hdescribe : (context "AppShell").describe "AppShell" =
      .ok ([], [], [⟨"NAVIGATOR_KEY", .named "NavigatorKey"⟩]) := rfl
  have hshell : checkNode (context "AppShell") {} appDeclaration.annotation = .ok shellNode :=
    bind_eq_ok.2 ⟨_, hdescribe, bind_eq_ok.2 ⟨none, rfl, bind_eq_ok.2 ⟨[], rfl, rfl⟩⟩⟩
  have hsettings : checkNode (context "AppShell") ⟨"", some ⟨"AppShell", "NAVIGATOR_KEY", true⟩⟩
      (.ofPath "SettingsRoute" "/settings") = .ok settingsNode :=
    checkNode_bound settingsParameters settingsTemplate rfl rfl (by simp [templates]) (by decide) rfl
  exact buildTree_node hshell (buildAll_singleton (buildTree_node hsettings rfl))

/-! ## Getters -/

/-- The types that the getters name. -/
def types : List String :=
  ["HomeRoute", "FamilyRoute", "PersonRoute", "SearchRoute", "AppShell", "SettingsRoute"]

theorem typePath_word (place : Place) : ∀ type ∈ types, typePath place type = .ok (word type) := by
  have hread : ∀ type ∈ types,
      (parsePath type).isSome ∧ (lex type).map typeTokens = some (word type) := by
    decide +kernel
  intro type htype
  exact typePath_eq (hread type htype)

/-- The functions that make values, with what they do. -/
def readers : List (Code × Reader) :=
  [(member (word "HomeRoute") decodeName, readHome),
    (member (word "FamilyRoute") decodeName, readFamily),
    (member (word "PersonRoute") decodeName, readPerson),
    (member (word "SearchRoute") decodeName, readSearch),
    (member (word "SettingsRoute") decodeName, readSettings)]

def reader? (function : Code) : Option Reader :=
  (readers.find? (·.1 = function)).map Prod.snd

/-- The key of the navigator that a constant names. -/
def key? (constant : Code) : Option String :=
  if constant = member (word "AppShell") "NAVIGATOR_KEY" then some "app" else none

/-- The getter of a tree builds a route at run time. -/
def Builds (declaration : String) (t : RouteTree) (route : Route Reader) : Prop :=
  ∃ code built, getterCode target declaration t = .ok code ∧ readGetter target code = some built ∧
    built.linked? reader? key? = some route

theorem builds_of_built {declaration name : String} {t : RouteTree} {b : Builder} {built : Built}
    {route : Route Reader}
    (hname : identifier (t.root.place declaration) (Text.snake (plainSegment declaration)) = .ok name)
    (hb : builderOf declaration t = .ok b) (hbuilt : b.built = some built)
    (hroute : built.linked? reader? key? = some route) : Builds declaration t route := by
  obtain ⟨code, hcode⟩ : ∃ code, getterCode target declaration t = .ok code :=
    ⟨_, bind_eq_ok.2 ⟨_, hname, bind_eq_ok.2 ⟨_, hb, rfl⟩⟩⟩
  exact ⟨code, built, hcode, readGetter_of_built hcode hb hbuilt, hroute⟩

theorem getter_home : Builds "HomeRoute" homeTree homeRoute := by
  have hhome : nodeBuilder (homeNode.place "HomeRoute") homeNode =
      .ok ((Builder.go "/" (word "HomeRoute")).with? .name (some "home")) :=
    nodeBuilder_leaf rfl rfl (typePath_word _ "HomeRoute" (by simp [types]))
  have hfamily : nodeBuilder (familyNode.place "HomeRoute") familyNode =
      .ok ((Builder.go "family/:fid" (word "FamilyRoute")).with? .name none) :=
    nodeBuilder_leaf rfl rfl (typePath_word _ "FamilyRoute" (by simp [types]))
  have hperson : nodeBuilder (personNode.place "HomeRoute") personNode =
      .ok ((Builder.go "person/:pid" (word "PersonRoute")).with? .name none) :=
    nodeBuilder_leaf rfl rfl (typePath_word _ "PersonRoute" (by simp [types]))
  have hsearch : nodeBuilder (searchNode.place "HomeRoute") searchNode =
      .ok ((Builder.go "search" (word "SearchRoute")).with? .name none) :=
    nodeBuilder_leaf rfl rfl (typePath_word _ "SearchRoute" (by simp [types]))
  have hbuilder : builderOf "HomeRoute" homeTree = .ok
      (.routes (.name (.go "/" (word "HomeRoute")) "home")
        [.routes (.go "family/:fid" (word "FamilyRoute")) [.go "person/:pid" (word "PersonRoute")],
          .go "search" (word "SearchRoute")]) := by
    simp only [homeTree, builderOf, buildersOf, hhome, hfamily, hperson, hsearch]
    rfl
  have hname : (identifier (homeTree.root.place "HomeRoute")
      (Text.snake (plainSegment "HomeRoute"))).toOption = some "home_route" := by decide
  exact builds_of_built (toOption_eq_some.1 hname) hbuilder rfl rfl

theorem getter_app : Builds "AppShell" appTree appShell := by
  have htype : ∀ place, typePath place "AppShell" = .ok (word "AppShell") := fun place =>
    typePath_word place _ (by simp [types])
  have hkey : ownKeyCode (shellNode.place "AppShell") (some ⟨"AppShell", "NAVIGATOR_KEY", false⟩) =
      .ok (some (member (word "AppShell") "NAVIGATOR_KEY")) :=
    bind_eq_ok.2 ⟨_, htype _, bind_eq_ok.2 ⟨_, identifier_of_usable (by decide) _, rfl⟩⟩
  have hshell : nodeBuilder (shellNode.place "AppShell") shellNode =
      .ok (.navigatorKey (.shell (word "AppShell")) (member (word "AppShell") "NAVIGATOR_KEY")) :=
    bind_eq_ok.2 ⟨_, htype _, bind_eq_ok.2 ⟨_, hkey, rfl⟩⟩
  have hsettings : nodeBuilder (settingsNode.place "AppShell") settingsNode =
      .ok ((Builder.go "/settings" (word "SettingsRoute")).with? .name none) :=
    nodeBuilder_leaf rfl rfl (typePath_word _ "SettingsRoute" (by simp [types]))
  have hbuilder : builderOf "AppShell" appTree = .ok
      (.routes (.navigatorKey (.shell (word "AppShell")) (member (word "AppShell") "NAVIGATOR_KEY"))
        [.go "/settings" (word "SettingsRoute")]) := by
    simp only [appTree, builderOf, buildersOf, hshell, hsettings]
    rfl
  have hname : (identifier (appTree.root.place "AppShell")
      (Text.snake (plainSegment "AppShell"))).toOption = some "app_shell" := by decide
  exact builds_of_built (toOption_eq_some.1 hname) hbuilder rfl rfl

/-! ## Conversions and defaults -/

def text : Conversion String where
  encode := id
  decode := some

def number : Conversion UInt32 where
  encode n := toString n.toNat
  decode := Text.Decimal.word?

def flag : Conversion Bool where
  encode := boolText
  decode := boolOfText?

def color : Conversion Color where
  encode := Color.text
  decode := Color.ofText?

def numberCodec : Codec :=
  .parsed (word "u32")

def colorCodec : Codec :=
  .enumeration (word "Color") "COLOR_ENUM_MAP"

/-- What expressions of a type stand for. Its values are compared as such. -/
def hostOf {α : Type} [DecidableEq α] (value : Expr → α) : Host α where
  value := value
  differs a b := a ≠ b
  truth _ _ := false

theorem hostOf_isLawful {α : Type} [DecidableEq α] (value : Expr → α) : (hostOf value).IsLawful :=
  fun _ _ => decide_eq_true_iff

/-- The member of a name. -/
def Color.ofName : String → Color
  | "DarkBlue" => darkBlue
  | "Green" => green
  | _ => red

/-- The table that is emitted for the colors. Its lookups are the conversions. -/
theorem colorTable (place : Place) : ∃ table,
    EnumTable.ofMembers place "Color" ((schema.members? "Color").getD []) = .ok table ∧
      table.name = "COLOR_ENUM_MAP" ∧ table.rows Color.ofName = Color.table ∧
        (∀ name, fromName? Color.table name = color.decode name) ∧
          ∀ c, toName? Color.table c = some (color.encode c) := by
  have hmembers : schema.members? "Color" = some ["Red", "DarkBlue", "Green"] := by decide
  refine ⟨⟨"COLOR_ENUM_MAP", word "Color",
    [("Red", "red"), ("DarkBlue", "dark-blue"), ("Green", "green")]⟩, ?_, rfl, rfl, fun _ => rfl,
    fun c => by cases c <;> rfl⟩
  rw [hmembers]
  rfl

def colorHost : Host Color := hostOf fun
  | .path (.mk none 0 false [.plain "Color", .plain name]) => .ofName name
  | _ => .red

def numberHost : Host UInt32 := hostOf fun
  | .literal l => (Text.Decimal.word? l).getD 0
  | _ => 0

def flagHost : Host Bool := hostOf fun
  | .literal l => (boolOfText? l).getD false
  | _ => false

def textHost : Host String := hostOf fun
  | .literal l => (Literal.textValue? l).getD ""
  | _ => ""

def colorDefault : WholeDefault "color" :=
  .ofSimple rfl (member (word "Color") "Red")
    (.path (.mk none 0 false [.plain "Color", .plain "Red"])) rfl rfl rfl

def pageSizeDefault : WholeDefault "page_size" :=
  .ofSimple rfl [.literal "20"] (.literal "20") rfl rfl rfl

def exactDefault : WholeDefault "exact" :=
  .ofSimple rfl (word "false") (.literal "false") rfl rfl rfl

def sortDefault : WholeDefault "sort" :=
  .ofSimple rfl (str "name") (.literal (Text.Quoted.encode "name")) (exprOf?_literal _) rfl rfl

theorem value_colorDefault : colorHost.value colorDefault.expr = .red := rfl

theorem value_pageSizeDefault : numberHost.value pageSizeDefault.expr = 20 := by decide

theorem value_exactDefault : flagHost.value exactDefault.expr = false := rfl

theorem value_sortDefault : textHost.value sortDefault.expr = "name" :=
  congrArg (Option.getD · "") (Literal.textValue?_encode "name")

/-! ## Parameters of the query -/

def colorMeaning : Meaning target "color" "color" (.scalar colorCodec (.default colorDefault.code) false)
    Color :=
  comparedScalar target "color" colorCodec color colorHost false colorDefault

def tagsMeaning : Meaning target "tags" "tags" (.list colorCodec .missing) (List Color) :=
  plainList target "tags" "tags" colorCodec color

def noteMeaning : Meaning target "note" "note" (.scalar .text .absent true) (Option String) :=
  nullableScalar target "note" "note" .text text true

def qMeaning : Meaning target "q" "q" (.scalar .text .missing true) String :=
  requiredScalar target "q" "q" .text text true

def pageSizeMeaning : Meaning target "page-size" "page_size"
    (.scalar numberCodec (.default pageSizeDefault.code) false) UInt32 :=
  comparedScalar target "page-size" numberCodec number numberHost false pageSizeDefault

def exactMeaning : Meaning target "exact" "exact" (.scalar .bool (.default exactDefault.code) false) Bool :=
  comparedScalar target "exact" .bool flag flagHost false exactDefault

def sortMeaning : Meaning target "sort" "sort" (.scalar .text (.default sortDefault.code) true) String :=
  comparedScalar target "sort" .text text textHost true sortDefault

/-! ## Making values -/

def homeReader : Action (Request Draft) Value :=
  .yield ⟨selfCode homeNode.bindings, fun _ => .home⟩

def familyReader : Action (Request Draft) Value :=
  .letIn "fid" ((pathCall target "fid" .text text).within fun r => r) <|
  .yield ⟨selfCode familyNode.bindings, fun g => .family g.1⟩

def personReader : Action (Request Draft) Value :=
  .letIn "fid" ((pathCall target "fid" .text text).within fun r => r) <|
  .letIn "pid" ((pathCall target "pid" numberCodec number).within fun g => g.2) <|
  .letIn "color" ((colorMeaning.reader.within Request.query).within fun g => g.2.2) <|
  .letIn "tags" ((tagsMeaning.reader.within Request.query).within fun g => g.2.2.2) <|
  .letIn "note" ((noteMeaning.reader.within Request.query).within fun g => g.2.2.2.2) <|
  .letIn "extra" ((Action.value (payload (word "Draft"))).within fun g => g.2.2.2.2.2) <|
  .yield ⟨selfCode personNode.bindings,
    fun (extra?, note?, tags, color, pid, fid, _) => .person fid pid color tags note? extra?⟩

def searchReader : Action (Request Draft) Value :=
  .letIn "q" ((qMeaning.reader.within Request.query).within fun r => r) <|
  .letIn "page_size" ((pageSizeMeaning.reader.within Request.query).within fun g => g.2) <|
  .letIn "exact" ((exactMeaning.reader.within Request.query).within fun g => g.2.2) <|
  .letIn "sort" ((sortMeaning.reader.within Request.query).within fun g => g.2.2.2) <|
  .yield ⟨selfCode searchNode.bindings,
    fun (sort, exact, pageSize, q, _) => .search q pageSize exact sort⟩

def settingsReader : Action (Request Draft) Value :=
  .letIn "extra" ((requiredPayload target "extra" (word "Draft")).within fun r => r) <|
  .yield ⟨selfCode settingsNode.bindings, fun g => .settings g.1⟩

section Runs

variable {α : Type} (key name : String) (codec : Codec) (c : Conversion α) (q : Query)

theorem run_pathCall_eq (r : Request Draft) :
    (pathCall target key codec c).run r =
      require key (r.param? key) >>= fun raw => convert key raw c.decode := by
  rw [run_pathCall]
  cases r.param? key with
  | none => rfl
  | some raw =>
    dsimp only
    show _ = convert key raw c.decode
    unfold convert
    cases c.decode raw <;> rfl

theorem run_readerCall_eq :
    (readerCall target key codec c).run q = convert? key (q.first.lookup key) c.decode := by
  rw [run_readerCall]
  unfold convert?
  cases q.first.lookup key with
  | none => rfl
  | some raw =>
    dsimp only
    unfold convert
    cases c.decode raw <;> rfl

theorem run_comparedScalar (h : Host α) (isText : Bool) (d : WholeDefault name) :
    (comparedScalar target key codec c h isText d).reader.run q = (do
      let a? ← convert? key (q.first.lookup key) c.decode
      return a?.getD (h.value d.expr)) := by
  rw [← run_readerCall_eq key codec c, ← map_eq_pure_bind]
  rfl

theorem run_plainList :
    (plainList target key name codec c).reader.run q =
      ((q.all.lookup key).getD []).mapM fun raw => convert key raw c.decode := by
  have heach : convertValue key c = fun raw => convert key raw c.decode := rfl
  show ((valuesCall target key codec c).run q).map (fun as? => as?.getD []) = _
  rw [run_valuesCall, heach]
  cases q.all.lookup key with
  | none => rfl
  | some raws =>
    dsimp only [Option.getD_some]
    cases raws.mapM fun raw => convert key raw c.decode <;> rfl

/-- A required text converts whenever it is there. -/
theorem run_requiredText :
    (requiredScalar target key name .text text true).reader.run q =
      require key (q.first.lookup key) := by
  show (Action.orLeave (readerCall target key .text text) _).run q = _
  unfold Action.orLeave
  dsimp only
  rw [run_readerCall_eq]
  cases q.first.lookup key <;> rfl

theorem run_requiredPayload (r : Request Draft) :
    (requiredPayload target key (word "Draft")).run r = require key r.payload := by
  simp only [requiredPayload, Action.ofTerm, Term.orError, payload, Term.missing, Term.literal]
  cases r.payload <;> rfl

end Runs

theorem run_familyReader (r : Request Draft) : familyReader.run r = readFamily r := by
  show ((pathCall target "fid" .text text).run r >>= fun fid => .ok (.family fid)) = readFamily r
  rw [run_pathCall_eq, bind_assoc]
  rfl

theorem run_personReader (r : Request Draft) : personReader.run r = readPerson r := by
  have hrun : personReader.run r = (do
      let fid ← (pathCall target "fid" .text text).run r
      let pid ← (pathCall target "pid" numberCodec number).run r
      let color ← colorMeaning.reader.run r.query
      let tags ← tagsMeaning.reader.run r.query
      let note? ← noteMeaning.reader.run r.query
      return .person fid pid color tags note? r.payload) := rfl
  have hnote : noteMeaning.reader.run r.query = convert? "note" (r.first? "note") some :=
    run_readerCall_eq "note" .text text r.query
  rw [hrun, run_pathCall_eq, run_pathCall_eq, colorMeaning, run_comparedScalar, tagsMeaning,
    run_plainList, hnote]
  simp only [bind_assoc, pure_bind]
  rfl

theorem run_searchReader (r : Request Draft) : searchReader.run r = readSearch r := by
  have hrun : searchReader.run r = (do
      let q ← qMeaning.reader.run r.query
      let pageSize ← pageSizeMeaning.reader.run r.query
      let exact ← exactMeaning.reader.run r.query
      let sort ← sortMeaning.reader.run r.query
      return .search q pageSize exact sort) := rfl
  rw [hrun, qMeaning, run_requiredText, pageSizeMeaning, run_comparedScalar, exactMeaning,
    run_comparedScalar, sortMeaning, run_comparedScalar, value_pageSizeDefault, value_exactDefault,
    value_sortDefault]
  simp only [bind_assoc, pure_bind]
  rfl

theorem run_settingsReader (r : Request Draft) : settingsReader.run r = readSettings r := by
  show ((requiredPayload target "extra" (word "Draft")).run r >>= fun extra =>
    .ok (.settings extra)) = readSettings r
  rw [run_requiredPayload]
  rfl

/-! ## Writing locations -/

structure PersonFields where
  fid : String
  pid : UInt32
  color : Color
  tags : List Color
  note? : Option String
  extra? : Option Draft

def PersonFields.value (p : PersonFields) : Value :=
  .person p.fid p.pid p.color p.tags p.note? p.extra?

structure SearchFields where
  q : String
  pageSize : UInt32
  exact : Bool
  sort : String

def SearchFields.value (s : SearchFields) : Value :=
  .search s.q s.pageSize s.exact s.sort

/-- The location of a place without parameters in its path or in its query. -/
def bareParts {ρ : Type} : LocationParts ρ where
  encoded := []
  steps := []

def familyParts : LocationParts String where
  encoded := [("fid", encodedPath target .text text ⟨selfField "fid", id⟩)]
  steps := []

def personParts : LocationParts PersonFields where
  encoded :=
    [("fid", encodedPath target .text text ⟨selfField "fid", PersonFields.fid⟩),
      ("pid", encodedPath target numberCodec number ⟨selfField "pid", PersonFields.pid⟩)]
  steps :=
    [colorMeaning.writer.within PersonFields.color, tagsMeaning.writer.within PersonFields.tags,
      noteMeaning.writer.within PersonFields.note?]

def searchParts : LocationParts SearchFields where
  encoded := []
  steps :=
    [qMeaning.writer.within SearchFields.q, pageSizeMeaning.writer.within SearchFields.pageSize,
      exactMeaning.writer.within SearchFields.exact, sortMeaning.writer.within SearchFields.sort]

section Texts

/-- A pair is added for a value other than the default. -/
theorem pairs_compared {α : Type} [DecidableEq α] (key : String) (codec : Codec) (c : Conversion α)
    (value : Expr → α) (isText : Bool) {name : String} (d : WholeDefault name) (a : α) :
    (comparedScalar target key codec c (hostOf value) isText d).writer.pairs a =
      pairUnless (value d.expr) key c.encode a :=
  pairs_comparedScalar target key codec c _ isText d (hostOf_isLawful value) a

theorem text?_familyParts (fid : String) :
    familyParts.text? familyTemplate fid = some (Value.family fid).location := by
  have hparse : PathTemplate.parse "/family/:fid" = .ok familyTemplate :=
    parse_text familyTemplate (by simp [templates])
  have hvalues : (familyTemplate.substitute fun n => familyParts.scope fid (localName n)) =
      .ok ("/family/" ++ (Text.Percent.encode fid ++ "")) := by
    simp only [LocationParts.scope_localName]
    rfl
  rw [LocationParts.text?, pathText?_pathCode hparse, hvalues, String.append_empty]
  rfl

theorem text?_personParts (p : PersonFields) :
    personParts.text? personTemplate p = some p.value.location := by
  have hparse : PathTemplate.parse "/family/:fid/person/:pid" = .ok personTemplate :=
    parse_text personTemplate (by simp [templates])
  have hvalues : (personTemplate.substitute fun n => personParts.scope p (localName n)) =
      .ok ("/family/" ++ (Text.Percent.encode p.fid ++
        ("/person/" ++ (Text.Percent.encode (toString p.pid.toNat) ++ "")))) := by
    simp only [LocationParts.scope_localName]
    rfl
  have hpath : pathText? (personParts.scope p) (pathCode personTemplate) = some p.value.path := by
    rw [pathText?_pathCode hparse, hvalues, String.append_empty, ← String.append_assoc,
      ← String.append_assoc]
    rfl
  have hcolor : colorMeaning.writer.pairs p.color = pairUnless .red "color" Color.text p.color :=
    pairs_compared "color" colorCodec color _ false colorDefault p.color
  have htags : tagsMeaning.writer.pairs p.tags = p.tags.map fun t => ("tags", t.text) :=
    pairs_pushAll "tags" colorCodec color _ _
  have hnote : noteMeaning.writer.pairs p.note? = (p.note?.map fun n => ("note", n)).toList := by
    cases p.note? <;> rfl
  have hquery : (personParts.steps.flatMap fun s => s.pairs p) = p.value.query := by
    show colorMeaning.writer.pairs p.color ++ (tagsMeaning.writer.pairs p.tags ++
      (noteMeaning.writer.pairs p.note? ++ [])) = _
    rw [hcolor, htags, hnote, List.append_nil, ← List.append_assoc]
    rfl
  rw [LocationParts.text?, hpath, hquery]
  rfl

theorem text?_searchParts (s : SearchFields) :
    searchParts.text? searchTemplate s = some s.value.location := by
  have hparse : PathTemplate.parse "/search" = .ok searchTemplate :=
    parse_text searchTemplate (by simp [templates])
  have hpath : pathText? (searchParts.scope s) (pathCode searchTemplate) = some s.value.path := by
    rw [pathText?_pathCode hparse]
    rfl
  have hpageSize : pageSizeMeaning.writer.pairs s.pageSize =
      pairUnless 20 "page-size" (fun n => toString n.toNat) s.pageSize := by
    rw [← value_pageSizeDefault]
    exact pairs_compared "page-size" numberCodec number _ false pageSizeDefault s.pageSize
  have hexact : exactMeaning.writer.pairs s.exact = pairUnless false "exact" boolText s.exact :=
    pairs_compared "exact" .bool flag _ false exactDefault s.exact
  have hsort : sortMeaning.writer.pairs s.sort = pairUnless "name" "sort" id s.sort := by
    rw [← value_sortDefault]
    exact pairs_compared "sort" .text text _ true sortDefault s.sort
  have hquery : (searchParts.steps.flatMap fun p => p.pairs s) = s.value.query := by
    show qMeaning.writer.pairs s.q ++ (pageSizeMeaning.writer.pairs s.pageSize ++
      (exactMeaning.writer.pairs s.exact ++ (sortMeaning.writer.pairs s.sort ++ []))) = _
    rw [hpageSize, hexact, hsort, List.append_nil, ← List.append_assoc, ← List.append_assoc]
    rfl
  rw [LocationParts.text?, hpath, hquery]
  rfl

end Texts

/-! ## Types -/

/-- For a type, a function is emitted that makes values as `read` does, and one that writes their
locations. The values are given by their fields. -/
structure IsEmitted {ρ : Type} (declaration : String) (n : Node) (t : PathTemplate)
    (action : Action (Request Draft) Value) (parts : LocationParts ρ) (read : Reader)
    (value : ρ → Value) : Prop where
  template_eq : n.template? = some t
  decode_eq : decodeFunction target (n.place declaration) n = .ok (decodeCode target action.code)
  run_eq : ∀ r, action.run r = read r
  location_eq : locationFunction target (n.place declaration) n t =
    .ok (locationCode (parts.body target t))
  text_eq : ∀ v, parts.text? t v = some (value v).location

def bound (t : PathTemplate) (p : Parameter) : Binding :=
  .ofParameter (some t) "extra" p

theorem isEmitted_home :
    IsEmitted "HomeRoute" homeNode homeTemplate homeReader bareParts readHome fun _ : Unit => .home where
  template_eq := rfl
  decode_eq := by
    have hreads : ReadsAll target (homeNode.place "HomeRoute") (selfCode homeNode.bindings)
        (fun r : Request Draft => r) homeNode.bindings homeReader := .done rfl
    exact decodeFunction_eq hreads
  run_eq _ := rfl
  location_eq := locationFunction_eq .nil .nil
  text_eq _ := by
    have hparse : PathTemplate.parse "/" = .ok homeTemplate :=
      parse_text homeTemplate (by simp [templates])
    rw [LocationParts.text?, pathText?_pathCode hparse]
    rfl

theorem isEmitted_family :
    IsEmitted "HomeRoute" familyNode familyTemplate familyReader familyParts readFamily .family := by
  have hfid : readBinding target ((familyNode.place "HomeRoute").parameter "fid")
      (bound familyTemplate (.byPosition "fid" (.named "String"))) =
        .ok (pathCall target "fid" .text text : Action (Request Draft) String).code :=
    readBinding_path (by decide)
  have hreads : ReadsAll target (familyNode.place "HomeRoute") (selfCode familyNode.bindings)
      (fun r : Request Draft => r) familyNode.bindings familyReader :=
    .read (by decide) hfid (.done rfl)
  exact ⟨rfl, decodeFunction_eq hreads, run_familyReader,
    locationFunction_eq (.cons ⟨rfl, writePath_eq rfl (by decide) rfl⟩ .nil) .nil,
    text?_familyParts⟩

theorem isEmitted_person :
    IsEmitted "HomeRoute" personNode personTemplate personReader personParts readPerson
      PersonFields.value := by
  have hcolor : CarriedAs target (personNode.place "HomeRoute") (bound personTemplate colorParameter)
      "color" "color" (.scalar colorCodec (.default colorDefault.code) false) :=
    .of_check (by decide +kernel)
  have htags : CarriedAs target (personNode.place "HomeRoute") (bound personTemplate tagsParameter)
      "tags" "tags" (.list colorCodec .missing) :=
    .of_check (by decide)
  have hnote : CarriedAs target (personNode.place "HomeRoute") (bound personTemplate noteParameter)
      "note" "note" (.scalar .text .absent true) :=
    .of_check (by decide)
  have hreads : ReadsAll target (personNode.place "HomeRoute") (selfCode personNode.bindings)
      (fun r : Request Draft => r) personNode.bindings personReader :=
    .read (by decide) (readBinding_path (by decide)) <|
    .read (by decide) (readBinding_path (by decide)) <|
    .read (by decide) (hcolor.read_eq colorMeaning) <|
    .read (by decide) (htags.read_eq tagsMeaning) <|
    .read (by decide) (hnote.read_eq noteMeaning) <|
    .read (by decide) (readBinding_optionalPayload rfl (by decide)) <|
    .done rfl
  have hlocation : locationFunction target (personNode.place "HomeRoute") personNode personTemplate =
      .ok (locationCode (personParts.body target personTemplate)) :=
    locationFunction_eq
      (.cons ⟨rfl, writePath_eq rfl (by decide) rfl⟩
        (.cons ⟨rfl, writePath_eq rfl (by decide) rfl⟩ .nil))
      (.cons (hcolor.write_eq colorMeaning rfl) (.cons (htags.write_eq tagsMeaning rfl)
        (.cons (hnote.write_eq noteMeaning rfl) .nil)))
  exact ⟨rfl, decodeFunction_eq hreads, run_personReader, hlocation, text?_personParts⟩

theorem isEmitted_search :
    IsEmitted "HomeRoute" searchNode searchTemplate searchReader searchParts readSearch
      SearchFields.value := by
  have hq : CarriedAs target (searchNode.place "HomeRoute") (bound searchTemplate qParameter)
      "q" "q" (.scalar .text .missing true) :=
    .of_check (by decide)
  have hpageSize : CarriedAs target (searchNode.place "HomeRoute")
      (bound searchTemplate pageSizeParameter) "page-size" "page_size"
      (.scalar numberCodec (.default pageSizeDefault.code) false) :=
    .of_check (by decide)
  have hexact : CarriedAs target (searchNode.place "HomeRoute") (bound searchTemplate exactParameter)
      "exact" "exact" (.scalar .bool (.default exactDefault.code) false) :=
    .of_check (by decide)
  have hsort : CarriedAs target (searchNode.place "HomeRoute") (bound searchTemplate sortParameter)
      "sort" "sort" (.scalar .text (.default sortDefault.code) true) :=
    .of_check (by decide +kernel)
  have hreads : ReadsAll target (searchNode.place "HomeRoute") (selfCode searchNode.bindings)
      (fun r : Request Draft => r) searchNode.bindings searchReader :=
    .read (by decide) (hq.read_eq qMeaning) <|
    .read (by decide) (hpageSize.read_eq pageSizeMeaning) <|
    .read (by decide) (hexact.read_eq exactMeaning) <|
    .read (by decide) (hsort.read_eq sortMeaning) <|
    .done rfl
  have hlocation : locationFunction target (searchNode.place "HomeRoute") searchNode searchTemplate =
      .ok (locationCode (searchParts.body target searchTemplate)) :=
    locationFunction_eq .nil
      (.cons (hq.write_eq qMeaning rfl) (.cons (hpageSize.write_eq pageSizeMeaning rfl)
        (.cons (hexact.write_eq exactMeaning rfl) (.cons (hsort.write_eq sortMeaning rfl) .nil))))
  exact ⟨rfl, decodeFunction_eq hreads, run_searchReader, hlocation, text?_searchParts⟩

theorem isEmitted_settings :
    IsEmitted "AppShell" settingsNode settingsTemplate settingsReader bareParts readSettings
      Value.settings := by
  have hparse : PathTemplate.parse "/settings" = .ok settingsTemplate :=
    parse_text settingsTemplate (by simp [templates])
  have hreads : ReadsAll target (settingsNode.place "AppShell") (selfCode settingsNode.bindings)
      (fun r : Request Draft => r) settingsNode.bindings settingsReader :=
    .read (by decide) (readBinding_requiredPayload rfl (by decide)) (.done rfl)
  refine ⟨rfl, decodeFunction_eq hreads, run_settingsReader, locationFunction_eq .nil .nil,
    fun extra => ?_⟩
  rw [LocationParts.text?, pathText?_pathCode hparse]
  rfl

end TypedRoutes.Sample
