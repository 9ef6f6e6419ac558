import TypedRoutes.Proofs.Blocks
import TypedRoutes.Proofs.NavigatorKey
import TypedRoutes.Proofs.RouteReader

/-!
# What a getter builds

* `Denotes` : a built route is what an annotation says, with the navigators that its own type declares;
* `nodeBuilder_ok` : the builder of a node stands for the route of its annotation, nothing nested in it;
* `built_of_buildTree` : the builder of a tree stands for a route that the annotation denotes;
* `getter_denotes` : every getter is read as a route that the annotation denotes.
-/

namespace TypedRoutes.Emission

open Syntax Code

/-! ## What an annotation denotes -/

section Denotes

variable (catalog : Catalog) (settings : Settings)

/-- A key is set just if the type declares a navigator under the name, and then it is that constant. -/
def SetsKey (type field : String) : Option Code → Prop
  | some key => catalog.hasKey settings type field = true ∧ ∃ owner name,
      typePath default type = .ok owner ∧ identifier default field = .ok name ∧ key = member owner name
  | none => catalog.hasKey settings type field = false

/-- A factory is the decoding function of a type. -/
def IsFactory (type : String) (factory : Code) : Prop :=
  ∃ owner, typePath default type = .ok owner ∧ factory = member owner decodeName

/-- The route that an annotation stands for: its path and name, the factory and the keys of its own
type, and the routes of what is nested in it, in order. -/
inductive Denotes : Annotation → Built → Prop
  | go {type path : String} {name? : Option String} {annotations : List Annotation} {factory : Code}
      {parentKey? : Option Code} {routes : List Built} (hfactory : IsFactory type factory)
      (hparent : SetsKey catalog settings type settings.parentNavigatorKeyField parentKey?)
      (hroutes : List.Forall₂ Denotes annotations routes) :
      Denotes (.go type (some path) name? annotations) (.go path factory name? parentKey? routes)
  | shell {type : String} {annotations : List Annotation} {factory : Code}
      {key? parentKey? : Option Code} {routes : List Built} (hfactory : IsFactory type factory)
      (hkey : SetsKey catalog settings type settings.navigatorKeyField key?)
      (hparent : SetsKey catalog settings type settings.parentNavigatorKeyField parentKey?)
      (hroutes : List.Forall₂ Denotes annotations routes) :
      Denotes (.shell type annotations) (.shell factory key? parentKey? routes)

end Denotes

theorem SetsKey.isSome_eq {catalog : Catalog} {settings : Settings} {type field : String}
    {key? : Option Code} (h : SetsKey catalog settings type field key?) :
    key?.isSome = catalog.hasKey settings type field := by
  cases key? with
  | none => exact h.symm
  | some key => exact h.1.symm

/-- The route that the code of a getter builds: its body holds one expression. -/
def readGetter (tg : Target) (code : Code) : Option Built :=
  match code.getLast? with
  | some (.group .brace body) =>
    match readFrom tg [] (.callee []) body with
    | some [route] => some route
    | _ => none
  | _ => none

/-! ## Nodes -/

section Nodes

variable {cx : Context} {around : Surroundings} {place : Place} {n : Node} {b : Builder}

/-- The key that is written is the one of the route's own type. One that a route takes over is not
written. -/
theorem ownKeyCode_ok {type field : String} {key? inherited? : Option KeyBinding} {code? : Option Code}
    (h : ownKeyCode place key? = .ok code?)
    (hkey : key? =
      if cx.catalog.hasKey cx.settings type field then some ⟨type, field, false⟩ else inherited?)
    (hinherited : ∀ key, inherited? = some key → key.inherited = true) :
    SetsKey cx.catalog cx.settings type field code? := by
  subst hkey
  unfold ownKeyCode at h
  split at h
  · next hnone =>
    cases h
    by_cases hown : cx.catalog.hasKey cx.settings type field = true
    · rw [if_pos hown] at hnone
      cases hnone
    · exact Bool.eq_false_iff.2 hown
  · next key hkey =>
    obtain ⟨hkey, hnew⟩ := Option.filter_eq_some_iff.1 hkey
    obtain ⟨owner, howner, h⟩ := bind_eq_ok.1 h
    obtain ⟨name, hname, h⟩ := bind_eq_ok.1 h
    obtain rfl := pure_eq_ok.1 h
    split at hkey
    · next hown =>
      obtain rfl := Option.some.inj hkey
      exact ⟨hown, owner, name, typePath_elsewhere _ howner, identifier_elsewhere _ hname, rfl⟩
    · rw [hinherited key hkey] at hnew
      cases hnew

/-- The builder of a node stands for the route of its annotation, whatever is nested in it. -/
theorem nodeBuilder_ok {a : Annotation} (h : nodeBuilder place n = .ok b)
    (hcheck : checkNode cx around a = .ok n)
    (hinherited : ∀ key, around.key? = some key → key.inherited = true) :
    ∃ route, b.built = some route ∧ route.setRoutes [] = route ∧
      ∀ routes, List.Forall₂ (Denotes cx.catalog cx.settings) a.routes routes →
        Denotes cx.catalog cx.settings a (route.setRoutes routes) := by
  obtain ⟨type, htype, h⟩ := bind_eq_ok.1 h
  have hparentKey := parentKey?_of_checkNode hcheck
  cases a with
  | go name path? name? annotations =>
    obtain ⟨path, ps, fields, constants, template, bindings, rfl, -, -, -, -, rfl⟩ :=
      checkNode_go_ok hcheck
    obtain ⟨parent?, hparent, h⟩ := bind_eq_ok.1 h
    obtain rfl := pure_eq_ok.1 h
    refine ⟨.go path (member type decodeName) name? parent? [], ?_, rfl, fun routes hroutes => ?_⟩
    · cases name? <;> cases parent? <;> rfl
    · exact .go ⟨type, typePath_elsewhere _ htype, rfl⟩
        (ownKeyCode_ok hparent hparentKey hinherited) hroutes
  | shell name annotations =>
    have hkey : ∀ key?, n.role = .shell key? → key? =
        declaredKey? cx.catalog cx.settings n.type cx.settings.navigatorKeyField :=
      fun key? => key?_of_checkNode hcheck
    obtain ⟨ps, fields, constants, template?, bindings, -, -, -, rfl⟩ :=
      checkNode_shell_ok hcheck
    obtain ⟨own?, hown, h⟩ := bind_eq_ok.1 h
    obtain ⟨parent?, hparent, h⟩ := bind_eq_ok.1 h
    obtain rfl := pure_eq_ok.1 h
    refine ⟨.shell (member type decodeName) own? parent? [], ?_, rfl, fun routes hroutes => ?_⟩
    · cases own? <;> cases parent? <;> rfl
    · exact .shell ⟨type, typePath_elsewhere _ htype, rfl⟩
        (ownKeyCode_ok hown (hkey _ rfl) nofun) (ownKeyCode_ok hparent hparentKey hinherited) hroutes

end Nodes

/-! ## Trees -/

section Trees

variable {cx : Context} {declaration : String}

/-- What a node hands down is inherited below it. -/
theorem inherited_below (around : Surroundings) (n : Node) :
    ∀ key, (around.below n).key? = some key → key.inherited = true := by
  intro key hkey
  obtain ⟨own, -, rfl⟩ := Option.map_eq_some_iff.1 hkey
  rfl

mutual

/-- The builder of a tree stands for a route that its annotation denotes. -/
theorem built_of_buildTree : ∀ {a : Annotation} {around : Surroundings} {t : RouteTree} {b : Builder},
    buildTree cx around a = .ok t → builderOf declaration t = .ok b →
    (∀ key, around.key? = some key → key.inherited = true) →
    ∃ route, b.built = some route ∧ Denotes cx.catalog cx.settings a route
  | a, around, t, b, h, hb, hinherited => by
    obtain ⟨n, ts, hcheck, hbelow, rfl⟩ := buildTree_ok h
    obtain ⟨own, hown, hb⟩ := bind_eq_ok.1 hb
    obtain ⟨bs, hbs, hb⟩ := bind_eq_ok.1 hb
    obtain rfl := pure_eq_ok.1 hb
    obtain ⟨route, hroute, hbare, hdenotes⟩ := nodeBuilder_ok hown hcheck hinherited
    obtain ⟨routes, hroutes, hall⟩ := builtAll_of_buildAll hbelow hbs (inherited_below around n)
    cases hempty : bs.isEmpty with
    | true =>
      obtain rfl := List.isEmpty_iff.1 hempty
      obtain rfl := Option.some.inj hroutes
      exact ⟨route, hroute, hbare ▸ hdenotes [] hall⟩
    | false =>
      refine ⟨route.setRoutes routes, ?_, hdenotes routes hall⟩
      show (Builder.routes own bs).built = _
      rw [Builder.built, hroute, hroutes]
      rfl

theorem builtAll_of_buildAll : ∀ {as : List Annotation} {around : Surroundings} {ts : List RouteTree}
    {bs : List Builder}, buildAll cx around as = .ok ts → buildersOf declaration ts = .ok bs →
    (∀ key, around.key? = some key → key.inherited = true) →
    ∃ routes, Builder.builtAll bs = some routes ∧
      List.Forall₂ (Denotes cx.catalog cx.settings) as routes
  | [], _, ts, bs, h, hbs, _ => by
    cases h
    cases hbs
    exact ⟨[], rfl, .nil⟩
  | a :: as, around, ts, bs, h, hbs, hinherited => by
    obtain ⟨t, ts, ht, hts, rfl⟩ := buildAll_cons_ok h
    obtain ⟨b, hb, hbs⟩ := bind_eq_ok.1 hbs
    obtain ⟨bs, hbs', hbs⟩ := bind_eq_ok.1 hbs
    obtain rfl := pure_eq_ok.1 hbs
    obtain ⟨route, hroute, hdenotes⟩ := built_of_buildTree ht hb hinherited
    obtain ⟨routes, hroutes, hall⟩ := builtAll_of_buildAll hts hbs' hinherited
    refine ⟨route :: routes, ?_, .cons hdenotes hall⟩
    rw [Builder.builtAll, hroute, hroutes]
    rfl

end

end Trees

/-! ## Getters -/

theorem readGetter_publicFunction (tg : Target) (name output body : Code) :
    readGetter tg (publicFunction name [] output body) =
      match readFrom tg [] (.callee []) body with
      | some [route] => some route
      | _ => none := by
  have hlast : (publicFunction name [] output body).getLast? = some (.group .brace body) := by
    unfold publicFunction function braces Tokens.braces
    rw [← List.append_assoc, List.getLast?_concat]
  unfold readGetter
  rw [hlast]

/-- A getter is read as the route that the builder of its tree stands for. -/
theorem readGetter_of_built {tg : Target} {declaration : String} {t : RouteTree} {code : Code}
    {b : Builder} {route : Built} (hcode : getterCode tg declaration t = .ok code)
    (hb : builderOf declaration t = .ok b) (hroute : b.built = some route) :
    readGetter tg code = some route := by
  obtain ⟨name, -, hcode⟩ := bind_eq_ok.1 hcode
  obtain ⟨b', hb', hcode⟩ := bind_eq_ok.1 hcode
  obtain rfl := pure_eq_ok.1 hcode
  obtain rfl := Except.ok.inj (hb.symm.trans hb')
  have hone : Builder.builtAll [b] = some [route] := by
    rw [Builder.builtAll, hroute]
    rfl
  have hread : readFrom tg [] (.callee []) (Tokens.commaSeparated (Builder.routeCodes tg [b])) =
      some [route] := readFrom_routeCodes [b] hone []
  rw [Builder.routeCodes, Builder.routeCodes, commaSeparated_singleton] at hread
  rw [readGetter_publicFunction, hread]

theorem readGetter_getterCode {catalog : Catalog} {settings : Settings} {d : Declaration}
    {tg : Target} {t : RouteTree} {code : Code}
    (ht : RouteTree.ofDeclaration catalog settings d = .ok t)
    (hcode : getterCode tg d.type t = .ok code) :
    ∃ route, readGetter tg code = some route ∧ Denotes catalog settings d.annotation route := by
  obtain ⟨name, -, hbuilder⟩ := bind_eq_ok.1 hcode
  obtain ⟨b, hb, -⟩ := bind_eq_ok.1 hbuilder
  obtain ⟨route, hroute, hdenotes⟩ := built_of_buildTree (ofDeclaration_ok ht).2 hb nofun
  exact ⟨route, readGetter_of_built hcode hb hroute, hdenotes⟩

/-- Every getter is read as a route that its annotation denotes, and what an output declares as its tree
is such a getter in lines. -/
theorem getter_denotes (catalog : Catalog) (settings : Settings) (d : Declaration) :
    (∀ tg t code, RouteTree.ofDeclaration catalog settings d = .ok t →
      getterCode tg d.type t = .ok code →
        ∃ route, readGetter tg code = some route ∧ Denotes catalog settings d.annotation route) ∧
    ∀ o, generate catalog settings d = .ok o →
      ∃ tg t code, target? catalog settings = some tg ∧
        RouteTree.ofDeclaration catalog settings d = .ok t ∧ getterCode tg d.type t = .ok code ∧
          ∃ b ∈ o.blocks, b.kind = .routeTree ∧ layOut code = .ok b.text := by
  refine ⟨fun tg t code ht hcode => readGetter_getterCode ht hcode, fun o ho => ?_⟩
  obtain ⟨t, ht, ⟨p⟩⟩ := generate_ok ho
  obtain ⟨code, hcode, htext⟩ := p.getter_code
  exact ⟨p.target, t, code, p.target_eq, ht, hcode, p.getter, p.mem_blocks.2 (Or.inl rfl),
    p.getter_kind, htext⟩

/-- Of three routes below each other, the first and the shell set the navigators that their types declare.
The page sets none, although it is placed on the shell's. -/
theorem getter_drawer :
    ∃ tg t code, RouteTree.ofDeclaration drawerCatalog {} drawerDeclaration = .ok t ∧
      getterCode tg drawerDeclaration.type t = .ok code ∧
        ∃ home homeKey drawer drawerKey page, readGetter tg code =
          some (.go "/home" home none (some homeKey)
            [.shell drawer (some drawerKey) none [.go "page" page none none []]]) := by
  have hset : ∀ {type field : String} {key?}, SetsKey drawerCatalog {} type field key? →
      drawerCatalog.hasKey {} type field = true → ∃ key, key? = some key :=
    fun h hown => Option.isSome_iff_exists.1 (h.isSome_eq.trans hown)
  have hunset : ∀ {type field : String} {key?}, SetsKey drawerCatalog {} type field key? →
      drawerCatalog.hasKey {} type field = false → key? = none :=
    fun h hown => Option.isNone_iff_eq_none.1
      (Option.isSome_eq_false_iff.1 (h.isSome_eq.trans hown))
  obtain ⟨o, ho, -⟩ := exists_output_of drawerCatalog drawerDeclaration (fun _ => true)
    (by decide +kernel)
  obtain ⟨tg, t, code, -, ht, hcode, -⟩ :=
    (getter_denotes drawerCatalog {} drawerDeclaration).2 o ho
  obtain ⟨route, hread, hdenotes⟩ :=
    (getter_denotes drawerCatalog {} drawerDeclaration).1 tg t code ht hcode
  refine ⟨tg, t, code, ht, hcode, ?_⟩
  rw [hread]
  cases hdenotes with
  | go _ homeKey hdrawer =>
    cases hdrawer with
    | cons hdrawer hnil =>
      cases hnil
      cases hdrawer with
      | shell _ drawerKey drawerParent hpage =>
        cases hpage with
        | cons hpage hnil =>
          cases hnil
          cases hpage with
          | go _ pageKey hnil =>
            cases hnil
            obtain ⟨_, rfl⟩ := hset homeKey (by decide)
            obtain ⟨_, rfl⟩ := hset drawerKey (by decide)
            obtain rfl := hunset drawerParent (by decide)
            obtain rfl := hunset pageKey (by decide)
            exact ⟨_, _, _, _, _, rfl⟩

end TypedRoutes.Emission
