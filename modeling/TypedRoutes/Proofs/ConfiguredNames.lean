import TypedRoutes.Proofs.Classification
import TypedRoutes.Proofs.Getter
import TypedRoutes.Proofs.Inherited
import TypedRoutes.Proofs.PlainName

/-!
# Names from the settings in emitted code

* `Settings.check_eq_ok` : what checked settings have;
* `identifier_eq_of_plain` : which plain names are identifiers in emitted code;
* `ReportsReserved` : a computation reports the first reserved word under which a type declares a
  navigator; `nodeBuilder_reports` : so does the builder of a route;
* `payloadCode_eq_error`, `readLocal_eq_error` : the name of the payload is never at fault;
* `EmitsNames`, `checked_names` : all of this for checked settings and every route of a tree.
-/

namespace TypedRoutes

open Text (isPlainIdentifier)

/-! ## Plain names as identifiers -/

namespace Emission

variable {name : String}

/-- A plain name is an identifier unless the language has another use for it. -/
theorem identifier_eq_of_plain (h : isPlainIdentifier name = true) (place : Place) :
    identifier place name =
      if Syntax.isIdentifier name then .ok name else .error ⟨.badIdentifier name, place⟩ := by
  unfold identifier
  rw [Syntax.parseIdent_eq_of_plain h]
  cases Syntax.isIdentifier name <;> rfl

theorem identifier_of_usable (h : isUsableName name = true) (place : Place) :
    identifier place name = .ok name := by
  obtain ⟨hplain, hident⟩ := isUsableName_iff.1 h
  rw [identifier_eq_of_plain hplain, if_pos hident]

end Emission

namespace Settings

variable {s : Settings}

/-- The check asks for a path and for plain names, whether reserved or not. -/
theorem check_eq_ok :
    s.check = .ok () ↔ (Syntax.parsePath s.runtimePath).isSome = true ∧
      ∀ name ∈ s.identifiers.map Prod.snd, isPlainIdentifier name = true := by
  rw [List.forall_mem_map]
  unfold check
  split
  · next hpath => simp [Option.isNone_iff_eq_none.1 hpath]
  · next hpath =>
    have hsome : (Syntax.parsePath s.runtimePath).isSome = true := by
      rwa [Bool.not_eq_true, Option.isNone_eq_false_iff] at hpath
    rw [and_iff_right hsome]
    split
    · next f v hfind =>
      have hbad := List.find?_some hfind
      refine ⟨by simp, fun h => ?_⟩
      simp [h (f, v) (List.mem_of_find?_eq_some hfind)] at hbad
    · next hnone => simpa using hnone

end Settings

/-! ## Navigators -/

/-- Whether a type declares a navigator under a reserved word. -/
def Catalog.hasReservedKey (catalog : Catalog) (s : Settings) (type field : String) : Bool :=
  catalog.hasKey s type field && !Syntax.isIdentifier field

/-- The settings under which a route's type may declare navigators of its own: a shell's is first. -/
def Node.keyFields (s : Settings) (n : Node) : List String :=
  if n.isShell then [s.navigatorKeyField, s.parentNavigatorKeyField]
  else [s.parentNavigatorKeyField]

namespace Emission

open Syntax Code

/-- A computation reports the first of some settings that is a reserved word under which a type
declares a navigator, and has a value if there is none. -/
def ReportsReserved {α : Type} (catalog : Catalog) (s : Settings) (type : String) (place : Place)
    (fields : List String) (x : Except Failure α) : Prop :=
  match fields.find? (catalog.hasReservedKey s type) with
  | some field => x = .error ⟨.badIdentifier field, place.parameter field⟩
  | none => ∃ a, x = .ok a

section Keys

variable {α β : Type} {catalog : Catalog} {s : Settings} {place : Place} {owner : Code}
  {type field : String} {fields : List String} {key? inherited? : Option KeyBinding}

theorem ReportsReserved.pure (a : α) :
    ReportsReserved catalog s type place [] (pure a : Except Failure α) :=
  ⟨a, rfl⟩

/-- A step that reports one setting goes in front of steps that report others. -/
theorem ReportsReserved.bind {x : Except Failure α} {f : α → Except Failure β}
    (hx : ReportsReserved catalog s type place [field] x)
    (hf : ∀ a, ReportsReserved catalog s type place fields (f a)) :
    ReportsReserved catalog s type place (field :: fields) (x >>= f) := by
  unfold ReportsReserved at hx ⊢
  rw [List.find?_singleton] at hx
  split at hx
  · next hreserved =>
    split at hreserved
    · next hfield =>
      obtain rfl := Option.some.inj hreserved
      rw [List.find?_cons_of_pos hfield, hx]
      rfl
    · cases hreserved
  · next hunreserved =>
    split at hunreserved
    · cases hunreserved
    · next hfield =>
      obtain ⟨a, rfl⟩ := hx
      rw [List.find?_cons_of_neg hfield]
      exact hf a

/-- The name of a declared navigator is at fault just if it is a reserved word. What is taken over
from a route above is not written, so its name cannot be at fault here. -/
theorem ownKeyCode_reports (place : Place) (htype : typePath place type = .ok owner)
    (hplain : isPlainIdentifier field = true)
    (hkey : key? = if catalog.hasKey s type field then some ⟨type, field, false⟩ else inherited?)
    (hinherited : ∀ key, inherited? = some key → key.inherited = true) :
    ReportsReserved catalog s type place [field] (ownKeyCode place key?) := by
  subst hkey
  unfold ReportsReserved
  rw [List.find?_singleton, Catalog.hasReservedKey]
  cases hown : catalog.hasKey s type field with
  | false =>
    have hnone : inherited?.filter (!·.inherited) = none := by
      cases inherited? with
      | none => rfl
      | some key => simp [hinherited key rfl]
    exact ⟨none, by rw [if_neg Bool.false_ne_true, ownKeyCode, hnone]⟩
  | true =>
    have hcode : ownKeyCode place (some ⟨type, field, false⟩) =
        identifier (place.parameter field) field >>= fun name =>
          Pure.pure (some (member owner name)) := by
      have howner : typePath (place.parameter field) type = .ok owner := typePath_elsewhere _ htype
      show (typePath (place.parameter field) type >>= _) = _
      rw [howner]
      rfl
    rw [if_pos rfl, hcode, identifier_eq_of_plain hplain]
    cases isIdentifier field with
    | false => rfl
    | true => exact ⟨_, rfl⟩

end Keys

section Builders

variable {catalog : Catalog} {s : Settings} {d : Declaration} {t : RouteTree} {n : Node}
  {place : Place} {owner : Code}

/-- The builder of a route reports the first reserved word under which the route's type declares a
navigator, and is made if there is none. -/
theorem nodeBuilder_reports (hs : s.check = .ok ())
    (ht : RouteTree.ofDeclaration catalog s d = .ok t) (hn : n ∈ t.nodes)
    (htype : typePath place n.type = .ok owner) :
    ReportsReserved catalog s n.type place (n.keyFields s) (nodeBuilder place n) := by
  obtain ⟨above, hc⟩ := RouteTree.exists_chain hn
  obtain ⟨hparent, hown⟩ := parentKey_chain ht hc
  have hinherited : ∀ key, above.reverse.findSome? (Node.contributed? catalog s) = some key →
      key.inherited = true := fun key hkey => by
    obtain ⟨m, -, hm⟩ := List.exists_of_findSome?_eq_some hkey
    exact inherited_contributed? hm
  have hnames := (Settings.check_eq_ok.1 hs).2
  have hparentCode := ownKeyCode_reports place htype
    (hnames s.parentNavigatorKeyField (by simp [Settings.identifiers])) hparent hinherited
  cases hrole : n.role with
  | leaf path name? template =>
    have hbuilder : nodeBuilder place n = ownKeyCode place n.parentKey? >>= fun parent? => pure
        (((Builder.go path owner).with? .name name?).with? .parentNavigatorKey parent?) := by
      unfold nodeBuilder
      rw [htype, hrole]
      rfl
    rw [hbuilder, Node.keyFields, Node.isShell, hrole, if_neg Bool.false_ne_true]
    exact hparentCode.bind fun _ => .pure _
  | shell key? =>
    have hbuilder : nodeBuilder place n = ownKeyCode place key? >>= fun own? =>
        ownKeyCode place n.parentKey? >>= fun parent? => pure
          (((Builder.shell owner).with? .navigatorKey own?).with? .parentNavigatorKey parent?) := by
      unfold nodeBuilder
      rw [htype, hrole]
      rfl
    have hownCode := ownKeyCode_reports place htype
      (hnames s.navigatorKeyField (by simp [Settings.identifiers])) (hown key? hrole) (by simp)
    rw [hbuilder, Node.keyFields, Node.isShell, hrole, if_pos rfl]
    exact hownCode.bind fun _ => hparentCode.bind fun _ => .pure _

end Builders

/-! ## The payload -/

section Payload

variable {place : Place} {n : Node} {b : Binding} {tg : Target} {failure : Failure}

theorem backingField_eq_error {name : String} :
    backingField place n name = .error failure ↔
      n.field? name = none ∧ failure = ⟨.fieldMissing n.type name, place⟩ := by
  unfold backingField
  cases n.field? name <;> simp [eq_comm]

/-- The payload is read unless its type cannot be written. -/
theorem readLocal_eq_error (hname : isUsableName b.name = true) (hb : b.carrier = .payload) :
    readLocal tg place b = .error failure ↔
      typeCode (place.parameter b.name) b.type.nonNullable = .error failure := by
  unfold readLocal
  dsimp only
  rw [identifier_of_usable hname, readBinding, hb]
  cases htype : typeCode (place.parameter b.name) b.type.nonNullable with
  | error f => simp [Bind.bind, Except.bind]
  | ok type => simp [Bind.bind, Except.bind, Pure.pure, Except.pure]

/-- The payload is handed to the navigator unless no field backs it. -/
theorem payloadCode_eq_error (hname : ∀ b ∈ n.bindings, isUsableName b.name = true) :
    payloadCode place n = .error failure ↔
      ∃ b, Bindings.payload? n.bindings = some b ∧ n.field? b.name = none ∧
        failure = ⟨.fieldMissing n.type b.name, place.parameter b.name⟩ := by
  unfold payloadCode
  cases hpayload : Bindings.payload? n.bindings with
  | none => simp
  | some b =>
    have hb : b ∈ n.bindings := (List.mem_filter.1 (List.mem_of_head? hpayload)).1
    dsimp only
    rw [bind_eq_error, backingField_eq_error, identifier_of_usable (hname b hb)]
    simp

end Payload

/-! ## All names -/

/-- What becomes of the names from settings when a route is emitted: a reserved word is refused where a
navigator is declared under it, and nowhere else. -/
structure EmitsNames (catalog : Catalog) (s : Settings) (n : Node) : Prop where
  unnamed : ∀ place failure, typePath place n.type = .error failure →
    nodeBuilder place n = .error failure
  named : ∀ place owner, typePath place n.type = .ok owner →
    ReportsReserved catalog s n.type place (n.keyFields s) (nodeBuilder place n)
  payload : ∀ b ∈ n.bindings, b.carrier = .payload ↔ b.name = s.payloadField
  payload_read : ∀ tg place, ∀ b ∈ n.bindings, b.carrier = .payload → ∀ failure,
    readLocal tg place b = .error failure ↔
      typeCode (place.parameter b.name) b.type.nonNullable = .error failure
  payload_written : ∀ place failure, payloadCode place n = .error failure ↔
    ∃ b, Bindings.payload? n.bindings = some b ∧ n.field? b.name = none ∧
      failure = ⟨.fieldMissing n.type b.name, place.parameter b.name⟩

theorem emitsNames_of_mem_nodes {catalog : Catalog} {s : Settings} {d : Declaration} {t : RouteTree}
    {n : Node} (hs : s.check = .ok ()) (ht : RouteTree.ofDeclaration catalog s d = .ok t)
    (hn : n ∈ t.nodes) : EmitsNames catalog s n := by
  obtain ⟨above, hc⟩ := RouteTree.exists_chain hn
  obtain ⟨ps, template?, -, -, hbindings, -⟩ := readAlong_chain ht hc above n List.prefix_rfl
  constructor
  case unnamed =>
    intro place failure htype
    unfold nodeBuilder
    rw [htype]
    rfl
  case named => exact fun place owner htype => nodeBuilder_reports hs ht hn htype
  case payload => exact (classified_of_bindAll hbindings).isPayload
  case payload_read =>
    exact fun tg place b hb hpayload failure =>
      readLocal_eq_error (isUsableName_of_bindAll hbindings b hb) hpayload
  case payload_written =>
    exact fun place failure => payloadCode_eq_error (isUsableName_of_bindAll hbindings)

/-- The names of checked settings are identifiers unless they are reserved words, and for every route of
a tree only the name of a declared navigator can be at fault, not that of the payload. -/
theorem checked_names {s : Settings} (hs : s.check = .ok ()) :
    (∀ name ∈ s.identifiers.map Prod.snd, ∀ place, identifier place name =
      if isIdentifier name then .ok name else .error ⟨.badIdentifier name, place⟩) ∧
    ∀ {catalog : Catalog} {d : Declaration} {t : RouteTree},
      RouteTree.ofDeclaration catalog s d = .ok t → ∀ n ∈ t.nodes, EmitsNames catalog s n :=
  ⟨fun name hname => identifier_eq_of_plain ((Settings.check_eq_ok.1 hs).2 name hname),
    fun ht _ hn => emitsNames_of_mem_nodes hs ht hn⟩

/-! ### A navigator called `type` -/

def typeSettings : Settings where
  navigatorKeyField := "type"

def typeCatalog : Catalog :=
  .ofList [(TypeInfo.routeData "A" []).withConstant (keyField "type")]

def typeNode : Node where
  type := "A"
  role := .shell (some ⟨"A", "type", false⟩)
  parentKey? := none
  bindings := []
  fields := []

theorem ofDeclaration_type :
    RouteTree.ofDeclaration typeCatalog typeSettings ⟨"A", .shell "A" []⟩ = .ok (.node typeNode []) := by
  rfl

/-- The settings pass their check, and no builder is made for the shell. -/
theorem checked_names_type :
    typeSettings.check = .ok () ∧ ∀ place,
      nodeBuilder place typeNode = .error ⟨.badIdentifier "type", place.parameter "type"⟩ := by
  have hcheck : typeSettings.check = .ok () :=
    Settings.check_eq_ok.2 ⟨by decide, by decide⟩
  refine ⟨hcheck, fun place => ?_⟩
  have hemits := (checked_names hcheck).2 ofDeclaration_type typeNode (List.mem_singleton_self _)
  have hpath : (typePath default typeNode.type).toOption.isSome = true := by decide
  obtain ⟨owner, howner⟩ := Option.isSome_iff_exists.1 hpath
  have hfield : (typeNode.keyFields typeSettings).find?
      (typeCatalog.hasReservedKey typeSettings typeNode.type) = some "type" := by
    decide
  have hbuilder := hemits.named place owner (typePath_elsewhere _ (toOption_eq_some.1 howner))
  rwa [ReportsReserved, hfield] at hbuilder

end Emission

end TypedRoutes
