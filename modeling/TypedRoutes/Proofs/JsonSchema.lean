import TypedRoutes.Json.Schema
import TypedRoutes.Proofs.JsonRecord

/-!
# Types and annotations in JSON: reading what was written

* `TypeRef.members`, `Parameter.members` : the members of a record, with those that its JSON form
  leaves out;
* `TypeRef.ofJson?_abridged`, `Parameter.ofJson?_abridged`, … : an abridged form of a record is read
  as the record;
* `Catalog.ofList_types` : a catalog is made again of its types in order;
* `TypeRef.toJson_isNumberless`, … : there are no numbers in the form of a record.
-/

namespace TypedRoutes

open Json

/-! ## References to types -/

namespace TypeRef

theorem toJsons_eq_map (ts : List TypeRef) : toJsons ts = ts.map toJson := by
  induction ts with
  | nil => rfl
  | cons t ts ih => rw [toJsons, ih, List.map_cons]

mutual

theorem toJson_isNumberless : ∀ t : TypeRef, t.toJson.isNumberless = true
  | ⟨_, [], _⟩ => rfl
  | ⟨_, t :: ts, _⟩ => by
    have h : areNumberless (toJsons (t :: ts)) = true := toJsons_areNumberless (t :: ts)
    simpa [toJson, isNumberless, membersNumberless] using h

theorem toJsons_areNumberless : ∀ ts : List TypeRef, areNumberless (toJsons ts) = true
  | [] => rfl
  | t :: ts => Bool.and_eq_true_iff.2 ⟨t.toJson_isNumberless, toJsons_areNumberless ts⟩

end

/-- The members of a type, with an empty list of arguments. -/
def members (t : TypeRef) : Fields :=
  [("name", .string t.name), ("args", .array (t.args.map toJson)), ("nullable", .bool t.nullable)]

theorem members_nodup (t : TypeRef) : (t.members.map Prod.fst).Nodup := by
  simp [members]

theorem abridged_members {t : TypeRef} {k : Json} (h : Abridged t.toJson k) :
    ∃ ns, k = .object ns ∧ AbridgedMembers t.members ns := by
  obtain ⟨name, args, nullable⟩ := t
  rw [toJson, toJsons_eq_map] at h
  cases h with
  | leaf hleaf => cases hleaf
  | @object _ ns h =>
    refine ⟨ns, rfl, ?_⟩
    cases args with
    | nil => exact .restore [("name", .string name)] rfl h
    | cons t ts => exact h

/-- An abridged form of a type is read as the type. The bound on the nesting goes down with the
depth of what is read. -/
theorem ofJsonWithin_abridged (n : Nat) : ∀ {t : TypeRef} {k : Json}, Abridged t.toJson k →
    k.depth < n → ofJsonWithin n k = some t := by
  induction n with
  | zero => intro t k _ hn; exact absurd hn (Nat.not_lt_zero _)
  | succ n ih =>
    intro t k h hn
    obtain ⟨ns, rfl, hns⟩ := abridged_members h
    have hdepth : depthMembers ns < n := Nat.lt_of_succ_lt_succ hn
    have hfields : fields ["name", "args", "nullable"] false (.object ns) = some ns :=
      fields_abridged false hns t.members_nodup (by simp [members])
    have hname : Fields.get ns "name" asString = some t.name :=
      get_string hns t.members_nodup (by simp [members])
    have hargs : Fields.getOr ns "args" (asList (ofJsonWithin n)) [] = some t.args :=
      getOr_list hns t.members_nodup (by simp only [members]; simp)
        fun t' _ i hi ht' => ih ht' (Nat.lt_trans hi hdepth)
    have hnullable : Fields.getOr ns "nullable" asBool false = some t.nullable :=
      getOr_bool hns t.members_nodup (by simp [members])
    simp only [ofJsonWithin, hfields, hname, hargs, hnullable, Option.bind_eq_bind, Option.bind_some]
    cases t
    rfl

theorem ofJson?_abridged {t : TypeRef} {k : Json} (h : Abridged t.toJson k) :
    ofJson? k = some t :=
  ofJsonWithin_abridged _ h (Nat.lt_succ_self _)

theorem toJson_isUnset (t : TypeRef) : t.toJson.isUnset = false := by
  cases t
  rfl

end TypeRef

/-! ## Constructors and fields -/

namespace Parameter

theorem toJson_isNumberless (p : Parameter) : p.toJson.isNumberless = true := by
  have htype := p.type.toJson_isNumberless
  cases hdefault : p.default? with
  | none => simp [toJson, hdefault, isNumberless, membersNumberless, htype]
  | some e => simp [toJson, hdefault, isNumberless, membersNumberless, htype]

/-- The members of a parameter, with a default that is absent. -/
def members (p : Parameter) : Fields :=
  [("name", .string p.name), ("type", p.type.toJson), ("positional", .bool p.positional),
    ("named", .bool p.named), ("required", .bool p.required),
    ("default_value", ofOption .string p.default?)]

theorem members_nodup (p : Parameter) : (p.members.map Prod.fst).Nodup := by
  simp [members]

theorem abridged_members {p : Parameter} {k : Json} (h : Abridged p.toJson k) :
    ∃ ns, k = .object ns ∧ AbridgedMembers p.members ns := by
  obtain ⟨name, type, positional, named, required, default?⟩ := p
  cases h with
  | leaf hleaf => cases hleaf
  | @object _ ns h =>
    refine ⟨ns, rfl, ?_⟩
    cases default? with
    | none =>
      exact .restore [("name", .string name), ("type", type.toJson),
        ("positional", .bool positional), ("named", .bool named), ("required", .bool required)]
        rfl h
    | some e => exact h

/-- An abridged form of a parameter is read as the parameter. -/
theorem ofJson?_abridged {p : Parameter} {k : Json} (h : Abridged p.toJson k) :
    ofJson? k = some p := by
  obtain ⟨ns, rfl, hns⟩ := abridged_members h
  have hfields : fields ["name", "type", "positional", "named", "required", "default_value"] false
      (.object ns) = some ns := fields_abridged false hns p.members_nodup (by simp [members])
  have hname : Fields.get ns "name" asString = some p.name :=
    get_string hns p.members_nodup (by simp [members])
  have htype : Fields.get ns "type" TypeRef.ofJson? = some p.type :=
    get_abridged hns p.members_nodup (by simp [members]) p.type.toJson_isUnset fun _ =>
      TypeRef.ofJson?_abridged
  have hpositional : Fields.getOr ns "positional" asBool false = some p.positional :=
    getOr_bool hns p.members_nodup (by simp [members])
  have hnamed : Fields.getOr ns "named" asBool false = some p.named :=
    getOr_bool hns p.members_nodup (by simp [members])
  have hrequired : Fields.getOr ns "required" asBool false = some p.required :=
    getOr_bool hns p.members_nodup (by simp [members])
  have hdefault : Fields.getOr ns "default_value" (asNullable asString) none = some p.default? :=
    getOr_nullable hns p.members_nodup (by simp [members])
  simp only [ofJson?, hfields, hname, htype, hpositional, hnamed, hrequired, hdefault,
    Option.bind_eq_bind, Option.bind_some]
  rfl

end Parameter

namespace Field

theorem toJson_isNumberless (f : Field) : f.toJson.isNumberless = true := by
  simp [toJson, isNumberless, membersNumberless, f.type.toJson_isNumberless]

/-- An abridged form of a field is read as the field. -/
theorem ofJson?_abridged {f : Field} {k : Json} (h : Abridged f.toJson k) : ofJson? k = some f := by
  cases h with
  | leaf hleaf => cases hleaf
  | @object _ ns h =>
    have hnodup : ([("name", Json.string f.name), ("type", f.type.toJson)].map Prod.fst).Nodup := by
      simp
    have hfields : fields ["name", "type"] false (.object ns) = some ns :=
      fields_abridged false h hnodup (by simp)
    have hname : Fields.get ns "name" asString = some f.name := get_string h hnodup (by simp)
    have htype : Fields.get ns "type" TypeRef.ofJson? = some f.type :=
      get_abridged h hnodup (by simp) f.type.toJson_isUnset fun _ => TypeRef.ofJson?_abridged
    simp only [ofJson?, hfields, hname, htype, Option.bind_eq_bind, Option.bind_some]
    rfl

end Field

/-! ## Described types -/

namespace TypeInfo

theorem toJson_isNumberless (t : TypeInfo) : t.toJson.isNumberless = true := by
  obtain ⟨name, shape⟩ := t
  cases shape with
  | record constructor own constants =>
    simp [toJson, isNumberless, membersNumberless,
      areNumberless_map Parameter.toJson_isNumberless, areNumberless_map Field.toJson_isNumberless]
  | enumeration members =>
    have hmembers : areNumberless (members.map Json.string) = true :=
      areNumberless_map (fun _ => rfl) members
    simp [toJson, isNumberless, membersNumberless, hmembers]

theorem shapeOfJson?_record {constructor : List Parameter} {own constants : List Field}
    {ns : Fields}
    (h : AbridgedMembers [("constructor", .array (constructor.map Parameter.toJson)),
      ("fields", .array (own.map Field.toJson)),
      ("static_fields", .array (constants.map Field.toJson))] ns) :
    shapeOfJson? (.string "struct") (.object ns) = some (.record constructor own constants) := by
  have htag : tagName ["struct", "enum"] true (.string "struct") = some "struct" := rfl
  have hfields : fields ["constructor", "fields", "static_fields"] false (.object ns) = some ns :=
    fields_abridged false h (by simp) (by simp)
  have hconstructor :
      Fields.getOr ns "constructor" (asList Parameter.ofJson?) [] = some constructor :=
    getOr_list h (by simp) (by simp) fun _ _ _ _ => Parameter.ofJson?_abridged
  have hown : Fields.getOr ns "fields" (asList Field.ofJson?) [] = some own :=
    getOr_list h (by simp) (by simp) fun _ _ _ _ => Field.ofJson?_abridged
  have hconstants : Fields.getOr ns "static_fields" (asList Field.ofJson?) [] = some constants :=
    getOr_list h (by simp) (by simp) fun _ _ _ _ => Field.ofJson?_abridged
  simp only [shapeOfJson?, htag, hfields, hconstructor, hown, hconstants, Option.bind_eq_bind,
    Option.bind_some]
  rfl

theorem shapeOfJson?_enumeration {members : List String} {ns : Fields}
    (h : AbridgedMembers [("members", .array (members.map .string))] ns) :
    shapeOfJson? (.string "enum") (.object ns) = some (.enumeration members) := by
  have htag : tagName ["struct", "enum"] true (.string "enum") = some "enum" := rfl
  have hfields : fields ["members"] false (.object ns) = some ns :=
    fields_abridged false h (by simp) (by simp)
  have hmembers : Fields.getOr ns "members" (asList asString) [] = some members :=
    getOr_list h (by simp) (by simp) fun _ _ _ _ => asString_abridged
  simp only [shapeOfJson?, htag, hfields, hmembers, Option.bind_eq_bind, Option.bind_some]
  rfl

/-- A type is read from its name, its tag and its other members. -/
theorem ofJson?_members {name tag : String} {shape : Shape} {ms ns : Fields}
    (h : AbridgedMembers ms ns) (hnodup : ("name" :: "kind" :: ms.map Prod.fst).Nodup)
    (hshape : shapeOfJson? (.string tag) (.object ns) = some shape) :
    ofJson? (.object (("name", .string name) :: ("kind", .string tag) :: ns)) =
      some ⟨name, shape⟩ := by
  have hkeep : AbridgedMembers (("kind", .string tag) :: ms) (("kind", .string tag) :: ns) :=
    .keep (.leaf rfl) h
  have hfields := fields_head (.string name) hkeep hnodup
  have hfilter : (("name", Json.string name) :: ("kind", Json.string tag) :: ns).filter
      (fun m => m.1 ≠ "name") = ("kind", .string tag) :: ns := by
    rw [List.filter_cons_of_neg (by simp), filter_key_ne hkeep (List.nodup_cons.1 hnodup).1]
  have htagged := tagged_abridged (.string tag) h (List.nodup_cons.1 hnodup).2
  have hname : Fields.get [("name", Json.string name)] "name" asString = some name := rfl
  simp only [ofJson?, hfields, hfilter, htagged, hname, hshape, Option.bind_eq_bind,
    Option.bind_some]
  rfl

/-- An abridged form of a described type is read as the type. -/
theorem ofJson?_abridged {t : TypeInfo} {k : Json} (h : Abridged t.toJson k) :
    ofJson? k = some t := by
  obtain ⟨name, shape⟩ := t
  cases h with
  | leaf hleaf => cases hleaf
  | object hname =>
    obtain ⟨_, rfl, hkind⟩ := hname.cons_string
    cases shape with
    | record constructor own constants =>
      obtain ⟨ns, rfl, hrest⟩ := hkind.cons_string
      exact ofJson?_members hrest (by simp) (shapeOfJson?_record hrest)
    | enumeration members =>
      obtain ⟨ns, rfl, hrest⟩ := hkind.cons_string
      exact ofJson?_members hrest (by simp) (shapeOfJson?_enumeration hrest)

end TypeInfo

/-! ## Catalogs -/

namespace Catalog

theorem toJson_isNumberless (c : Catalog) : c.toJson.isNumberless = true :=
  areNumberless_map TypeInfo.toJson_isNumberless c.types

/-- A type whose name comes behind all others is put behind them. -/
theorem insertAscending_last {t : TypeInfo} {ts : List TypeInfo} (h : ∀ u ∈ ts, u.name < t.name) :
    insertAscending t ts = ts ++ [t] := by
  induction ts with
  | nil => rfl
  | cons u ts ih =>
    have hu : u.name < t.name := h u List.mem_cons_self
    rw [insertAscending, if_neg (String.lt_asymm hu), if_neg (String.ne_of_lt hu).symm,
      ih fun v hv => h v (.tail u hv)]
    rfl

theorem types_foldl_insert (ts : List TypeInfo) (c : Catalog)
    (h : (c.types ++ ts).Pairwise fun a b => a.name < b.name) :
    (ts.foldl insert c).types = c.types ++ ts := by
  induction ts generalizing c with
  | nil => exact (List.append_nil _).symm
  | cons t ts ih =>
    have hlast : ∀ u ∈ c.types, u.name < t.name := fun u hu =>
      (List.pairwise_append.1 h).2.2 u hu t List.mem_cons_self
    have htypes : (c.insert t).types = c.types ++ [t] := insertAscending_last hlast
    have happend : (c.insert t).types ++ ts = c.types ++ t :: ts := by
      rw [htypes, List.append_assoc, List.singleton_append]
    rw [List.foldl_cons, ih _ (happend ▸ h), happend]

/-- A catalog is made again of its types in order. -/
theorem ofList_types (c : Catalog) : ofList c.types = c := by
  have h : (ofList c.types).types = c.types := types_foldl_insert c.types empty c.ascending
  cases c
  cases hlist : ofList _ with
  | mk types ascending =>
    rw [hlist] at h
    cases h
    rfl

theorem ofJson?_abridged {c : Catalog} {k : Json} (h : Abridged c.toJson k) :
    ofJson? k = some c := by
  have hread : asList TypeInfo.ofJson? k = some c.types :=
    asList_abridged h fun _ _ _ _ => TypeInfo.ofJson?_abridged
  rw [ofJson?, hread, Option.map_some, ofList_types]

end Catalog

/-! ## Annotations -/

namespace Annotation

theorem toJsons_eq_map (as : List Annotation) : toJsons as = as.map toJson := by
  induction as with
  | nil => rfl
  | cons a as ih => rw [toJsons, ih, List.map_cons]

theorem ofOption_isNumberless (o : Option String) : (ofOption .string o).isNumberless = true := by
  cases o <;> rfl

mutual

theorem toJson_isNumberless : ∀ a : Annotation, a.toJson.isNumberless = true
  | go _ path name routes => by
    simp [toJson, isNumberless, membersNumberless, ofOption_isNumberless,
      toJsons_areNumberless routes]
  | shell _ routes => by
    simp [toJson, isNumberless, membersNumberless, toJsons_areNumberless routes]

theorem toJsons_areNumberless : ∀ as : List Annotation, areNumberless (toJsons as) = true
  | [] => rfl
  | a :: as => Bool.and_eq_true_iff.2 ⟨a.toJson_isNumberless, toJsons_areNumberless as⟩

end

/-- An abridged record with its kind in front is a tag and an abridged record, which is less deep. -/
theorem exists_kind {kind : String} {ms : List (String × Json)} {k : Json}
    (h : Abridged (.object (("kind", .string kind) :: ms)) k)
    (hnodup : ("kind" :: ms.map Prod.fst).Nodup) :
    ∃ ns, AbridgedMembers ms ns ∧ depthMembers ns < k.depth ∧
      tagged "kind" k = some (.string kind, .object ns) := by
  cases h with
  | leaf hleaf => cases hleaf
  | object hkind =>
    obtain ⟨ns, rfl, hns⟩ := hkind.cons_string
    exact ⟨ns, hns, Nat.lt_succ_of_le (Nat.le_max_right _ _), tagged_abridged _ hns hnodup⟩

section Within

variable {n : Nat} {type : String} {routes : List Annotation} {k : Json} (nested : Bool)
  (hread : ∀ a ∈ routes, ∀ i : Json, i.depth < n → Abridged a.toJson i →
    ofJsonWithin n true i = some a)
  (hn : k.depth < n + 1)

include hread hn

theorem ofJsonWithin_go {path name : Option String}
    (h : Abridged (go type path name routes).toJson k) :
    ofJsonWithin (n + 1) nested k = some (go type path name routes) := by
  rw [toJson, toJsons_eq_map] at h
  obtain ⟨ns, hns, hdepth, htagged⟩ := exists_kind h (by simp)
  have htag : tagName ["go_route", "shell_route"] nested (.string "go_route") =
      some "go_route" := rfl
  have hfields : fields ["type", "path", "name", "routes"] false (.object ns) = some ns :=
    fields_abridged false hns (by simp) (by simp)
  have htype : Fields.get ns "type" asString = some type :=
    get_string hns (by simp) (by simp)
  have hpath : Fields.getOr ns "path" (asNullable asString) none = some path :=
    getOr_nullable hns (by simp) (by simp)
  have hname : Fields.getOr ns "name" (asNullable asString) none = some name :=
    getOr_nullable hns (by simp) (by simp)
  have hroutes : Fields.getOr ns "routes" (asList (ofJsonWithin n true)) [] = some routes :=
    getOr_list hns (by simp) (by simp) fun a ha i hi => hread a ha i (by omega)
  simp only [ofJsonWithin, htagged, htag, hfields, htype, hpath, hname, hroutes,
    Option.bind_eq_bind, Option.bind_some]
  rfl

theorem ofJsonWithin_shell (h : Abridged (shell type routes).toJson k) :
    ofJsonWithin (n + 1) nested k = some (shell type routes) := by
  rw [toJson, toJsons_eq_map] at h
  obtain ⟨ns, hns, hdepth, htagged⟩ := exists_kind h (by simp)
  have htag : tagName ["go_route", "shell_route"] nested (.string "shell_route") =
      some "shell_route" := rfl
  have hfields : fields ["type", "routes"] false (.object ns) = some ns :=
    fields_abridged false hns (by simp) (by simp)
  have htype : Fields.get ns "type" asString = some type :=
    get_string hns (by simp) (by simp)
  have hroutes : Fields.getOr ns "routes" (asList (ofJsonWithin n true)) [] = some routes :=
    getOr_list hns (by simp) (by simp) fun a ha i hi => hread a ha i (by omega)
  simp only [ofJsonWithin, htagged, htag, hfields, htype, hroutes, Option.bind_eq_bind,
    Option.bind_some]
  rfl

end Within

/-- An abridged form of an annotation is read as the annotation. -/
theorem ofJsonWithin_abridged (n : Nat) : ∀ {a : Annotation} {k : Json} (nested : Bool),
    Abridged a.toJson k → k.depth < n → ofJsonWithin n nested k = some a := by
  induction n with
  | zero => intro a k _ _ hn; exact absurd hn (Nat.not_lt_zero _)
  | succ n ih =>
    intro a k nested h hn
    cases a with
    | go type path name routes =>
      exact ofJsonWithin_go nested (fun a _ i hi ha => ih true ha hi) hn h
    | shell type routes =>
      exact ofJsonWithin_shell nested (fun a _ i hi ha => ih true ha hi) hn h

theorem ofJson?_abridged {a : Annotation} {k : Json} (h : Abridged a.toJson k) :
    ofJson? k = some a :=
  ofJsonWithin_abridged _ false h (Nat.lt_succ_self _)

theorem toJson_isUnset (a : Annotation) : a.toJson.isUnset = false := by
  cases a <;> rfl

end Annotation

namespace Declaration

theorem toJson_isNumberless (d : Declaration) : d.toJson.isNumberless = true := by
  simp [toJson, isNumberless, membersNumberless, d.annotation.toJson_isNumberless]

/-- An abridged form of a declaration is read as the declaration. -/
theorem ofJson?_abridged {d : Declaration} {k : Json} (h : Abridged d.toJson k) :
    ofJson? k = some d := by
  cases h with
  | leaf hleaf => cases hleaf
  | @object _ ns h =>
    have hnodup : ([("type_name", Json.string d.type),
        ("annotation", d.annotation.toJson)].map Prod.fst).Nodup := by simp
    have hfields : fields fieldNames false (.object ns) = some ns :=
      fields_abridged false h hnodup (by simp [fieldNames])
    have htype : Fields.get ns "type_name" asString = some d.type :=
      get_string h hnodup (by simp)
    have hannotation : Fields.get ns "annotation" Annotation.ofJson? = some d.annotation :=
      get_abridged h hnodup (by simp) d.annotation.toJson_isUnset fun _ =>
        Annotation.ofJson?_abridged
    simp only [ofJson?, hfields, htype, hannotation, Option.bind_eq_bind, Option.bind_some]
    rfl

end Declaration

end TypedRoutes
