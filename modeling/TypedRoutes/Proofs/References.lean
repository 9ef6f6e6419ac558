import TypedRoutes.Proofs.Blocks
import TypedRoutes.Proofs.Mention

/-!
# What the functions of a route refer to

* `Employs` : the codecs through which the functions of a route read and write;
* `tableName_of_enumName?` : a type and the enumeration that it names have one table;
* `Employs.exists_enumeration`, `exists_employs_of_mem_enumsOf` : a route looks up just the tables of
  the enumerations it carries;
* `mentions_routeCode` : the code of a route has the names that its codecs have.
-/

namespace TypedRoutes

/-! ## Names of tables -/

theorem beforeColons_beforeColons (cs : List Char) :
    beforeColons (beforeColons cs) = beforeColons cs := by
  fun_induction beforeColons cs with
  | case1 => rfl
  | case2 c rest hcolons ih =>
    have hhead : c = ':' → ∀ r, beforeColons rest ≠ ':' :: r := by
      rintro rfl r hr
      cases rest with
      | nil => cases hr
      | cons d rest =>
        by_cases hd : d = ':'
        · exact hcolons rest rfl (by rw [hd])
        · rw [beforeColons.eq_def] at hr
          split at hr <;> simp_all
    rw [beforeColons.eq_def]
    split
    · next heq =>
      obtain ⟨rfl, hr⟩ := List.cons.inj heq
      exact absurd hr (hhead rfl _)
    · next heq =>
      obtain ⟨rfl, rfl⟩ := List.cons.inj heq
      rw [ih]
    · next heq => cases heq
  | case3 => rfl

theorem lastSegment_lastSegment (path : String) : lastSegment (lastSegment path) = lastSegment path := by
  simp [lastSegment, beforeColons_beforeColons]

namespace Emission

open Syntax Code

theorem plainSegment_lastSegment (path : String) :
    plainSegment (lastSegment path) = plainSegment path := by
  unfold plainSegment
  rw [lastSegment_lastSegment]

section Enumerations

variable {catalog : Catalog} {place : Place} {t : TypeRef}

/-- A type and the enumeration that it names have one table. -/
theorem tableName_of_enumName? {e : String} (h : enumName? catalog t = some e) :
    tableName place t.name = tableName place e := by
  have hmem := List.mem_of_find?_eq_some h
  simp only [List.mem_cons, List.not_mem_nil, or_false] at hmem
  rcases hmem with rfl | rfl
  · rfl
  · unfold tableName TypeRef.simpleName
    rw [plainSegment_lastSegment]

/-- What has a codec has no arguments, and looks up the table of the enumeration that it names. -/
theorem ofType_ok {c : Codec} (h : Codec.ofType catalog place t = .ok c) :
    t.args = [] ∧
      (∀ e, enumName? catalog t = some e →
        ∃ type table, c = .enumeration type table ∧ tableName place e = .ok table) ∧
      ∀ type table, c = .enumeration type table →
        ∃ e, enumName? catalog t = some e ∧ tableName place e = .ok table := by
  have hname : enumName? catalog t.nonNullable = enumName? catalog t := rfl
  obtain ⟨name, args, nullable⟩ := t
  cases args with
  | cons a args => cases h
  | nil =>
    refine ⟨rfl, ?_⟩
    unfold Codec.ofType at h
    simp only [List.isEmpty_nil, Bool.not_true, Bool.false_eq_true, if_false, hname] at h
    cases he : enumName? catalog ⟨name, [], nullable⟩ with
    | some e =>
      simp only [he, Option.isSome_some, if_true] at h
      obtain ⟨type, htype, h⟩ := bind_eq_ok.1 h
      obtain ⟨table, htable, h⟩ := bind_eq_ok.1 h
      obtain rfl := pure_eq_ok.1 h
      have htable' : tableName place e = .ok table := tableName_of_enumName? he ▸ htable
      refine ⟨fun e' he' => ?_, fun type' table' hc => ?_⟩
      · obtain rfl := Option.some.inj he'
        exact ⟨type, table, rfl, htable'⟩
      · cases hc
        exact ⟨e, rfl, htable'⟩
    | none =>
      simp only [he, Option.isSome_none, Bool.false_eq_true, if_false] at h
      refine ⟨(fun e he' => nomatch he'), fun type table hc => ?_⟩
      subst hc
      split at h
      · cases h
      · cases h
      · obtain ⟨type', -, h⟩ := bind_eq_ok.1 h
        cases pure_eq_ok.1 h

theorem ofType_elsewhere (place' : Place) {c : Codec} (h : Codec.ofType catalog place t = .ok c) :
    Codec.ofType catalog place' t = .ok c := by
  unfold Codec.ofType at h ⊢
  split at h
  · cases h
  · next hargs =>
    rw [if_neg hargs]
    dsimp only at h ⊢
    split at h
    · next hsome =>
      rw [if_pos hsome]
      obtain ⟨type, htype, h⟩ := bind_eq_ok.1 h
      obtain ⟨table, htable, h⟩ := bind_eq_ok.1 h
      refine bind_eq_ok.2 ⟨type, typeCode_elsewhere place' htype, ?_⟩
      exact bind_eq_ok.2 ⟨table, tableName_elsewhere place' htable, h⟩
    · next hnone =>
      rw [if_neg hnone]
      split at h
      · exact h
      · exact h
      · obtain ⟨type, htype, h⟩ := bind_eq_ok.1 h
        exact bind_eq_ok.2 ⟨type, typeCode_elsewhere place' htype, h⟩

end Enumerations

/-! ## Codecs of a route -/

namespace QueryForm

/-- The codec of the values that are carried. -/
def codec : QueryForm → Codec
  | scalar codec _ _ => codec
  | list codec _ => codec

theorem codec_of_ofBinding {catalog : Catalog} {place : Place} {b : Binding} {form : QueryForm}
    (h : ofBinding catalog place b = .ok form) :
    Codec.ofType catalog place (b.type.element?.getD b.type) = .ok form.codec := by
  obtain ⟨default?, -, h⟩ := bind_eq_ok.1 h
  dsimp only at h
  split at h
  · next element helement =>
    obtain ⟨c, hc, h⟩ := bind_eq_ok.1 h
    obtain rfl := pure_eq_ok.1 h
    rwa [helement]
  · next helement =>
    obtain ⟨c, hc, h⟩ := bind_eq_ok.1 h
    obtain rfl := pure_eq_ok.1 h
    rwa [helement]

end QueryForm

/-- A codec through which the functions of a route read or write a value. A value in the path is read
as the type of its parameter and written as the type of its field. -/
inductive Employs (catalog : Catalog) (n : Node) : Codec → Prop
  | readPath {place : Place} {b : Binding} {c : Codec} (carried : b ∈ Bindings.inPath n.bindings)
      (ofType : Codec.ofType catalog place b.type = .ok c) : Employs catalog n c
  | inQuery {place : Place} {b : Binding} {form : QueryForm}
      (carried : b ∈ Bindings.inQuery n.bindings)
      (ofBinding : QueryForm.ofBinding catalog place b = .ok form) : Employs catalog n form.codec
  | writePath {place : Place} {t : PathTemplate} {name : String} {f : Field} {c : Codec}
      (template : n.template? = some t) (named : name ∈ t.names) (backing : n.field? name = some f)
      (ofType : Codec.ofType catalog place f.type = .ok c) : Employs catalog n c

theorem mem_dropRepeated {a : String} {as : List String} :
    ∀ {seen : List String}, a ∈ dropRepeated seen as ↔ a ∈ as ∧ a ∉ seen := by
  induction as with
  | nil => simp [dropRepeated]
  | cons b as ih =>
    intro seen
    rw [dropRepeated]
    by_cases hb : b ∈ seen
    · rw [if_pos hb, ih, List.mem_cons]
      constructor
      · rintro ⟨ha, hnew⟩
        exact ⟨Or.inr ha, hnew⟩
      · rintro ⟨rfl | ha, hnew⟩
        · exact absurd hb hnew
        · exact ⟨ha, hnew⟩
    · rw [if_neg hb, List.mem_cons, ih, List.mem_cons, List.mem_cons]
      by_cases hab : a = b
      · simp [hab, hb]
      · simp [hab]

section Route

variable {catalog : Catalog} {n : Node}

theorem mem_enumsOf {e : String} :
    e ∈ enumsOf catalog n ↔ ∃ t ∈ carriedTypes n, enumIn? catalog t = some e := by
  simp [enumsOf, mem_dropRepeated]

theorem mem_carriedTypes {t : TypeRef} :
    t ∈ carriedTypes n ↔
      (∃ b ∈ Bindings.inPath n.bindings, b.type = t) ∨
      (∃ b ∈ Bindings.inQuery n.bindings, b.type = t) ∨
      ∃ template, n.template? = some template ∧ ∃ name ∈ template.names, ∃ f,
        n.field? name = some f ∧ f.type = t := by
  unfold carriedTypes
  rw [List.mem_append, List.mem_append, List.mem_map, List.mem_map, or_assoc]
  cases n.template? <;> simp

theorem element?_of_ofType {place : Place} {t : TypeRef} {c : Codec}
    (h : Codec.ofType catalog place t = .ok c) : t.element? = none := by
  rw [TypeRef.element?, (ofType_ok h).1]

/-- A route employs the codecs of what it carries. -/
theorem Employs.exists_type {c : Codec} (h : Employs catalog n c) :
    ∃ t ∈ carriedTypes n, ∃ place, Codec.ofType catalog place (t.element?.getD t) = .ok c := by
  cases h with
  | @readPath place b _ hb hc =>
    refine ⟨b.type, mem_carriedTypes.2 (Or.inl ⟨b, hb, rfl⟩), place, ?_⟩
    rwa [element?_of_ofType hc]
  | @inQuery place b form hb hform =>
    exact ⟨b.type, mem_carriedTypes.2 (Or.inr (Or.inl ⟨b, hb, rfl⟩)), place,
      QueryForm.codec_of_ofBinding hform⟩
  | @writePath place t name f _ ht hname hf hc =>
    refine ⟨f.type, mem_carriedTypes.2 (Or.inr (Or.inr ⟨t, ht, name, hname, f, hf, rfl⟩)), place, ?_⟩
    rwa [element?_of_ofType hc]

/-- A table that a route looks up is that of an enumeration it carries. -/
theorem Employs.exists_enumeration {type : Code} {table : String}
    (h : Employs catalog n (.enumeration type table)) :
    ∃ e ∈ enumsOf catalog n, tableName default e = .ok table := by
  obtain ⟨t, ht, place, hc⟩ := h.exists_type
  obtain ⟨e, he, htable⟩ := (ofType_ok hc).2.2 type table rfl
  exact ⟨e, mem_enumsOf.2 ⟨t, ht, he⟩, tableName_elsewhere _ htable⟩

end Route

/-! ## Code of a route -/

section Code

variable {tg : Target} {place : Place} {n : Node} {code : Code} {name : String}

/-- The function that makes a value reads every parameter. -/
theorem readBinding_of_decodeFunction (h : decodeFunction tg place n = .ok code) {b : Binding}
    (hb : b ∈ n.bindings) :
    ∃ value, readBinding tg (place.parameter b.name) b = .ok value ∧
      ∀ name, Mentions name value → Mentions name code := by
  obtain ⟨locals, hlocals, h⟩ := bind_eq_ok.1 h
  obtain rfl := pure_eq_ok.1 h
  obtain ⟨l, hl, hread⟩ := exists_of_mapM_eq_ok hlocals b hb
  obtain ⟨i, -, hread⟩ := bind_eq_ok.1 hread
  obtain ⟨value, hvalue, hread⟩ := bind_eq_ok.1 hread
  obtain rfl := pure_eq_ok.1 hread
  refine ⟨value, hvalue, fun name hname => ?_⟩
  refine mentions_append.2 (Or.inr (mentions_publicFunction (mentions_append.2 (Or.inl ?_))))
  rw [List.flatMap_def, mentions_flatten]
  exact ⟨_, List.mem_map_of_mem hl, mentions_bind.2 (Or.inr (Or.inr hname))⟩

/-- The function that writes a location writes every parameter of the path. -/
theorem writePath_of_locationFunction {t : PathTemplate}
    (h : locationFunction tg place n t = .ok code) {parameter : String}
    (hparameter : parameter ∈ t.names) :
    ∃ statement, writePath tg place n parameter = .ok statement ∧
      ∀ name, Mentions name statement → Mentions name code := by
  obtain ⟨paths, hpaths, h⟩ := bind_eq_ok.1 h
  obtain ⟨path, -, h⟩ := bind_eq_ok.1 h
  obtain ⟨queries, -, h⟩ := bind_eq_ok.1 h
  obtain rfl := pure_eq_ok.1 h
  obtain ⟨statement, hmem, hwrite⟩ := exists_of_mapM_eq_ok hpaths parameter hparameter
  refine ⟨statement, hwrite, fun name hname => mentions_publicFunction ?_⟩
  simp only [mentions_append, mentions_flatten]
  exact Or.inl (Or.inl (Or.inl ⟨statement, hmem, hname⟩))

theorem mentions_readPath {codec : Codec} (key : Code) (nullable : Bool)
    (h : Mentions name codec.decoder) : Mentions name (readPath tg key codec nullable) := by
  cases nullable <;> simp [readPath, present, h]

theorem mentions_readCode (form : QueryForm) (key : Code) (h : Mentions name form.codec.decoder) :
    Mentions name (form.readCode tg key) := by
  cases form with
  | scalar codec fallback isText =>
    cases fallback <;> simp_all [QueryForm.readCode, QueryForm.codec]
  | list codec fallback =>
    cases fallback <;> simp_all [QueryForm.readCode, QueryForm.codec, QueryForm.readList]

/-- The code of a route is the function that makes a value and, below a template, the one that writes
a location with those of the navigator. -/
theorem routeCode_shape (h : routeCode tg place n = .ok code) :
    ∃ type decode leaf, code = word "impl" ++ type ++ braces (decode ++ leaf) ∧
      decodeFunction tg place n = .ok decode ∧ (n.template? = none → leaf = []) ∧
      ∀ t, n.template? = some t → ∃ location navigation, leaf = location ++ navigation ∧
        locationFunction tg place n t = .ok location := by
  obtain ⟨type, -, h⟩ := bind_eq_ok.1 h
  obtain ⟨decode, hdecode, h⟩ := bind_eq_ok.1 h
  cases htemplate : n.template? with
  | none =>
    rw [htemplate] at h
    obtain rfl := pure_eq_ok.1 h
    exact ⟨type, decode, [], rfl, hdecode, fun _ => rfl, fun t ht => nomatch ht⟩
  | some t =>
    rw [htemplate] at h
    obtain ⟨location, hlocation, h⟩ := bind_eq_ok.1 h
    obtain ⟨navigation, -, h⟩ := bind_eq_ok.1 h
    obtain rfl := pure_eq_ok.1 h
    refine ⟨type, decode, location ++ navigation, rfl, hdecode, (fun hnone => nomatch hnone),
      fun t' ht' => ⟨location, navigation, rfl, ?_⟩⟩
    obtain rfl := Option.some.inj ht'
    exact hlocation

/-- The code of a route has the names of the functions in it. -/
theorem routeCode_ok (h : routeCode tg place n = .ok code) :
    ∃ decode, decodeFunction tg place n = .ok decode ∧
      (∀ name, Mentions name decode → Mentions name code) ∧
      ∀ t, n.template? = some t → ∃ location, locationFunction tg place n t = .ok location ∧
        ∀ name, Mentions name location → Mentions name code := by
  obtain ⟨type, decode, leaf, rfl, hdecode, -, hleaf⟩ := routeCode_shape h
  refine ⟨decode, hdecode, fun name hname => by simp [hname], fun t ht => ?_⟩
  obtain ⟨location, navigation, rfl, hlocation⟩ := hleaf t ht
  exact ⟨location, hlocation, fun name hname => by simp [hname]⟩

/-- The code of a route has the names that the codecs of its parameters have. -/
theorem mentions_routeCode (h : routeCode tg place n = .ok code) {c : Codec}
    (hc : Employs tg.catalog n c) (hdecoder : Mentions name c.decoder)
    (hencoder : ∀ value, Mentions name (c.encoder value)) : Mentions name code := by
  obtain ⟨decode, hdecode, hreads, hwrites⟩ := routeCode_ok h
  cases hc with
  | @readPath place' b _ hb hof =>
    obtain ⟨hb, hcarrier⟩ := List.mem_filter.1 hb
    obtain ⟨value, hvalue, hmentions⟩ := readBinding_of_decodeFunction hdecode hb
    refine hreads name (hmentions name ?_)
    rw [readBinding, of_decide_eq_true hcarrier] at hvalue
    obtain ⟨c', hc', hvalue⟩ := bind_eq_ok.1 hvalue
    obtain rfl := Except.ok.inj ((ofType_elsewhere _ hof).symm.trans hc')
    obtain rfl := pure_eq_ok.1 hvalue
    exact mentions_readPath _ _ hdecoder
  | @inQuery place' b form hb hform =>
    obtain ⟨hb, hcarrier⟩ := List.mem_filter.1 hb
    obtain ⟨value, hvalue, hmentions⟩ := readBinding_of_decodeFunction hdecode hb
    refine hreads name (hmentions name ?_)
    rw [readBinding, of_decide_eq_true hcarrier] at hvalue
    obtain ⟨form', hform', hvalue⟩ := bind_eq_ok.1 hvalue
    obtain rfl := pure_eq_ok.1 hvalue
    have hcodec := ofType_elsewhere (place.parameter b.name) (QueryForm.codec_of_ofBinding hform)
    rw [QueryForm.codec_of_ofBinding hform'] at hcodec
    exact mentions_readCode form' _ (Except.ok.inj hcodec ▸ hdecoder)
  | @writePath place' t parameter f _ ht hparameter hf hof =>
    obtain ⟨location, hlocation, hmentions⟩ := hwrites t ht
    obtain ⟨statement, hstatement, hstatements⟩ := writePath_of_locationFunction hlocation hparameter
    refine hmentions name (hstatements name ?_)
    obtain ⟨f', hf', hstatement⟩ := bind_eq_ok.1 hstatement
    rw [backingField, hf] at hf'
    obtain rfl := Except.ok.inj hf'
    obtain ⟨c', hc', hstatement⟩ := bind_eq_ok.1 hstatement
    obtain rfl := Except.ok.inj ((ofType_elsewhere _ hof).symm.trans hc')
    obtain ⟨i, -, hstatement⟩ := bind_eq_ok.1 hstatement
    obtain rfl := pure_eq_ok.1 hstatement
    split <;> simp [hencoder]

/-- What a route carries has a codec that its functions employ. -/
theorem exists_employs_of_carried (h : routeCode tg place n = .ok code) {t : TypeRef}
    (ht : t ∈ carriedTypes n) :
    ∃ c, Employs tg.catalog n c ∧
      ∃ place', Codec.ofType tg.catalog place' (t.element?.getD t) = .ok c := by
  obtain ⟨decode, hdecode, -, hwrites⟩ := routeCode_ok h
  rcases mem_carriedTypes.1 ht with ⟨b, hb, rfl⟩ | ⟨b, hb, rfl⟩ | ⟨t', ht', name, hname, f, hf, rfl⟩
  · have hbinding := List.mem_filter.1 hb
    obtain ⟨value, hvalue, -⟩ := readBinding_of_decodeFunction hdecode hbinding.1
    rw [readBinding, of_decide_eq_true hbinding.2] at hvalue
    obtain ⟨c, hc, -⟩ := bind_eq_ok.1 hvalue
    exact ⟨c, .readPath hb hc, _, by rwa [element?_of_ofType hc]⟩
  · have hbinding := List.mem_filter.1 hb
    obtain ⟨value, hvalue, -⟩ := readBinding_of_decodeFunction hdecode hbinding.1
    rw [readBinding, of_decide_eq_true hbinding.2] at hvalue
    obtain ⟨form, hform, -⟩ := bind_eq_ok.1 hvalue
    exact ⟨form.codec, .inQuery hb hform, _, QueryForm.codec_of_ofBinding hform⟩
  · obtain ⟨location, hlocation, -⟩ := hwrites t' ht'
    obtain ⟨statement, hstatement, -⟩ := writePath_of_locationFunction hlocation hname
    obtain ⟨f', hf', hstatement⟩ := bind_eq_ok.1 hstatement
    rw [backingField, hf] at hf'
    obtain rfl := Except.ok.inj hf'
    obtain ⟨c, hc, -⟩ := bind_eq_ok.1 hstatement
    exact ⟨c, .writePath ht' hname hf hc, _, by rwa [element?_of_ofType hc]⟩

/-- The table of an enumeration that a route carries is looked up, and the route's code names it. -/
theorem exists_employs_of_mem_enumsOf (h : routeCode tg place n = .ok code) {e : String}
    (he : e ∈ enumsOf tg.catalog n) :
    ∃ type table, Employs tg.catalog n (.enumeration type table) ∧
      tableName default e = .ok table ∧ Mentions table code := by
  obtain ⟨t, ht, he⟩ := mem_enumsOf.1 he
  obtain ⟨c, hc, place', hof⟩ := exists_employs_of_carried h ht
  obtain ⟨type, table, rfl, htable⟩ := (ofType_ok hof).2.1 e he
  refine ⟨type, table, hc, tableName_elsewhere _ htable, ?_⟩
  exact mentions_routeCode h hc (by simp [Codec.decoder]) (by simp [Codec.encoder])

end Code

end Emission

end TypedRoutes
