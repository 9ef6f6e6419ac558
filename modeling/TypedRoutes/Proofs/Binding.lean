import TypedRoutes.Binding
import TypedRoutes.Proofs.Outcome

/-!
# What binding parameters comes to

* `parameterFault?_eq_none_iff`, `bindAll_eq_ok_iff` : when parameters have no fault, and what they
  are bound as then;
* `Binding.parameter` : the parameter that was bound; `map_parameter_of_bindAll` : these are the ones
  given;
* `bound_of_bindAll` : bindings have the carriers that their names have, and none has a fault;
* `parameterFault?_category` : the categories that the faults of a parameter have;
* `suits_path`, `suits_query`, `default_parses` : what a binding without a fault is like.
-/

namespace TypedRoutes

/-! ## Parameters looked at alone -/

section Parameters

variable {template? : Option PathTemplate} {payload : String} {place : Place}

theorem parameterFault?_eq_none_iff {p : Parameter} :
    parameterFault? template? payload p = none ↔
      p.positional ≠ p.named ∧ isUsableName p.name = true ∧
        (Binding.ofParameter template? payload p).carrierFault? = none ∧
        (Binding.ofParameter template? payload p).defaultFault? = none := by
  unfold parameterFault?
  by_cases hrole : p.positional = p.named
  · simp [hrole]
  · by_cases hname : isUsableName p.name = true
    · simp [hrole, hname]
    · simp [hrole, hname]

theorem bind?_eq_ok_iff {p : Parameter} {b : Binding} :
    bind? template? payload place p = .ok b ↔
      parameterFault? template? payload p = none ∧ Binding.ofParameter template? payload p = b := by
  unfold bind?
  split
  · next fault hfault => simp [hfault]
  · next hfault => simp [hfault]

/-- Parameters are bound just if none has a fault, each as it would be alone. -/
theorem bindAll_eq_ok_iff {ps : List Parameter} {bs : List Binding} :
    bindAll template? payload place ps = .ok bs ↔
      (∀ p ∈ ps, parameterFault? template? payload p = none) ∧
        ps.map (Binding.ofParameter template? payload) = bs := by
  unfold bindAll
  induction ps generalizing bs with
  | nil => simp [pure, Except.pure]
  | cons p ps ih =>
    rw [List.mapM_cons, bind_eq_ok, List.forall_mem_cons, List.map_cons]
    constructor
    · rintro ⟨b, hb, h⟩
      obtain ⟨bs', hbs, h⟩ := bind_eq_ok.1 h
      obtain rfl := pure_eq_ok.1 h
      obtain ⟨hfault, rfl⟩ := bind?_eq_ok_iff.1 hb
      obtain ⟨hfaults, rfl⟩ := ih.1 hbs
      exact ⟨⟨hfault, hfaults⟩, rfl⟩
    · rintro ⟨⟨hfault, hfaults⟩, rfl⟩
      refine ⟨_, bind?_eq_ok_iff.2 ⟨hfault, rfl⟩, bind_eq_ok.2 ⟨_, ih.2 ⟨hfaults, rfl⟩, rfl⟩⟩

/-- Bound parameters have usable names. -/
theorem isUsableName_of_bindAll {ps : List Parameter} {bs : List Binding}
    (h : bindAll template? payload place ps = .ok bs) : ∀ b ∈ bs, isUsableName b.name = true := by
  obtain ⟨hfaults, rfl⟩ := bindAll_eq_ok_iff.1 h
  intro b hb
  obtain ⟨p, hp, rfl⟩ := List.mem_map.1 hb
  exact (parameterFault?_eq_none_iff.1 (hfaults p hp)).2.1

/-- A parameter is bound in the path just if the template has it and it is not the payload. -/
theorem carrierOf_eq_path {name : String} :
    carrierOf template? payload name = .path ↔
      name ≠ payload ∧ ∃ t ∈ template?, name ∈ t.names := by
  unfold carrierOf
  by_cases hpayload : name = payload
  · simp [hpayload]
  · cases template? with
    | none => simp [hpayload]
    | some t =>
      by_cases hname : name ∈ t.names
      · simp [hpayload, PathTemplate.hasParameter, hname]
      · simp [hpayload, PathTemplate.hasParameter, hname]

/-- The parameter that was bound. -/
def Binding.parameter (b : Binding) : Parameter where
  name := b.name
  type := b.type
  positional := b.positional
  named := !b.positional
  required := b.required
  default? := b.default?

theorem parameter_ofParameter {p : Parameter} (h : p.positional ≠ p.named) :
    (Binding.ofParameter template? payload p).parameter = p := by
  have hnamed : (!p.positional) = p.named := by
    cases hp : p.positional <;> cases hn : p.named <;> simp_all
  cases p
  simp_all [Binding.ofParameter, Binding.parameter]

/-- Bindings have the carriers that their names have, and none has a fault. -/
theorem bound_of_bindAll {ps : List Parameter} {bs : List Binding}
    (h : bindAll template? payload place ps = .ok bs) :
    ∀ b ∈ bs, b.carrier = carrierOf template? payload b.name ∧ b.carrierFault? = none ∧
      b.defaultFault? = none := by
  obtain ⟨hfaults, rfl⟩ := bindAll_eq_ok_iff.1 h
  intro b hb
  obtain ⟨p, hp, rfl⟩ := List.mem_map.1 hb
  obtain ⟨-, -, hcarrier, hdefault⟩ := parameterFault?_eq_none_iff.1 (hfaults p hp)
  exact ⟨rfl, hcarrier, hdefault⟩

/-- The parameters that were bound are those given, in their order. -/
theorem map_parameter_of_bindAll {ps : List Parameter} {bs : List Binding}
    (h : bindAll template? payload place ps = .ok bs) : bs.map Binding.parameter = ps := by
  obtain ⟨hfaults, rfl⟩ := bindAll_eq_ok_iff.1 h
  rw [List.map_map]
  refine (List.map_congr_left fun p hp => ?_).trans (List.map_id ps)
  exact parameter_ofParameter (parameterFault?_eq_none_iff.1 (hfaults p hp)).1

end Parameters

/-! ## Categories of faults -/

/-- The categories that the faults of a parameter have. -/
def parameterCategories : List Category :=
  [.malformedParameterRole, .invalidIdentifier, .nullablePathParameter, .nullableDefaultValue,
    .unsupportedParameterType, .invalidDefaultValue]

theorem carrierFault?_category {b : Binding} {fault : Fault} (h : b.carrierFault? = some fault) :
    fault.category ∈ parameterCategories := by
  unfold Binding.carrierFault? at h
  split at h
  · split at h
    · cases h
      simp [Fault.category, parameterCategories]
    · split at h
      · cases h
        simp [Fault.category, parameterCategories]
      · cases h
  · split at h
    · cases h
      simp [Fault.category, parameterCategories]
    · split at h
      · cases h
        simp [Fault.category, parameterCategories]
      · cases h
  · cases h

theorem defaultFault?_category {b : Binding} {fault : Fault} (h : b.defaultFault? = some fault) :
    fault.category ∈ parameterCategories := by
  unfold Binding.defaultFault? at h
  split at h
  · split at h
    · cases h
    · cases h
      simp [Fault.category, parameterCategories]
  · cases h

theorem parameterFault?_category {template? : Option PathTemplate} {payload : String} {p : Parameter}
    {fault : Fault} (h : parameterFault? template? payload p = some fault) :
    fault.category ∈ parameterCategories := by
  unfold parameterFault? at h
  split at h
  · cases h
    simp [Fault.category, parameterCategories]
  · split at h
    · cases h
      simp [Fault.category, parameterCategories]
    · dsimp only at h
      cases hcarrier : (Binding.ofParameter template? payload p).carrierFault? with
      | some fault' =>
        rw [hcarrier] at h
        cases h
        exact carrierFault?_category hcarrier
      | none =>
        rw [hcarrier] at h
        exact defaultFault?_category h

/-! ## Bindings without a fault -/

section Bindings

variable {b : Binding}

theorem suits_path (hcarrier : b.carrier = .path) (h : b.carrierFault? = none) :
    ¬(b.required = true ∧ b.type.nullable = true) ∧ b.type.element? = none := by
  unfold Binding.carrierFault? at h
  rw [hcarrier] at h
  dsimp only at h
  split at h
  · cases h
  · next hnullable =>
    split at h
    · cases h
    · next hlist => exact ⟨by simpa using hnullable, by simpa using hlist⟩

theorem suits_query (hcarrier : b.carrier = .query) (h : b.carrierFault? = none) :
    ¬(b.type.nullable = true ∧ b.hasDefault = true) ∧
      ∀ e ∈ b.type.element?, e.nullable = false ∧ e.args = [] := by
  unfold Binding.carrierFault? at h
  rw [hcarrier] at h
  dsimp only at h
  split at h
  · cases h
  · next hnullable =>
    split at h
    · cases h
    · next hlist =>
      refine ⟨by simpa [and_comm] using hnullable, fun e he => ?_⟩
      rw [Option.mem_def.1 he] at hlist
      simpa using hlist

theorem default_parses (h : b.defaultFault? = none) :
    ∀ e ∈ b.default?, (Syntax.parseExpr e).isSome = true := by
  intro e he
  unfold Binding.defaultFault? at h
  rw [Option.mem_def.1 he] at h
  dsimp only at h
  split at h
  · next hparses => exact hparses
  · cases h

theorem mem_carriedBy {c : Carrier} {bs : List Binding} :
    b ∈ Bindings.carriedBy c bs ↔ b ∈ bs ∧ b.carrier = c := by
  simp [Bindings.carriedBy]

end Bindings

end TypedRoutes
