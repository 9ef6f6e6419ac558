import TypedRoutes.Proofs.FirstFault
import TypedRoutes.Proofs.PlainName

/-!
# Parameters by the way they travel

* `Check` : a requirement with the fault of what misses it; `checks` : those of a parameter in the
  order in which it is held to them;
* `Passes`, `FirstFails`, `Reports` : that no check of a list fails, or what the first that does
  reports;
* `reports_parameterFault?` : the fault of a parameter is that of its first failing check;
* `Merged` : three lists merged into one, the order of each kept; `Classified` : bindings that divide
  parameters by the way they travel;
* `bindAll_outcome` : parameters are bound just if none fails a check, and classified then; otherwise
  the first failing check of the first failing parameter is reported.
-/

namespace TypedRoutes

open Text (isPlainIdentifier)

/-! ## Checks -/

/-- A requirement that may be missed, and the fault of what misses it. -/
structure Check where
  Fails : Prop
  fault : Fault

/-- No check fails. -/
def Passes (cs : List Check) : Prop :=
  ∀ c ∈ cs, ¬c.Fails

/-- A check fails that has the fault, and none in front of it does. -/
def FirstFails (cs : List Check) (fault : Fault) : Prop :=
  ∃ before c behind, cs = before ++ c :: behind ∧ Passes before ∧ c.Fails ∧ c.fault = fault

/-- What comes of holding something to the checks in their order. -/
def Reports (cs : List Check) : Option Fault → Prop
  | none => Passes cs
  | some fault => FirstFails cs fault

section Checks

variable {c : Check} {cs cs' : List Check} {o o' : Option Fault}

theorem passes_nil : Passes [] := by
  simp [Passes]

theorem passes_cons : Passes (c :: cs) ↔ ¬c.Fails ∧ Passes cs :=
  List.forall_mem_cons

theorem Reports.of_fails (h : c.Fails) : Reports (c :: cs) (some c.fault) :=
  ⟨[], c, cs, rfl, passes_nil, h, rfl⟩

theorem Reports.of_passes (h : ¬c.Fails) (hrest : Reports cs o) : Reports (c :: cs) o := by
  cases o with
  | none => exact passes_cons.2 ⟨h, hrest⟩
  | some fault =>
    obtain ⟨before, d, behind, rfl, hbefore, hd⟩ := hrest
    exact ⟨c :: before, d, behind, rfl, passes_cons.2 ⟨h, hbefore⟩, hd⟩

/-- A check with all behind it, where the condition is that it fails. -/
theorem Reports.cons {P : Prop} [Decidable P] (hfails : P ↔ c.Fails) (hrest : Reports cs o) :
    Reports (c :: cs) (if P then some c.fault else o) := by
  by_cases h : P
  · rw [if_pos h]
    exact .of_fails (hfails.1 h)
  · rw [if_neg h]
    exact .of_passes (mt hfails.2 h) hrest

theorem Reports.append (h : Reports cs o) (h' : Reports cs' o') : Reports (cs ++ cs') (o <|> o') := by
  cases o with
  | none =>
    induction cs with
    | nil => exact h'
    | cons c cs ih =>
      obtain ⟨hc, hcs⟩ := passes_cons.1 h
      exact .of_passes hc (ih hcs)
  | some fault =>
    obtain ⟨before, c, behind, rfl, hbefore, hc⟩ := h
    exact ⟨before, c, behind ++ cs', by simp, hbefore, hc⟩

/-- Checks that pass and one that fails stand in a list in one way only. -/
theorem Reports.unique (h : Reports cs o) (h' : Reports cs o') : o = o' := by
  induction cs generalizing o o' with
  | nil =>
    have hnone : ∀ {o}, Reports [] o → o = none := by
      intro o ho
      cases o with
      | none => rfl
      | some fault => obtain ⟨before, c, behind, heq, -⟩ := ho; simp at heq
    rw [hnone h, hnone h']
  | cons c cs ih =>
    have hcons : ∀ {o}, Reports (c :: cs) o →
        (c.Fails ∧ o = some c.fault) ∨ (¬c.Fails ∧ Reports cs o) := by
      intro o ho
      cases o with
      | none => exact Or.inr (passes_cons.1 ho)
      | some fault =>
        obtain ⟨before, d, behind, heq, hbefore, hd, rfl⟩ := ho
        cases before with
        | nil =>
          obtain ⟨rfl, -⟩ := List.cons.inj heq
          exact Or.inl ⟨hd, rfl⟩
        | cons b before =>
          obtain ⟨rfl, rfl⟩ := List.cons.inj heq
          obtain ⟨hb, hbefore⟩ := passes_cons.1 hbefore
          exact Or.inr ⟨hb, before, d, behind, rfl, hbefore, hd, rfl⟩
    rcases hcons h with ⟨hc, rfl⟩ | ⟨hc, hrest⟩
    · rcases hcons h' with ⟨-, rfl⟩ | ⟨hpass, -⟩
      · rfl
      · exact absurd hc hpass
    · rcases hcons h' with ⟨hfail, -⟩ | ⟨-, hrest'⟩
      · exact absurd hfail hc
      · exact ih hrest hrest'

end Checks

/-! ## Checks of a parameter -/

/-- What the way that a value travels demands of its parameter. -/
def carrierChecks (p : Parameter) : Carrier → List Check
  | .path =>
    [⟨p.required = true ∧ p.type.nullable = true, .nullablePath p.name⟩,
     ⟨p.type.element? ≠ none, .listInPath p.name p.type⟩]
  | .query =>
    [⟨p.default? ≠ none ∧ p.type.nullable = true, .nullableWithDefault p.name⟩,
     ⟨∃ e ∈ p.type.element?, e.nullable = true ∨ e.args ≠ [], .nestedList p.name p.type⟩]
  | .payload => []

/-- All that a parameter is held to: it is passed either by position or by name, its name is a plain
identifier and no word of the language, it suits the way it travels, and its default is an
expression. -/
def checks (template? : Option PathTemplate) (payload : String) (p : Parameter) : List Check :=
  [⟨p.positional = p.named, .ambiguousRole p.name⟩,
   ⟨¬(isPlainIdentifier p.name = true ∧ Syntax.isIdentifier p.name = true), .unusableName p.name⟩] ++
  (carrierChecks p (carrierOf template? payload p.name) ++
    p.default?.toList.map fun e => ⟨Syntax.parseExpr e = none, .badDefault p.name e⟩)

section Parameters

variable {template? : Option PathTemplate} {payload : String} {p : Parameter}

theorem reports_carrierFault? (b : Binding) :
    Reports (carrierChecks b.parameter b.carrier) b.carrierFault? := by
  unfold Binding.carrierFault?
  cases b.carrier with
  | path =>
    refine .cons ?_ (.cons ?_ passes_nil)
    · simp [Binding.parameter]
    · exact Option.isSome_iff_ne_none
  | query =>
    refine .cons ?_ (.cons ?_ passes_nil)
    · simp [Binding.hasDefault, Binding.parameter, Option.isSome_iff_ne_none]
    · simp [Binding.parameter, Option.any_eq_true]
  | payload => exact passes_nil

theorem reports_defaultFault? (b : Binding) :
    Reports (b.default?.toList.map fun e => ⟨Syntax.parseExpr e = none, .badDefault b.name e⟩)
      b.defaultFault? := by
  unfold Binding.defaultFault?
  cases b.default? with
  | none => exact passes_nil
  | some e =>
    show Reports [⟨Syntax.parseExpr e = none, .badDefault b.name e⟩]
      (if (Syntax.parseExpr e).isSome then none else some (.badDefault b.name e))
    rw [← ite_not]
    refine .cons ?_ passes_nil
    exact Option.not_isSome_iff_eq_none

/-- The fault of a parameter is that of its first check that fails. -/
theorem reports_parameterFault? :
    Reports (checks template? payload p) (parameterFault? template? payload p) := by
  have hname : (!isUsableName p.name) = true ↔
      ¬(isPlainIdentifier p.name = true ∧ Syntax.isIdentifier p.name = true) := by
    rw [← isUsableName_iff, Bool.not_eq_true', Bool.not_eq_true]
  have hbinding := (reports_carrierFault? (.ofParameter template? payload p)).append
    (reports_defaultFault? (.ofParameter template? payload p))
  exact .cons Iff.rfl (.cons hname hbinding)

theorem parameterFault?_eq_iff {o : Option Fault} :
    parameterFault? template? payload p = o ↔ Reports (checks template? payload p) o :=
  ⟨fun h => h ▸ reports_parameterFault?, reports_parameterFault?.unique⟩

end Parameters

/-! ## Classes -/

/-- Three lists are merged into one, in which each keeps its order. -/
inductive Merged {α : Type} : List α → List α → List α → List α → Prop
  | nil : Merged [] [] [] []
  | first {a : α} {xs ys zs all : List α} : Merged xs ys zs all → Merged (a :: xs) ys zs (a :: all)
  | second {a : α} {xs ys zs all : List α} : Merged xs ys zs all → Merged xs (a :: ys) zs (a :: all)
  | third {a : α} {xs ys zs all : List α} : Merged xs ys zs all → Merged xs ys (a :: zs) (a :: all)

theorem merged_carriedBy (bs : List Binding) :
    Merged (Bindings.inPath bs) (Bindings.inQuery bs) (Bindings.carriedBy .payload bs) bs := by
  unfold Bindings.inPath Bindings.inQuery Bindings.carriedBy
  induction bs with
  | nil => exact .nil
  | cons b bs ih =>
    cases hcarrier : b.carrier with
    | path => simpa [hcarrier] using ih.first
    | query => simpa [hcarrier] using ih.second
    | payload => simpa [hcarrier] using ih.third

/-- Different ways have no binding in common. -/
theorem disjoint_carriedBy {c c' : Carrier} (h : c ≠ c') (bs : List Binding) :
    (Bindings.carriedBy c bs).Disjoint (Bindings.carriedBy c' bs) := by
  intro b hb hb'
  exact h ((mem_carriedBy.1 hb).2.symm.trans (mem_carriedBy.1 hb').2)

/-- Bindings that are the parameters as they were, each with the way that it travels. The payload is
known by its name, whether the template has it or not, and of the others those of the template are
in the path. -/
structure Classified (template? : Option PathTemplate) (payload : String) (ps : List Parameter)
    (bs : List Binding) : Prop where
  parameters : bs.map Binding.parameter = ps
  isPayload : ∀ b ∈ bs, b.carrier = .payload ↔ b.name = payload
  isPath : ∀ b ∈ bs, b.carrier = .path ↔ b.name ≠ payload ∧ ∃ t ∈ template?, b.name ∈ t.names
  isQuery : ∀ b ∈ bs, b.carrier = .query ↔ b.name ≠ payload ∧ ∀ t ∈ template?, b.name ∉ t.names
  merged : Merged (Bindings.inPath bs) (Bindings.inQuery bs) (Bindings.carriedBy .payload bs) bs
  disjoint : ∀ c c', c ≠ c' → (Bindings.carriedBy c bs).Disjoint (Bindings.carriedBy c' bs)

section Classes

variable {template? : Option PathTemplate} {payload : String} {place : Place} {ps : List Parameter}
  {bs : List Binding}

theorem carrierOf_eq_payload {name : String} :
    carrierOf template? payload name = .payload ↔ name = payload := by
  unfold carrierOf
  split
  · next h => simp [h]
  · next h => split <;> simp [h]

theorem carrierOf_eq_query {name : String} :
    carrierOf template? payload name = .query ↔
      name ≠ payload ∧ ∀ t ∈ template?, name ∉ t.names := by
  have hrest : carrierOf template? payload name = .query ↔
      ¬carrierOf template? payload name = .payload ∧ ¬carrierOf template? payload name = .path := by
    cases carrierOf template? payload name <;> decide
  rw [hrest, carrierOf_eq_payload, carrierOf_eq_path]
  refine and_congr_right fun hpayload => ?_
  simp [hpayload]

/-- Parameters without a fault are classified by their bindings. -/
theorem classified_of_bindAll (h : bindAll template? payload place ps = .ok bs) :
    Classified template? payload ps bs := by
  have hcarrier : ∀ b ∈ bs, b.carrier = carrierOf template? payload b.name := fun b hb =>
    (bound_of_bindAll h b hb).1
  refine ⟨map_parameter_of_bindAll h, ?_, ?_, ?_, merged_carriedBy bs, ?_⟩
  · intro b hb
    rw [hcarrier b hb, carrierOf_eq_payload]
  · intro b hb
    rw [hcarrier b hb, carrierOf_eq_path]
  · intro b hb
    rw [hcarrier b hb, carrierOf_eq_query]
  · intro c c' hne
    exact disjoint_carriedBy hne bs

/-- There is one classification of parameters only. -/
theorem Classified.eq_map (h : Classified template? payload ps bs) :
    bs = ps.map (Binding.ofParameter template? payload) := by
  have hcarrier : ∀ b ∈ bs, b.carrier = carrierOf template? payload b.name := by
    intro b hb
    symm
    cases hb' : b.carrier with
    | path => exact carrierOf_eq_path.2 ((h.isPath b hb).1 hb')
    | query => exact carrierOf_eq_query.2 ((h.isQuery b hb).1 hb')
    | payload => exact carrierOf_eq_payload.2 ((h.isPayload b hb).1 hb')
  rw [← h.parameters, List.map_map]
  refine (List.map_id bs).symm.trans (List.map_congr_left fun b hb => ?_)
  show b = Binding.ofParameter template? payload b.parameter
  unfold Binding.ofParameter Binding.parameter
  rw [← hcarrier b hb]

/-- Parameters are bound just if each, looked at alone, passes its checks. They are classified then.
Otherwise the first failing check of the first parameter that fails one is reported, at that
parameter. -/
theorem bindAll_outcome (template? : Option PathTemplate) (payload : String) (place : Place)
    (ps : List Parameter) :
    ((∃ bs, bindAll template? payload place ps = .ok bs) ↔
      ∀ p ∈ ps, Passes (checks template? payload p)) ∧
    (∀ bs, bindAll template? payload place ps = .ok bs ↔
      (∀ p ∈ ps, Passes (checks template? payload p)) ∧ Classified template? payload ps bs) ∧
    ∀ f, bindAll template? payload place ps = .error f ↔
      ∃ before p behind, ps = before ++ p :: behind ∧
        (∀ q ∈ before, Passes (checks template? payload q)) ∧
        ∃ fault, FirstFails (checks template? payload p) fault ∧
          f = ⟨fault, place.parameter p.name⟩ := by
  have hpasses : ∀ p, parameterFault? template? payload p = none ↔
      Passes (checks template? payload p) := fun p => parameterFault?_eq_iff
  have hfails : ∀ p fault, parameterFault? template? payload p = some fault ↔
      FirstFails (checks template? payload p) fault := fun p fault => parameterFault?_eq_iff
  refine ⟨?_, fun bs => ?_, fun f => ?_⟩
  · simp only [bindAll_eq_ok_iff, hpasses]
    exact ⟨fun ⟨_, h, _⟩ => h, fun h => ⟨_, h, rfl⟩⟩
  · constructor
    · intro h
      have hclassified := classified_of_bindAll h
      rw [bindAll_eq_ok_iff] at h
      exact ⟨fun p hp => (hpasses p).1 (h.1 p hp), hclassified⟩
    · rintro ⟨h, hclassified⟩
      exact bindAll_eq_ok_iff.2 ⟨fun p hp => (hpasses p).2 (h p hp), hclassified.eq_map.symm⟩
  · simp only [bindAll_eq_error, hpasses, hfails]

end Classes

end TypedRoutes
