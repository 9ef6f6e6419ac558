import Mathlib.Tactic.ByContra
import TypedRoutes.Proofs.QueryParameter

/-!
# Lists in the query: reading what was written

* `run_valuesCall` : what is read of all values of a key;
* `run_valuesCall_pushed` : a list that was written is read back, an empty one as an absent one;
* `run_nullableList`, `run_defaultedList`, `run_plainList` : what a list of each form is read as;
* `Fallback.Keeps` : a list for which nothing is written is what stands in for an absent one;
* `list_read_back_iff` : a list is read back just if it is kept.
-/

namespace TypedRoutes.Emission

open Syntax Code Navigation

variable {α : Type}

/-! ## The values of a key -/

/-- A text converted by a codec. -/
def convertValue (key : String) (c : Conversion α) (raw : String) : Except ReadError α :=
  match c.decode raw with
  | some a => .ok a
  | none => .error (.invalid key raw)

theorem mapM_convertValue_encode (key : String) (c : Conversion α) {as : List α}
    (h : ∀ a ∈ as, c.decode (c.encode a) = some a) :
    (as.map c.encode).mapM (convertValue key c) = .ok as := by
  refine mapM_map_eq_ok fun a ha => ?_
  rw [convertValue, h a ha]

section Calls

variable (tg : Target) (key name : String) (codec : Codec) (c : Conversion α)

theorem run_valuesCall (q : Query) :
    (valuesCall tg key codec c).run q =
      match q.all.lookup key with
      | none => .ok none
      | some raws => (raws.mapM (convertValue key c)).map some := by
  simp only [valuesCall, Action.ofTerm, Term.transpose, Term.mapPresent, Term.entry, Term.literal,
    Term.block, Term.mapEach, Term.var, Term.orError, Term.decoded, Term.asText, Term.invalid]
  cases q.all.lookup key with
  | none => rfl
  | some raws =>
    simp only [Option.map_some]
    refine congrArg (fun f : String → Except ReadError α => (raws.mapM f).map some)
      (funext fun raw => ?_)
    unfold convertValue
    cases c.decode raw <;> rfl

variable {before after : List (String × String)} (hothers : ∀ p ∈ before ++ after, p.1 ≠ key)

theorem pairs_pushAll {Γ : Type} (t : Term Γ (List α)) (g : Γ) :
    (pushAll key codec c t).pairs g = (t.value g).map fun a => (key, c.encode a) := by
  show (t.value g).flatMap (fun a => [(key, c.encode a)]) = _
  exact List.map_eq_flatMap.symm

include hothers

/-- A list that was pushed is read back, an empty one as an absent one. -/
theorem run_valuesCall_pushed {as : List α} (h : ∀ a ∈ as, c.decode (c.encode a) = some a) :
    (valuesCall tg key codec c).run
        (queryAround before after (as.map fun a => (key, c.encode a))) =
      .ok (if as = [] then none else some as) := by
  have hvalues : valuesOf key (as.map fun a => (key, c.encode a)) = as.map c.encode := by
    have hmap := valuesOf_map key (as.map c.encode)
    rw [List.map_map] at hmap
    exact hmap
  rw [run_valuesCall, lookup_all_around hothers, hvalues]
  by_cases has : as = []
  · rw [if_pos (by simp [has]), if_pos has]
  · rw [if_neg (by simpa using has), if_neg has]
    dsimp only
    rw [mapM_convertValue_encode key c h]
    rfl

/-- Where nothing was pushed, an absent list is read. -/
theorem run_valuesCall_nil :
    (valuesCall tg key codec c).run (queryAround before after []) = .ok none := by
  rw [run_valuesCall, lookup_all_around hothers]
  rfl

/-! ## Meanings -/

/-- What a nullable list is read as: an empty list as an absent one. -/
theorem run_nullableList {s : Option (List α)}
    (h : ∀ as, s = some as → ∀ a ∈ as, c.decode (c.encode a) = some a) :
    (nullableList tg key name codec c).reader.run
        (queryAround before after ((nullableList tg key name codec c).writer.pairs s)) =
      .ok (s.filter fun as => !as.isEmpty) := by
  cases s with
  | none => exact run_valuesCall_nil tg key codec c hothers
  | some as =>
    have hpairs : (nullableList tg key name codec c).writer.pairs (some as) =
        as.map fun a => (key, c.encode a) :=
      pairs_pushAll key codec c (.var "__values" Prod.fst) (as, some as)
    rw [hpairs]
    show (valuesCall tg key codec c).run _ = _
    rw [run_valuesCall_pushed tg key codec c hothers (h as rfl)]
    by_cases hnil : as = []
    · simp [hnil, Option.filter]
    · simp [hnil, Option.filter]

/-- What a list with a default is read as: a list for which nothing was written as the default. -/
theorem run_defaultedList (h : Host (List α)) (code : Code) (g : Guard) (e : Expr)
    {as : List α} (has : ∀ a ∈ as, c.decode (c.encode a) = some a) :
    (defaultedList tg key name codec c h code g e).reader.run
        (queryAround before after
          ((defaultedList tg key name codec c h code g e).writer.pairs as)) =
      .ok (if h.passes name as g = true ∧ as ≠ [] then as else h.value e) := by
  have hread (q : Query) : (defaultedList tg key name codec c h code g e).reader.run q =
      ((valuesCall tg key codec c).run q).map fun o => o.getD (h.value e) := rfl
  have hpairs : (defaultedList tg key name codec c h code g e).writer.pairs as =
      if h.passes name as g then (pushAll key codec c (.borrowed (self name))).pairs as
      else [] := rfl
  rw [hread, hpairs]
  by_cases hg : h.passes name as g = true
  · rw [if_pos hg, pairs_pushAll]
    show ((valuesCall tg key codec c).run
      (queryAround before after (as.map fun a => (key, c.encode a)))).map _ = _
    rw [run_valuesCall_pushed tg key codec c hothers has]
    by_cases hnil : as = []
    · simp [hnil, Except.map]
    · simp [hnil, hg, Except.map]
  · rw [if_neg hg, if_neg fun hand => hg hand.1]
    rw [run_valuesCall_nil tg key codec c hothers]
    rfl

theorem run_plainList {as : List α} (h : ∀ a ∈ as, c.decode (c.encode a) = some a) :
    (plainList tg key name codec c).reader.run
        (queryAround before after ((plainList tg key name codec c).writer.pairs as)) = .ok as := by
  have hread (q : Query) : (plainList tg key name codec c).reader.run q =
      ((valuesCall tg key codec c).run q).map fun o => o.getD [] := rfl
  have hpairs : (plainList tg key name codec c).writer.pairs as =
      as.map fun a => (key, c.encode a) :=
    pairs_pushAll key codec c (.borrowed (self name)) as
  rw [hread, hpairs, run_valuesCall_pushed tg key codec c hothers h]
  by_cases hnil : as = []
  · simp [hnil, Except.map]
  · simp [hnil, Except.map]

end Calls

/-! ## Lists of all forms -/

namespace Fallback

/-- The elements of a list are read back from the texts they are written as. -/
def CarriesEach (c : Conversion α) : (fallback : Fallback) → Held (List α) fallback → Prop
  | .absent, s => ∀ as, s = some as → ∀ a ∈ as, c.decode (c.encode a) = some a
  | .default _, as => ∀ a ∈ as, c.decode (c.encode a) = some a
  | .missing, as => ∀ a ∈ as, c.decode (c.encode a) = some a

/-- A list for which nothing is written is what stands in for an absent one. -/
def Keeps (h : Host (List α)) (name : String) (body : Code) :
    (fallback : Fallback) → Held (List α) fallback → Prop
  | .absent, s => s ≠ some []
  | .default code, as => ∃ g e,
    guard? (QueryForm.unlessDefault (selfField name) code body) = some g ∧
      exprOf? code = some e ∧ (h.passes name as g = true ∧ as ≠ [] ∨ as = h.value e)
  | .missing, _ => True

/-- A list is not empty, or emptiness is what stands in for an absent one. -/
def IsTold (h : Host (List α)) : (fallback : Fallback) → Held (List α) fallback → Prop
  | .absent, s => s ≠ some []
  | .default code, as => ∃ e, exprOf? code = some e ∧ (as ≠ [] ∨ as = h.value e)
  | .missing, _ => True

/-- Where the emitted comparison is with the whole default, a list is kept just if it is not empty
or emptiness stands in for it. -/
theorem keeps_iff_of_isWhole {h : Host (List α)} (hlawful : h.IsLawful) {name : String}
    {body : Code} {fallback : Fallback} (hwhole : fallback.IsWhole name body)
    (s : Held (List α) fallback) :
    fallback.Keeps h name body s ↔ fallback.IsTold h s := by
  cases fallback with
  | absent => exact Iff.rfl
  | missing => exact Iff.rfl
  | default code =>
    obtain ⟨l, e, hl, he, hg⟩ := hwhole
    have hpasses : h.passes name s (.test (.binary l "!=" e)) = true ↔ s ≠ h.value e :=
      Host.holds_ne hlawful hl e s
    constructor
    · rintro ⟨g, e', hg', he', hkeeps⟩
      exact ⟨e', he', hkeeps.imp_left And.right⟩
    · rintro ⟨e', he', htold⟩
      obtain rfl : e = e' := Option.some.inj (he.symm.trans he')
      refine ⟨_, e, hg, he, ?_⟩
      by_cases heq : s = h.value e
      · exact Or.inr heq
      · exact Or.inl ⟨hpasses.2 heq, htold.resolve_right heq⟩

end Fallback

/-- The body of the statement that adds a list. -/
def listBody (tg : Target) (b : Binding) (name : String) (codec : Codec) : Code :=
  QueryForm.pushEach (str (tg.settings.queryKey b.name)) codec (refer (selfField name))

/-- A list in the query is read back just if it is kept. An empty nullable list is not, nor is a
list other than the default that has no pairs or is taken for the default. -/
theorem list_read_back_iff {template? : Option PathTemplate} {payload : String}
    {declared place : Place} {p : Parameter} {b : Binding}
    (hbind : bind? template? payload declared p = .ok b) (hquery : b.carrier = .query)
    {tg : Target} {codec : Codec} {fallback : Fallback}
    (hform : QueryForm.ofBinding tg.catalog (place.parameter b.name) b = .ok (.list codec fallback))
    {name : String} (hname : identifier (place.parameter b.name) b.name = .ok name)
    (c : Conversion α) (h : Host (List α)) (s : Held (List α) fallback)
    (hs : fallback.CarriesEach c s) {before after : List (String × String)}
    (hothers : ∀ q ∈ before ++ after, q.1 ≠ tg.settings.queryKey b.name) :
    fallback.Suits b ∧
      ((∃ m, listMeaning? tg (tg.settings.queryKey b.name) name codec c h fallback = some m ∧
          m.IsEmitted place b ∧
          m.reader.run (queryAround before after (m.writer.pairs s)) = .ok s) ↔
        fallback.Keeps h name (listBody tg b name codec) s) ∧
      (h.IsLawful → fallback.IsWhole name (listBody tg b name codec) →
        (fallback.Keeps h name (listBody tg b name codec) s ↔ fallback.IsTold h s)) := by
  refine ⟨suits_of_bind hbind hquery hform, ?_, fun hlawful hwhole =>
    Fallback.keeps_iff_of_isWhole hlawful hwhole s⟩
  cases fallback with
  | absent =>
    have hrun := run_nullableList tg _ name codec c hothers hs
    have hfilter : s.filter (fun as => !as.isEmpty) = s ↔ s ≠ some [] := by
      cases s <;> simp [Option.filter]
    constructor
    · rintro ⟨m, hm, -, hread⟩
      cases hm
      exact hfilter.1 (Except.ok.inj (hrun.symm.trans hread))
    · intro hkeeps
      refine ⟨_, rfl, isEmitted hquery hform hname _, ?_⟩
      rw [hrun, hfilter.2 hkeeps]
  | missing =>
    refine iff_of_true ⟨_, rfl, isEmitted hquery hform hname _, ?_⟩ trivial
    exact run_plainList tg _ name codec c hothers hs
  | default code =>
    have hrun := fun g e => run_defaultedList tg _ name codec c hothers h code g e hs
    constructor
    · rintro ⟨m, hm, -, hread⟩
      obtain ⟨g, hg, hm⟩ := Option.bind_eq_some_iff.1 hm
      obtain ⟨e, he, hm⟩ := Option.bind_eq_some_iff.1 hm
      cases hm
      have hvalue := Except.ok.inj ((hrun g e).symm.trans hread)
      refine ⟨g, e, hg, he, ?_⟩
      by_cases hpushed : h.passes name s g = true ∧ s ≠ []
      · exact Or.inl hpushed
      · rw [if_neg hpushed] at hvalue
        exact Or.inr hvalue.symm
    · rintro ⟨g, e, hg, he, hkeeps⟩
      refine ⟨defaultedList tg _ name codec c h code g e, ?_, isEmitted hquery hform hname _, ?_⟩
      · exact Option.bind_eq_some_iff.2 ⟨g, hg, Option.bind_eq_some_iff.2 ⟨e, he, rfl⟩⟩
      · rw [hrun g e]
        by_cases hpushed : h.passes name s g = true ∧ s ≠ []
        · rw [if_pos hpushed]
        · rw [if_neg hpushed, hkeeps.resolve_left hpushed]

/-! ### A nullable list of texts -/

def tagsParameter : Parameter :=
  .optional (.byName "tags" (TypeRef.list (.named "String")).asNullable)

/-- A text is written as it is. -/
def textConversion : Conversion String where
  encode s := s
  decode := some

/-- Nothing is compared, since there is no default. -/
def noHost : Host (List String) where
  value _ := []
  differs a b := a ≠ b
  truth _ _ := false

/-- A nullable list with elements is read back beside another parameter. -/
theorem tags_read_back :
    ∃ m, listMeaning? bareTarget (bareTarget.settings.queryKey "tags") "tags" .text textConversion
        noHost .absent = some m ∧
      m.IsEmitted barePlace (bareBinding tagsParameter) ∧
      m.reader.run (queryAround [("q", "a&b")] [] (m.writer.pairs (some ["", "x=y"]))) =
        .ok (some ["", "x=y"]) := by
  have hbind : bind? none "extra" barePlace tagsParameter = .ok (bareBinding tagsParameter) :=
    bind_bare (by decide)
  have hform : QueryForm.ofBinding bareTarget.catalog (barePlace.parameter "tags")
      (bareBinding tagsParameter) = .ok (.list .text .absent) := rfl
  have hname : identifier (barePlace.parameter "tags") "tags" = .ok "tags" := rfl
  have hkey : bareTarget.settings.queryKey "tags" = "tags" := by decide
  have hothers : ∀ q ∈ [("q", "a&b")] ++ [], q.1 ≠ bareTarget.settings.queryKey "tags" := by
    rw [hkey]
    decide
  have hread := list_read_back_iff hbind rfl hform hname textConversion noHost
    (some ["", "x=y"]) (fun _ _ _ _ => rfl) hothers
  have hkeeps : some ["", "x=y"] ≠ some [] := by decide
  exact hread.2.1.2 hkeeps

end TypedRoutes.Emission
