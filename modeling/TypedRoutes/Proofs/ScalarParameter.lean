import Mathlib.Tactic.ByContra
import TypedRoutes.Proofs.QueryParameter

/-!
# Single values in the query: reading what was written

* `run_readerCall` : what the shared helper reads;
* `Meaning.Conveys` : a value is read as it was written, with one pair or none for it;
* `conveys_nullableScalar`, `conveys_requiredScalar` : absent, present and required values are
  conveyed;
* `conveys_defaultedScalar_iff` : a value with a default is conveyed just if it is told from it;
* `scalar_conveys_iff` : single values of all forms.
-/

namespace TypedRoutes.Emission

open Syntax Code Navigation

variable {α σ : Type}

/-! ## The value of a key -/

section Calls

variable (tg : Target) (key : String) (codec : Codec) (c : Conversion α)

theorem run_readerCall (q : Query) :
    (readerCall tg key codec c).run q =
      match q.first.lookup key with
      | none => .ok none
      | some raw =>
        match c.decode raw with
        | some a => .ok (some a)
        | none => .error (.invalid key raw) := by
  simp only [readerCall, Action.ofTerm, readerBody, Term.select, Term.entry, Term.var, Term.orError,
    Term.markPresent, Term.invalid]
  cases q.first.lookup key with
  | none => rfl
  | some raw =>
    dsimp only
    cases c.decode raw <;> rfl

/-- Where there is no value of the key, none is read. -/
theorem run_readerCall_none {q : Query} (h : q.first.lookup key = none) :
    (readerCall tg key codec c).run q = .ok none := by
  rw [run_readerCall, h]

/-- A value that was written is read. -/
theorem run_readerCall_encode {q : Query} {a : α} (h : q.first.lookup key = some (c.encode a))
    (ha : c.decode (c.encode a) = some a) :
    (readerCall tg key codec c).run q = .ok (some a) := by
  rw [run_readerCall, h]
  simp only [ha]

end Calls

/-! ## Conveying -/

/-- A value is read as it was written among other pairs. There is one pair for it, or none if it is
omitted. -/
structure Meaning.Conveys {tg : Target} {key name : String} {form : QueryForm}
    (m : Meaning tg key name form σ) (before after : List (String × String)) (s : σ)
    (omitted : Prop) : Prop where
  read : m.reader.run (queryAround before after (m.writer.pairs s)) = .ok s
  omits : m.writer.pairs s = [] ↔ omitted
  once : m.writer.pairs s = [] ∨ ∃ text, m.writer.pairs s = [(key, text)]

namespace Fallback

/-- The values of a field are read back from the texts they are written as. -/
def Carries (c : Conversion α) : (fallback : Fallback) → Held α fallback → Prop
  | .absent, s => ∀ a, s = some a → c.decode (c.encode a) = some a
  | .default _, a => c.decode (c.encode a) = some a
  | .missing, a => c.decode (c.encode a) = some a

/-- What a field holds is left out of the query: the absent value, or the default. -/
def Omits (h : Host σ) : (fallback : Fallback) → Held σ fallback → Prop
  | .absent, s => s = none
  | .default code, s => ∃ e, exprOf? code = some e ∧ s = h.value e
  | .missing, _ => False

theorem omits_default {h : Host σ} {code : Code} {e : Expr} (he : exprOf? code = some e) (s : σ) :
    Omits h (.default code) s = (s = h.value e) := by
  simp [Omits, he]

end Fallback

/-! ## Single values -/

section Scalar

variable (tg : Target) (key name : String) (codec : Codec) (c : Conversion α)
  {before after : List (String × String)} (hothers : ∀ p ∈ before ++ after, p.1 ≠ key)
  (isText : Bool)

include hothers

/-- What is read where a single value was pushed among others. -/
theorem run_readerCall_pushed {a : α} (ha : c.decode (c.encode a) = some a) :
    (readerCall tg key codec c).run (queryAround before after [(key, c.encode a)]) =
      .ok (some a) := by
  refine run_readerCall_encode tg key codec c ?_ ha
  rw [lookup_first_around hothers]
  simp [valuesOf]

/-- What is read where nothing was pushed. -/
theorem run_readerCall_nil :
    (readerCall tg key codec c).run (queryAround before after []) = .ok none := by
  refine run_readerCall_none tg key codec c ?_
  rw [lookup_first_around hothers]
  rfl

theorem conveys_nullableScalar (s : Option α)
    (hs : ∀ a, s = some a → c.decode (c.encode a) = some a) :
    (nullableScalar tg key name codec c isText).Conveys before after s (s = none) := by
  cases s with
  | none => exact ⟨run_readerCall_nil tg key codec c hothers, iff_of_true rfl rfl, Or.inl rfl⟩
  | some a =>
    refine ⟨?_, ?_, Or.inr ⟨_, rfl⟩⟩
    · exact run_readerCall_pushed tg key codec c hothers (hs a rfl)
    · exact iff_of_false (List.cons_ne_nil _ _) (Option.some_ne_none a)

theorem conveys_requiredScalar (a : α) (ha : c.decode (c.encode a) = some a) :
    (requiredScalar tg key name codec c isText).Conveys before after a False := by
  refine ⟨?_, iff_of_false (List.cons_ne_nil _ _) id, Or.inr ⟨_, rfl⟩⟩
  have hread := run_readerCall_pushed tg key codec c hothers ha
  show (Action.orLeave (readerCall tg key codec c) _).run
    (queryAround before after [(key, c.encode a)]) = _
  simp only [Action.orLeave, hread]

/-- A single value with a default is conveyed just if its conditional runs for every value but the
default. -/
theorem conveys_defaultedScalar_iff (h : Host α) (code : Code) (g : Guard) (e : Expr) (a : α)
    (ha : c.decode (c.encode a) = some a) :
    (defaultedScalar tg key name codec c h isText code g e).Conveys before after a (a = h.value e) ↔
      (h.passes name a g = true ↔ a ≠ h.value e) := by
  have hpairs : (defaultedScalar tg key name codec c h isText code g e).writer.pairs a =
      if h.passes name a g then [(key, c.encode a)] else [] := rfl
  have hread (q : Query) : (defaultedScalar tg key name codec c h isText code g e).reader.run q =
      ((readerCall tg key codec c).run q).map fun o => o.getD (h.value e) := rfl
  constructor
  · intro hconveys
    have homits := hconveys.omits
    rw [hpairs] at homits
    by_cases hg : h.passes name a g = true
    · rw [if_pos hg] at homits
      exact iff_of_true hg fun heq => List.cons_ne_nil _ _ (homits.2 heq)
    · rw [if_neg hg] at homits
      exact iff_of_false hg (not_not_intro (homits.1 rfl))
  · intro hcompares
    by_cases hg : h.passes name a g = true
    · have hne := hcompares.1 hg
      rw [if_pos hg] at hpairs
      refine ⟨?_, ?_, Or.inr ⟨_, hpairs⟩⟩
      · rw [hread, hpairs, run_readerCall_pushed tg key codec c hothers ha]
        rfl
      · rw [hpairs]
        exact iff_of_false (List.cons_ne_nil _ _) hne
    · have heq : a = h.value e := by
        by_contra hne
        exact hg (hcompares.2 hne)
      rw [if_neg hg] at hpairs
      refine ⟨?_, ?_, Or.inl hpairs⟩
      · rw [hread, hpairs, run_readerCall_nil tg key codec c hothers, heq]
        rfl
      · rw [hpairs]
        exact iff_of_true rfl heq

end Scalar

/-- The body of the statement that adds a single value. -/
def scalarBody (tg : Target) (b : Binding) (name : String) (codec : Codec) : Code :=
  QueryForm.pushPair (str (tg.settings.queryKey b.name)) codec (refer (selfField name))

/-- A single value in the query is conveyed just if the emitted code tells it from its default,
which it does for every value where it compares with the whole default. A value without default is
always conveyed. -/
theorem scalar_conveys_iff {template? : Option PathTemplate} {payload : String}
    {declared place : Place} {p : Parameter} {b : Binding}
    (hbind : bind? template? payload declared p = .ok b) (hquery : b.carrier = .query)
    {tg : Target} {codec : Codec} {fallback : Fallback} {isText : Bool}
    (hform : QueryForm.ofBinding tg.catalog (place.parameter b.name) b =
      .ok (.scalar codec fallback isText))
    {name : String} (hname : identifier (place.parameter b.name) b.name = .ok name)
    (c : Conversion α) (h : Host α) (s : Held α fallback) (hs : fallback.Carries c s)
    {before after : List (String × String)}
    (hothers : ∀ q ∈ before ++ after, q.1 ≠ tg.settings.queryKey b.name) :
    fallback.Suits b ∧
      ((∃ m, scalarMeaning? tg (tg.settings.queryKey b.name) name codec c h isText fallback =
          some m ∧ m.IsEmitted place b ∧ m.Conveys before after s (fallback.Omits h s)) ↔
        fallback.Compares h name (scalarBody tg b name codec) s) ∧
      (h.IsLawful → fallback.IsWhole name (scalarBody tg b name codec) →
        fallback.Compares h name (scalarBody tg b name codec) s) := by
  refine ⟨suits_of_bind hbind hquery hform, ?_, fun hlawful hwhole =>
    Fallback.compares_of_isWhole hlawful hwhole s⟩
  cases fallback with
  | absent =>
    refine iff_of_true ⟨_, rfl, isEmitted hquery hform hname _, ?_⟩ trivial
    exact conveys_nullableScalar tg _ name codec c hothers isText s hs
  | missing =>
    refine iff_of_true ⟨_, rfl, isEmitted hquery hform hname _, ?_⟩ trivial
    exact conveys_requiredScalar tg _ name codec c hothers isText s hs
  | default code =>
    constructor
    · rintro ⟨m, hm, -, hconveys⟩
      obtain ⟨g, hg, hm⟩ := Option.bind_eq_some_iff.1 hm
      obtain ⟨e, he, hm⟩ := Option.bind_eq_some_iff.1 hm
      cases hm
      rw [Fallback.omits_default he] at hconveys
      exact ⟨g, e, hg, he,
        (conveys_defaultedScalar_iff tg _ name codec c hothers isText h code g e s hs).1 hconveys⟩
    · rintro ⟨g, e, hg, he, hcompares⟩
      refine ⟨defaultedScalar tg _ name codec c h isText code g e, ?_,
        isEmitted hquery hform hname _, ?_⟩
      · exact Option.bind_eq_some_iff.2 ⟨g, hg, Option.bind_eq_some_iff.2 ⟨e, he, rfl⟩⟩
      · rw [Fallback.omits_default he]
        exact (conveys_defaultedScalar_iff tg _ name codec c hothers isText h code g e s hs).2
          hcompares

/-! ### A truth value with a default -/

/-- A truth value with a default expression. -/
def flagParameter (default : String) : Parameter :=
  (Parameter.byName "exact" (.named "bool")).withDefault default

def flagConversion : Conversion Bool where
  encode b := if b then "true" else "false"
  decode
    | "true" => some true
    | "false" => some false
    | _ => none

/-- The two truth values as expressions; any other expression is false. -/
def flagHost : Host Bool where
  value
    | .literal "true" => true
    | _ => false
  differs a b := a ≠ b
  truth _ _ := false

/-- A truth value other than its default `false` is conveyed beside another parameter. -/
theorem conveys_flag :
    ∃ m, scalarMeaning? bareTarget (bareTarget.settings.queryKey "exact") "exact" .bool
        flagConversion flagHost false (.default (word "false")) = some m ∧
      m.IsEmitted barePlace (bareBinding (flagParameter "false")) ∧
      m.Conveys [("q", "a&b")] [] true
        (Fallback.Omits flagHost (.default (word "false")) true) := by
  have hbind : bind? none "extra" barePlace (flagParameter "false") =
      .ok (bareBinding (flagParameter "false")) := bind_bare (by decide)
  have hform : QueryForm.ofBinding bareTarget.catalog (barePlace.parameter "exact")
      (bareBinding (flagParameter "false")) = .ok (.scalar .bool (.default (word "false")) false) :=
    rfl
  have hname : identifier (barePlace.parameter "exact") "exact" = .ok "exact" := rfl
  have hkey : bareTarget.settings.queryKey "exact" = "exact" := by decide
  have hothers : ∀ q ∈ [("q", "a&b")] ++ [], q.1 ≠ bareTarget.settings.queryKey "exact" := by
    rw [hkey]
    decide
  have hpasses : (guard? (QueryForm.unlessDefault (selfField "exact") (word "false")
      (scalarBody bareTarget (bareBinding (flagParameter "false")) "exact" .bool))).map
        (flagHost.passes "exact" true) = some true := by
    decide +kernel
  obtain ⟨g, hg, hpass⟩ := Option.map_eq_some_iff.1 hpasses
  have hconveys := scalar_conveys_iff hbind rfl hform hname flagConversion flagHost true rfl hothers
  have hne : true ≠ flagHost.value (.literal "false") := by decide
  exact hconveys.2.1.2 ⟨g, .literal "false", hg, rfl, iff_of_true hpass hne⟩

/-- With the default `true && false` only `true` is compared, and no value passes. -/
example (b : Bool) :
    (guard? (QueryForm.unlessDefault (selfField "exact") (word "true" ++ op "&&" ++ word "false")
      (scalarBody bareTarget (bareBinding (flagParameter "true && false")) "exact" .bool))).map
        (flagHost.passes "exact" b) = some false := by
  cases b <;> decide +kernel

end TypedRoutes.Emission
