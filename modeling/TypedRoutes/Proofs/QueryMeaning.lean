import TypedRoutes.Emission.Route
import TypedRoutes.Proofs.Binding
import TypedRoutes.Proofs.Fragment
import TypedRoutes.Proofs.Outcome

/-!
# The meaning of a parameter in the query

* `guard?` : when the body of an emitted conditional runs, as the grammar reads it;
* `Held` : what the field of a parameter holds, by what stands in for an absent one;
* `Meaning` : the meanings of the code that adds a parameter to the query and that reads it;
* `scalarMeaning?`, `listMeaning?` : the meaning of each form, if its code has one;
* `writeQuery_eq`, `readBinding_eq` : a meaning is that of the emitted code;
* `Fallback.Suits`, `suits_of_bind` : what stands in for a parameter that is bound.
-/

namespace TypedRoutes.Emission

open Syntax Code Navigation

variable {α σ : Type}

/-! ## Conditionals -/

/-- When the last block of some statements runs. -/
inductive Guard
  | test (e : Expr)
  | always

/-- When the last block of a piece of code runs, as the grammar reads the code: on the test of the
conditional that it belongs to, or always behind a conditional that has taken an earlier block. -/
def guard? (code : Code) : Option Guard :=
  match exprOf? (braces code) with
  | some (.block none [.expr (.cond test _ none) _]) => some (.test test)
  | some (.block none [.expr (.cond _ [] none) _, .expr (.block none _) _]) => some .always
  | _ => none

/-- Whether an expression is a field of the value at hand. -/
def isField (name : String) : Expr → Bool
  | .field (.path (.mk none 0 false [.plain owner])) member => owner = "self" && member = name
  | _ => false

/-- What the host's expressions come to. -/
structure Host (σ : Type) where
  /-- The value of an expression that a field is compared with. -/
  value : Expr → σ
  /-- The comparison of two values by `!=`. -/
  differs : σ → σ → Bool
  /-- The truth of any other test, by the value of the field. -/
  truth : Expr → σ → Bool

namespace Host

/-- The comparison tells apart just what is not equal. -/
def IsLawful (h : Host σ) : Prop :=
  ∀ a b, h.differs a b = true ↔ a ≠ b

/-- Whether a test holds where a field has a value. -/
def holds (h : Host σ) (name : String) (s : σ) : Expr → Bool
  | .literal "true" => true
  | .literal "false" => false
  | .binary l op r =>
    if op = "&&" then h.holds name s l && h.holds name s r
    else if op = "||" then h.holds name s l || h.holds name s r
    else if op = "!=" ∧ isField name l then h.differs s (h.value r)
    else h.truth (.binary l op r) s
  | e => h.truth e s

def passes (h : Host σ) (name : String) (s : σ) : Guard → Bool
  | .test e => h.holds name s e
  | .always => true

/-- A comparison of the field with an expression holds for every value but the one of the
expression. -/
theorem holds_ne {h : Host σ} (hlawful : h.IsLawful) {name : String} {l : Expr}
    (hl : isField name l) (r : Expr) (s : σ) :
    h.holds name s (.binary l "!=" r) = true ↔ s ≠ h.value r := by
  rw [← hlawful]
  simp [holds, hl]

end Host

/-! ## Meanings -/

/-- The field that holds a parameter. -/
def selfField (name : String) : Code :=
  Code.field (word "self") name

/-- What the field of a parameter holds, for values of type `α`. -/
abbrev Held (α : Type) : Fallback → Type
  | .absent => Option α
  | _ => α

/-- The meanings of the code that adds a parameter to the query and that reads it. -/
structure Meaning (tg : Target) (key name : String) (form : QueryForm) (σ : Type) where
  writer : Step σ
  reader : Action Query σ
  writer_code : writer.code = form.pushCode (str key) (selfField name)
  reader_code : reader.code = form.readCode tg (str key)

/-- The field of the value at hand. -/
def self (name : String) : Term σ σ where
  code := selfField name
  value := id

section Forms

variable (tg : Target) (key name : String) (codec : Codec) (c : Conversion α)

/-- Add a pair for a single value. -/
def pushOne {Γ : Type} (t : Term Γ α) : Step Γ :=
  .push (.literal key) (.encoded codec c t)

/-- Add a pair for each value of a list. -/
def pushAll {Γ : Type} (t : Term Γ (List α)) : Step Γ :=
  .forEach "__value" t (pushOne key codec c (.var "__value" (·.1)))

/-- Statements that run unless a field has its default, as the grammar reads them. -/
def unlessDefault (h : Host σ) (default : Code) (g : Guard) (body : Step σ) :
    Step σ where
  code := QueryForm.unlessDefault (selfField name) default body.code
  pairs s := if h.passes name s g then body.pairs s else []

/-- A default as an expression; a borrowed text is made an owned one. -/
def defaultTerm (h : Host σ) (code : Code) (e : Expr) (isText : Bool) : Term Query σ where
  code := if isText then stringOf code else code
  value _ := h.value e

/-! ### Single values -/

/-- The meaning of a nullable value. -/
def nullableScalar (isText : Bool) :
    Meaning tg key name (.scalar codec .absent isText) (Option α) where
  writer := .whenPresent "__value" (.borrowed (self name))
    (pushOne key codec c (.var "__value" (·.1)))
  reader := readerCall tg key codec c
  writer_code := rfl
  reader_code := rfl

/-- The meaning of a value with a default, by when its conditional runs. -/
def defaultedScalar (h : Host α) (isText : Bool) (code : Code) (g : Guard)
    (e : Expr) : Meaning tg key name (.scalar codec (.default code) isText) α where
  writer := unlessDefault name h code g (pushOne key codec c (.borrowed (self name)))
  reader := .orElse (readerCall tg key codec c) (defaultTerm h code e isText)
  writer_code := rfl
  reader_code := rfl

/-- The meaning of a required value. -/
def requiredScalar (isText : Bool) : Meaning tg key name (.scalar codec .missing isText) α where
  writer := pushOne key codec c (.borrowed (self name))
  reader := .orLeave (readerCall tg key codec c) (.missing tg (.literal key))
  writer_code := rfl
  reader_code := rfl

/-- The meaning of a single value. The code of one with a default has a meaning if the grammar reads
the default and the conditional that compares with it. -/
def scalarMeaning? (h : Host α) (isText : Bool) : (fallback : Fallback) →
    Option (Meaning tg key name (.scalar codec fallback isText) (Held α fallback))
  | .absent => some (nullableScalar tg key name codec c isText)
  | .default code => do
    let g ← guard? (QueryForm.unlessDefault (selfField name) code
      (QueryForm.pushPair (str key) codec (refer (selfField name))))
    let e ← exprOf? code
    some (defaultedScalar tg key name codec c h isText code g e)
  | .missing => some (requiredScalar tg key name codec c isText)

/-! ### Lists -/

/-- The meaning of a nullable list. -/
def nullableList : Meaning tg key name (.list codec .absent) (Option (List α)) where
  writer := .whenPresent "__values" (.borrowed (self name))
    (pushAll key codec c (.var "__values" (·.1)))
  reader := valuesCall tg key codec c
  writer_code := rfl
  reader_code := rfl

/-- The meaning of a list with a default, by when its conditional runs. -/
def defaultedList (h : Host (List α)) (code : Code) (g : Guard) (e : Expr) :
    Meaning tg key name (.list codec (.default code)) (List α) where
  writer := unlessDefault name h code g (pushAll key codec c (.borrowed (self name)))
  reader := .orElse (valuesCall tg key codec c) (defaultTerm h code e false)
  writer_code := rfl
  reader_code := rfl

/-- The meaning of any other list. -/
def plainList : Meaning tg key name (.list codec .missing) (List α) where
  writer := pushAll key codec c (.borrowed (self name))
  reader := .orEmpty (valuesCall tg key codec c)
  writer_code := rfl
  reader_code := rfl

/-- The meaning of a list, if its code has one. -/
def listMeaning? (h : Host (List α)) : (fallback : Fallback) →
    Option (Meaning tg key name (.list codec fallback) (Held (List α) fallback))
  | .absent => some (nullableList tg key name codec c)
  | .default code => do
    let g ← guard? (QueryForm.unlessDefault (selfField name) code
      (QueryForm.pushEach (str key) codec (refer (selfField name))))
    let e ← exprOf? code
    some (defaultedList tg key name codec c h code g e)
  | .missing => some (plainList tg key name codec c)

end Forms

/-! ## The emitted code -/

section Emitted

variable {tg : Target} {place : Place} {b : Binding} {form : QueryForm}

theorem writeQuery_eq {n : Node} {name : String} (hfield : (n.field? b.name).isSome)
    (hname : identifier (place.parameter b.name) b.name = .ok name)
    (hform : QueryForm.ofBinding tg.catalog (place.parameter b.name) b = .ok form) :
    writeQuery tg place n b =
      .ok (form.pushCode (str (tg.settings.queryKey b.name)) (selfField name)) := by
  obtain ⟨f, hf⟩ := Option.isSome_iff_exists.1 hfield
  have hbacking : backingField (place.parameter b.name) n b.name = .ok f := by
    rw [backingField, hf]
  unfold writeQuery
  simp only [hbacking, hname, hform]
  rfl

theorem readBinding_eq (hquery : b.carrier = .query)
    (hform : QueryForm.ofBinding tg.catalog place b = .ok form) :
    readBinding tg place b = .ok (form.readCode tg (str (tg.settings.queryKey b.name))) := by
  unfold readBinding
  simp only [hquery, hform]
  rfl

end Emitted

/-! ## What stands in for a parameter -/

def QueryForm.fallback : QueryForm → Fallback
  | .scalar _ fallback _ => fallback
  | .list _ fallback => fallback

/-- What stands in for an absent parameter that may be nullable or have a default, but not both. -/
def Fallback.Suits (b : Binding) : Fallback → Prop
  | .absent => b.type.nullable = true ∧ b.default? = none
  | .default code => b.type.nullable = false ∧ b.default?.bind exprTokens? = some code
  | .missing => b.type.nullable = false ∧ b.default? = none

theorem fallback_ofBinding {catalog : Catalog} {place : Place} {b : Binding} {form : QueryForm}
    (h : QueryForm.ofBinding catalog place b = .ok form) :
    ∃ default?, defaultCode place b = .ok default? ∧
      form.fallback = if b.type.nullable then .absent
        else match default? with
          | some code => .default code
          | none => .missing := by
  unfold QueryForm.ofBinding at h
  obtain ⟨default?, hdefault, h⟩ := bind_eq_ok.1 h
  refine ⟨default?, hdefault, ?_⟩
  dsimp only at h
  split at h
  · obtain ⟨codec, -, h⟩ := bind_eq_ok.1 h
    rw [← pure_eq_ok.1 h]
    rfl
  · obtain ⟨codec, -, h⟩ := bind_eq_ok.1 h
    rw [← pure_eq_ok.1 h]
    rfl

/-- A binding in the query is not both nullable and defaulted. -/
theorem not_nullable_of_bind {template? : Option PathTemplate} {payload : String} {place : Place}
    {p : Parameter} {b : Binding} (h : bind? template? payload place p = .ok b)
    (hquery : b.carrier = .query) (hdefault : b.default?.isSome) : b.type.nullable = false := by
  obtain ⟨hfault, rfl⟩ := bind?_eq_ok_iff.1 h
  obtain ⟨-, -, hcarrier, -⟩ := parameterFault?_eq_none_iff.1 hfault
  rw [Bool.eq_false_iff]
  exact fun hnullable => (suits_query hquery hcarrier).1 ⟨hnullable, hdefault⟩

theorem suits_of_bind {template? : Option PathTemplate} {payload : String} {place place' : Place}
    {p : Parameter} {b : Binding} {catalog : Catalog} {form : QueryForm}
    (h : bind? template? payload place p = .ok b) (hquery : b.carrier = .query)
    (hform : QueryForm.ofBinding catalog place' b = .ok form) : form.fallback.Suits b := by
  obtain ⟨default?, hcode, hfallback⟩ := fallback_ofBinding hform
  rw [hfallback]
  unfold defaultCode at hcode
  cases hdefault : b.default? with
  | none =>
    rw [hdefault] at hcode
    cases hcode
    by_cases hnullable : b.type.nullable = true
    · rw [if_pos hnullable]
      exact ⟨hnullable, hdefault⟩
    · rw [if_neg hnullable]
      exact ⟨Bool.eq_false_iff.2 hnullable, hdefault⟩
  | some e =>
    have hnullable := not_nullable_of_bind h hquery (by rw [hdefault]; rfl)
    rw [hdefault] at hcode
    dsimp only at hcode
    split at hcode
    · next code hcode' =>
      cases hcode
      rw [hnullable, if_neg Bool.false_ne_true]
      exact ⟨hnullable, by rw [hdefault]; exact hcode'⟩
    · cases hcode

end TypedRoutes.Emission
