import TypedRoutes.Proofs.Query
import TypedRoutes.Proofs.QueryMeaning

/-!
# Parameters among others in the query

* `queryAround` : the query that is read where a parameter's pairs are written among others;
* `lookup_first_around`, `lookup_all_around` : what it has under the parameter's key;
* `Meaning.IsEmitted` : a meaning is that of the code that is emitted for a parameter;
* `Fallback.Compares` : the emitted comparison tells a value from the default;
* `Fallback.IsWhole` : it compares with the whole default, and so tells every value from it.
-/

namespace TypedRoutes.Emission

open Syntax Code Navigation

variable {α σ : Type}

/-! ## Queries with other pairs -/

/-- The query that is read where pairs are written among others. -/
def queryAround (before after pairs : List (String × String)) : Query :=
  Query.parse (queryText (before ++ pairs ++ after)).toList

section Around

variable {key : String} {before after : List (String × String)}

theorem valuesOf_around (h : ∀ p ∈ before ++ after, p.1 ≠ key) (pairs : List (String × String)) :
    valuesOf key (before ++ pairs ++ after) = valuesOf key pairs := by
  have hbefore : valuesOf key before = [] :=
    valuesOf_eq_nil fun p hp => h p (List.mem_append_left _ hp)
  have hafter : valuesOf key after = [] :=
    valuesOf_eq_nil fun p hp => h p (List.mem_append_right _ hp)
  rw [valuesOf_append, valuesOf_append, hbefore, hafter, List.nil_append, List.append_nil]

theorem lookup_first_around (h : ∀ p ∈ before ++ after, p.1 ≠ key)
    (pairs : List (String × String)) :
    (queryAround before after pairs).first.lookup key = (valuesOf key pairs).head? := by
  rw [queryAround, Query.lookup_first_parse, valuesOf_around h]

theorem lookup_all_around (h : ∀ p ∈ before ++ after, p.1 ≠ key)
    (pairs : List (String × String)) :
    (queryAround before after pairs).all.lookup key =
      if valuesOf key pairs = [] then none else some (valuesOf key pairs) := by
  rw [queryAround, Query.lookup_all_parse, valuesOf_around h]

end Around

/-! ## Emitted code -/

/-- A meaning is that of the code that is emitted for a bound parameter. -/
structure Meaning.IsEmitted {tg : Target} {key name : String} {form : QueryForm}
    (m : Meaning tg key name form σ) (place : Place) (b : Binding) : Prop where
  write : ∀ n : Node, (n.field? b.name).isSome → writeQuery tg place n b = .ok m.writer.code
  read : readBinding tg (place.parameter b.name) b = .ok m.reader.code

theorem isEmitted {tg : Target} {name : String} {form : QueryForm} {place : Place} {b : Binding}
    (hquery : b.carrier = .query)
    (hform : QueryForm.ofBinding tg.catalog (place.parameter b.name) b = .ok form)
    (hname : identifier (place.parameter b.name) b.name = .ok name)
    (m : Meaning tg (tg.settings.queryKey b.name) name form σ) : m.IsEmitted place b where
  write n hn := by rw [writeQuery_eq hn hname hform, m.writer_code]
  read := by rw [readBinding_eq hquery hform, m.reader_code]

/-! ## What stands in for an absent parameter -/

namespace Fallback

/-- The emitted comparison tells what a field holds from the default, if there is one. -/
def Compares (h : Host σ) (name : String) (body : Code) :
    (fallback : Fallback) → Held σ fallback → Prop
  | .default code, s => ∃ g e,
    guard? (QueryForm.unlessDefault (selfField name) code body) = some g ∧
      exprOf? code = some e ∧ (h.passes name s g = true ↔ s ≠ h.value e)
  | _, _ => True

/-- The emitted comparison is read as one of the field with the whole default. -/
def IsWhole (name : String) (body : Code) : Fallback → Prop
  | .default code => ∃ l e, isField name l = true ∧ exprOf? code = some e ∧
    guard? (QueryForm.unlessDefault (selfField name) code body) = some (.test (.binary l "!=" e))
  | _ => True

/-- A comparison with the whole default tells every value from it. -/
theorem compares_of_isWhole {h : Host σ} (hlawful : h.IsLawful) {name : String} {body : Code}
    {fallback : Fallback} (hwhole : fallback.IsWhole name body) (s : Held σ fallback) :
    fallback.Compares h name body s := by
  cases fallback with
  | absent => trivial
  | missing => trivial
  | default code =>
    obtain ⟨l, e, hl, he, hg⟩ := hwhole
    exact ⟨_, e, hg, he, Host.holds_ne hlawful hl e s⟩

end Fallback

/-! ## Bindings by name alone -/

/-- A target without types of its own. -/
def bareTarget : Target where
  catalog := .empty
  settings := {}
  runtime := path ["route_runtime"]

def barePlace : Place where
  declaration := "A"

/-- A parameter outside any template, as it is bound. -/
def bareBinding (p : Parameter) : Binding :=
  .ofParameter none "extra" p

theorem bind_bare {p : Parameter} (h : (parameterFault? none "extra" p).isNone = true) :
    bind? none "extra" barePlace p = .ok (bareBinding p) :=
  bind?_eq_ok_iff.2 ⟨Option.isNone_iff_eq_none.1 h, rfl⟩

end TypedRoutes.Emission
