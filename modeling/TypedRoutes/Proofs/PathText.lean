import TypedRoutes.Proofs.FilledTemplate
import TypedRoutes.Proofs.Locals
import TypedRoutes.Proofs.Quoted

/-!
# The text of a path in emitted code

* `formatted?` : the text of a format string, where a scope gives the values of variables;
* `formatted?_formatText` : the format string of a path is filled in as its template is;
* `exprOf?_literal`, `exprOf?_format` : the code of a path as the grammar reads it;
* `substitute_literalText` : a template without parameters is its own path;
* `formatted_pathCode` : the code of a path comes to the path of the template, whatever its
  parameters are bound to.
-/

namespace TypedRoutes.Emission

open Syntax Code

/-! ## Format strings that are filled in -/

/-- The values of variables. -/
abbrev Scope := String → Option String

def FormatItem.text? (scope : Scope) : FormatItem → Option String
  | .char c => some (String.singleton c)
  | .variable name => scope name

/-- The text of the items of a format string. -/
def filledItems? (scope : Scope) (items : List FormatItem) : Option String :=
  (items.mapM (FormatItem.text? scope)).map String.join

/-- The text of a format string. -/
def formatted? (scope : Scope) (text : String) : Option String :=
  (readFormat text).bind (filledItems? scope)

section Items

variable (scope : Scope)

theorem filledItems?_cons (item : FormatItem) (items : List FormatItem) :
    filledItems? scope (item :: items) =
      (item.text? scope).bind fun s => (filledItems? scope items).map (s ++ ·) := by
  unfold filledItems?
  rw [List.mapM_cons]
  cases item.text? scope with
  | none => rfl
  | some s => cases items.mapM (FormatItem.text? scope) <;> simp

theorem filledItems?_chars (cs : List Char) (items : List FormatItem) :
    filledItems? scope (cs.map .char ++ items) =
      (filledItems? scope items).map (String.ofList cs ++ ·) := by
  induction cs with
  | nil => simp
  | cons c cs ih =>
    have htext : String.ofList (c :: cs) = String.singleton c ++ String.ofList cs := by
      rw [← String.toList_inj]
      simp
    rw [List.map_cons, List.cons_append, filledItems?_cons, ih, htext]
    cases filledItems? scope items with
    | none => rfl
    | some s => simp [FormatItem.text?, String.append_assoc]

/-- The format string of a path is filled in as its template is, from the variables of the
parameters. -/
theorem formatted?_formatText {t : PathTemplate} (hvalid : ∀ s ∈ t.segments, s.Valid) :
    formatted? scope (formatText t.segments) =
      (t.substitute fun n => scope (localName n)).toOption := by
  rw [formatted?, readFormat_formatText hvalid]
  unfold PathTemplate.substitute
  dsimp only [Option.bind_some]
  induction t.segments with
  | nil => rfl
  | cons s segments ih =>
    rw [List.flatMap_cons]
    cases s with
    | literal text =>
      rw [formatItems, filledItems?_chars, ih, PathTemplate.render, String.ofList_toList]
      cases PathTemplate.render id _ segments <;> rfl
    | parameter n constraint =>
      rw [formatItems, List.singleton_append, filledItems?_cons, ih, PathTemplate.render]
      cases hn : scope (localName n) with
      | none =>
        simp only [FormatItem.text?, hn, Option.bind_none]
        rfl
      | some v =>
        simp only [FormatItem.text?, hn, Option.bind_some]
        cases PathTemplate.render id _ segments <;> rfl

end Items

/-! ## Templates without parameters -/

/-- A template without parameters is its own path. -/
theorem substitute_literalText {t : PathTemplate} (h : t.names = [])
    (value : String → Option String) : t.substitute value = .ok (literalText t.segments) :=
  render_literalText h _

/-! ## The code of a path -/

theorem exprOf?_literal (l : String) : exprOf? [.literal l] = some (.literal l) := rfl

/-- A reference to a text that is formatted by a literal. -/
def formatCall (l : String) : Expr :=
  .reference false (.invocation ⟨⟨true, ["std", "format"]⟩, .paren, [.literal l]⟩)

theorem exprOf?_format (l : String) :
    exprOf? (refer (invoke (path ["std", "format"]) (parens [.literal l]))) =
      some (formatCall l) := rfl

/-- A location is written of the code of its path, which the grammar reads as follows. With parameters
it formats a literal, and wherever the variables of the parameters have values, the format string
comes to the path of the template for these values. Without parameters it is a literal, which
stands for the path that the template has without any values. -/
theorem formatted_pathCode {text : String} {t : PathTemplate} (h : PathTemplate.parse text = .ok t) :
    (∀ (tg : Target) (place : Place) (n : Node) (code : Code),
      locationFunction tg place n t = .ok code →
        ∃ body : Body,
          code = publicFunction (word "location") [refer (word "self")] stringType body.code ∧
          body.value = call (tg.name ["location"]) [pathCode t, refer (word "__query")]) ∧
    (t.names ≠ [] → ∃ l format, exprOf? (pathCode t) = some (formatCall l) ∧
      Literal.textValue? l = some format ∧
      ∀ (scope : Scope) (value : String → String),
        (∀ n ∈ t.names, scope (localName n) = some (value n)) →
          ∃ p, t.substitute (fun n => some (value n)) = .ok p ∧ formatted? scope format = some p) ∧
    (t.names = [] → ∃ l p, exprOf? (pathCode t) = some (.literal l) ∧
      Literal.textValue? l = some p ∧ t.substitute (fun _ => none) = .ok p) := by
  refine ⟨?_, ?_, ?_⟩
  · intro tg place n code hcode
    obtain ⟨body, hbody, hvalue, -⟩ := locationFunction_ok hcode
    exact ⟨body, hbody, hvalue⟩
  · intro hnames
    have hcode : pathCode t =
        refer (invoke (path ["std", "format"]) (parens (str (formatText t.segments)))) := by
      rw [pathCode, if_neg (by simpa using hnames)]
    refine ⟨Text.Quoted.encode (formatText t.segments), formatText t.segments, ?_,
      Literal.textValue?_encode _, ?_⟩
    · rw [hcode]
      exact exprOf?_format _
    · intro scope value hscope
      have hagree : t.substitute (fun n => scope (localName n)) =
          t.substitute fun n => some (value n) := PathTemplate.substitute_congr hscope
      have hpath : t.substitute (fun n => some (value n)) = .ok _ :=
        PathTemplate.substitute_eq_ok_iff.2 ⟨fun n _ => rfl, rfl⟩
      refine ⟨_, hpath, ?_⟩
      rw [formatted?_formatText scope (PathTemplate.canonical_of_parse h).1.valid, hagree, hpath]
      rfl
  · intro hnames
    have hcode : pathCode t = str (literalText t.segments) := by
      rw [pathCode, if_pos (by simpa using hnames)]
    refine ⟨Text.Quoted.encode (literalText t.segments), literalText t.segments, ?_,
      Literal.textValue?_encode _, substitute_literalText hnames _⟩
    rw [hcode]
    exact exprOf?_literal _

/-! ### Braces beside parameters -/

/-- A template with braces on both sides of its parameters. -/
def bracedTemplate : PathTemplate where
  text := "/\x7b:id\x7d\x7d:tab(\\d)\x7b"
  segments := [.literal "/\x7b", .parameter "id" none, .literal "\x7d\x7d",
    .parameter "tab" (some "\\d"), .literal "\x7b"]

/-- The values of the variables behind another one of that scope. -/
def bracedScope : Scope := fun name =>
  [("__query", "?"), ("__id", "\x7b__tab\x7d"), ("__tab", "\x7d")].lookup name

/-- Braces in values stay as they are, and so do those of a template without parameters. -/
theorem formatted_pathCode_braced :
    PathTemplate.parse bracedTemplate.text = .ok bracedTemplate ∧ bracedTemplate.names ≠ [] ∧
      (∀ n ∈ bracedTemplate.names,
        bracedScope (localName n) = some (if n = "id" then "\x7b__tab\x7d" else "\x7d")) ∧
      (∃ l, exprOf? (pathCode bracedTemplate) = some (formatCall l) ∧
        ((Literal.textValue? l).bind (formatted? bracedScope)) =
          some "/\x7b\x7b__tab\x7d\x7d\x7d\x7d\x7b") ∧
      ∃ t l, PathTemplate.parse "/\x7b\x7d" = .ok t ∧ exprOf? (pathCode t) = some (.literal l) ∧
        Literal.textValue? l = some "/\x7b\x7d" := by
  have hparse : PathTemplate.parse bracedTemplate.text = .ok bracedTemplate := by cbv
  have hnames : bracedTemplate.names ≠ [] := by decide
  have hscope : ∀ n ∈ bracedTemplate.names,
      bracedScope (localName n) = some (if n = "id" then "\x7b__tab\x7d" else "\x7d") := by
    decide
  have hbare : PathTemplate.parse "/\x7b\x7d" = .ok ⟨"/\x7b\x7d", [.literal "/\x7b\x7d"]⟩ := by cbv
  obtain ⟨-, hformat, -⟩ := formatted_pathCode hparse
  obtain ⟨l, format, hcode, hvalue, hfilled⟩ := hformat hnames
  obtain ⟨p, hp, htext⟩ := hfilled bracedScope _ hscope
  obtain ⟨-, -, hliteral⟩ := formatted_pathCode hbare
  obtain ⟨l', p', hcode', hvalue', hp'⟩ := hliteral (by decide)
  obtain ⟨-, rfl⟩ := PathTemplate.substitute_eq_ok_iff.1 hp
  obtain ⟨-, rfl⟩ := PathTemplate.substitute_eq_ok_iff.1 hp'
  refine ⟨hparse, hnames, hscope, ⟨l, hcode, ?_⟩, _, l', hbare, hcode', hvalue'.trans ?_⟩
  · rw [hvalue, Option.bind_some, htext]
    decide
  · decide

end TypedRoutes.Emission
