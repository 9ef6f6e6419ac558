import TypedRoutes.Emission.Route
import TypedRoutes.Proofs.GrammarLevels
import TypedRoutes.Proofs.Precedence
import TypedRoutes.Proofs.QueryParameter
import TypedRoutes.Proofs.RouteReader

/-!
# The comparison with a default

* `readExpr_ne` : what begins as a comparison of a field has an operand behind it and may go on;
* `condition?` : the condition that the grammar reads in a conditional, and what it leaves;
* `ComparesWhole` : the condition of an emitted conditional is the comparison with all of a default;
* `operand_of_comparesWhole`, `comparesWhole_of_simple` : which defaults are compared as a whole;
* `location_compares_default` : the conditional of a parameter among the statements of its location.

A default stands behind the comparison without parentheses. An operator in it that binds no tighter
takes the comparison as its operand, and a record in it is cut at its braces.
-/

namespace TypedRoutes.Emission

open Syntax Code
open Parse (bind_apply bind_eq_some all_eq_some)

/-! ## Conditions that begin with a field -/

/-- The value at hand as an expression. -/
def selfExpr : Expr :=
  .path (.mk none 0 false [.plain "self"])

section Reading

variable {g : Grammar} {name : String} (hname : isIdentifier name = true) (rest : Code)

include hname

theorem dotted_name (e : Expr) :
    g.dotted e (word name ++ (op "!=" ++ rest)) = some (.field e name, op "!=" ++ rest) := by
  have hawait : name ≠ "await" := by
    rintro rfl
    exact absurd hname (by decide)
  have hword : Parse.word? "await" (word name ++ (op "!=" ++ rest)) =
      some (false, word name ++ (op "!=" ++ rest)) :=
    if_neg fun h => hawait (of_decide_eq_true h)
  have hmember : Parse.member (word name ++ (op "!=" ++ rest)) = some (name, op "!=" ++ rest) :=
    if_pos hname
  exact bind_eq_some.2 ⟨false, _, hword, bind_eq_some.2 ⟨true, _, rfl,
    bind_eq_some.2 ⟨name, _, hmember, rfl⟩⟩⟩

theorem trailers_self :
    g.trailers selfExpr (op "." ++ (word name ++ (op "!=" ++ rest))) =
      some (.field selfExpr name, op "!=" ++ rest) := by
  have hdot : g.trailer? selfExpr (op "." ++ (word name ++ (op "!=" ++ rest))) =
      some (some (.field selfExpr name), op "!=" ++ rest) :=
    bind_eq_some.2 ⟨_, _, rfl, bind_eq_some.2 ⟨(), _, rfl,
      bind_eq_some.2 ⟨_, _, dotted_name hname rest selfExpr, rfl⟩⟩⟩
  have hstop : g.trailer? (.field selfExpr name) (op "!=" ++ rest) = some (none, op "!=" ++ rest) :=
    rfl
  exact bind_eq_some.2 ⟨_, _, rfl, bind_eq_some.2 ⟨_, _, hdot, bind_eq_some.2 ⟨_, _, hstop, rfl⟩⟩⟩

theorem readUnary_selfField :
    g.readUnary false (selfField name ++ (op "!=" ++ rest)) =
      some (.field selfExpr name, op "!=" ++ rest) := by
  have hattrs : g.outerAttrs (selfField name ++ (op "!=" ++ rest)) =
      some ([], selfField name ++ (op "!=" ++ rest)) := rfl
  have hatom : g.atom false (selfField name ++ (op "!=" ++ rest)) =
      some (selfExpr, op "." ++ (word name ++ (op "!=" ++ rest))) := rfl
  refine bind_eq_some.2 ⟨_, _, hattrs, bind_eq_some.2 ⟨_, _, rfl,
    bind_eq_some.2 ⟨false, _, rfl, ?_⟩⟩⟩
  exact bind_eq_some.2 ⟨_, _, hatom, bind_eq_some.2 ⟨_, _, trailers_self hname rest, rfl⟩⟩

/-- What begins as a comparison of a field has an operand behind it and may go on from there. -/
theorem readExpr_ne :
    g.readExpr false (selfField name ++ (op "!=" ++ rest)) =
      (g.operand false .compare rest).bind fun r =>
        g.climbFrom false .lowest (rest.length + 2) (.binary (.field selfExpr name) "!=" r.1)
          r.2 := by
  unfold Grammar.readExpr
  rw [bind_apply, readUnary_selfField hname, Option.bind_some]
  rfl

end Reading

/-! ## Conditionals that compare -/

/-- The condition that the grammar reads in a conditional, and what it leaves. -/
def condition? (code : Code) : Option (Expr × Code) :=
  (do Parse.word "if"; (grammar (levels code)).expr false : Parse Expr) code

/-- The condition of the conditional that is emitted for a default is the comparison of the field
with all of the default, and the statements for other values are its body. -/
def ComparesWhole (name : String) (default body : Code) (e : Expr) : Prop :=
  condition? (QueryForm.unlessDefault (selfField name) default body) =
    some (.binary (.field selfExpr name) "!=" e, braces body)

section Comparison

variable {name : String} {default body : Code} {e : Expr}

/-- The operand of the emitted comparison is read on levels that are enough for the default. -/
theorem condition?_unlessDefault (hname : isIdentifier name = true) (default body : Code) :
    ∃ n, levels default ≤ n + 1 ∧
      condition? (QueryForm.unlessDefault (selfField name) default body) =
        ((grammar (n + 1)).operand false .compare (default ++ braces body)).bind fun r =>
          (grammar (n + 1)).climbFrom false .lowest ((default ++ braces body).length + 2)
            (.binary (.field selfExpr name) "!=" r.1) r.2 := by
  have hcode : QueryForm.unlessDefault (selfField name) default body =
      word "if" ++ (selfField name ++ (op "!=" ++ (default ++ braces body))) := by
    simp only [QueryForm.unlessDefault, List.append_assoc]
  let count := Token.countAll (QueryForm.unlessDefault (selfField name) default body)
  have hcount : Token.countAll default + 1 ≤ count := by
    simp only [count, QueryForm.unlessDefault, countAll_append]
    have hword : Token.countAll (word "if") = 1 := rfl
    omega
  refine ⟨2 * count + 2, by unfold levels; omega, ?_⟩
  rw [← readExpr_ne hname]
  rw [hcode]
  rfl

/-- A default that is compared as a whole has no operator that binds as loosely as a comparison, and
no record outside of delimiters. -/
theorem operand_of_comparesWhole (hname : isIdentifier name = true)
    (h : ComparesWhole name default body e) : e.isLoose = false ∧ e.hasRecord = false := by
  obtain ⟨n, -, hread⟩ := condition?_unlessDefault hname default body
  obtain ⟨⟨e', rest⟩, he', h⟩ := Option.bind_eq_some_iff.1 (hread.symm.trans h)
  have hoperand : e'.IsOperand false := Grammar.operand_compare (n + 1) _ _ he'
  -- The field is no operation, so what is compared with it was read behind the first operator.
  have hextended : Expr.Extended (fun p => Prec.lowest.rank ≤ p.rank) (fun _ => True)
      (.binary (.field selfExpr name) "!=" e') (.binary (.field selfExpr name) "!=" e) :=
    Grammar.climbFrom_extended (fun _ => .trivial) _ _ _ _ h
  have heq : e' = e := by
    cases hextended with
    | refl => rfl
    | binary hfield => cases hfield
  rw [← heq]
  exact ⟨hoperand.tight, hoperand.fits rfl⟩

/-- A default of literals, paths, calls and what stands in delimiters is compared as a whole if its
operators bind more tightly than a comparison. -/
theorem comparesWhole_of_simple (hname : isIdentifier name = true) (he : exprOf? default = some e)
    (hsimple : e.isSimple = true) (htight : e.isLoose = false) :
    ComparesWhole name default body e := by
  obtain ⟨n, hlevels, hread⟩ := condition?_unlessDefault hname default body
  unfold ComparesWhole
  rw [hread]
  have hexpr : (grammar n).readExpr true default = some (e, []) :=
    ((Grammar.grammar_extends hlevels).expr true).reads (all_eq_some.1 he)
  have hoperand : (grammar n).readOperand true .compare default = some (e, []) :=
    Grammar.readOperand_of_readExpr hsimple htight hexpr
  have hahead : (grammar n).readOperand false .compare (default ++ braces body) =
      some (e, braces body) :=
    (Grammar.readOperand_alike .compare e [] hoperand hsimple).1
  refine Option.bind_eq_some_iff.2 ⟨_, hahead, ?_⟩
  rfl

end Comparison

/-! ## The statement of a parameter -/

/-- How a parameter is carried that has no default. -/
def QueryForm.withoutDefault : QueryForm → QueryForm
  | .scalar codec _ isText => .scalar codec .missing isText
  | .list codec _ => .list codec .missing

theorem pushCode_of_default {form : QueryForm} {code : Code} (h : form.fallback = .default code)
    (key field : Code) :
    form.pushCode key field =
      QueryForm.unlessDefault field code (form.withoutDefault.pushCode key field) := by
  cases form <;> cases h <;> rfl

theorem isIdentifier_of_identifier {place : Place} {text name : String}
    (h : identifier place text = .ok name) : isIdentifier name = true := by
  unfold identifier at h
  split at h
  · next n hparse =>
    cases h
    obtain ⟨ts, -, hident⟩ := Option.bind_eq_some_iff.1 hparse
    have hread := all_eq_some.1 hident
    unfold Parse.ident at hread
    split at hread
    · split at hread
      · cases hread
        assumption
      · cases hread
    · cases hread
  · cases h

theorem writeQuery_eq_ok {tg : Target} {place : Place} {n : Node} {b : Binding} {code : Code}
    (h : writeQuery tg place n b = .ok code) :
    ∃ name form, identifier (place.parameter b.name) b.name = .ok name ∧
      QueryForm.ofBinding tg.catalog (place.parameter b.name) b = .ok form ∧
      code = form.pushCode (str (tg.settings.queryKey b.name)) (selfField name) := by
  unfold writeQuery at h
  obtain ⟨_, -, h⟩ := bind_eq_ok.1 h
  obtain ⟨name, hname, h⟩ := bind_eq_ok.1 h
  obtain ⟨form, hform, h⟩ := bind_eq_ok.1 h
  exact ⟨name, form, hname, hform, (pure_eq_ok.1 h).symm⟩

/-- The location function has the statements of each parameter in the query. -/
theorem writeQuery_of_location {tg : Target} {place : Place} {n : Node} {t : PathTemplate}
    {location : Code} (h : locationFunction tg place n t = .ok location) {b : Binding}
    (hb : b ∈ Bindings.inQuery n.bindings) :
    ∃ code body, writeQuery tg place n b = .ok code ∧ code <:+: body ∧
      location = publicFunction (word "location") [refer (word "self")] stringType body := by
  unfold locationFunction at h
  obtain ⟨paths, -, h⟩ := bind_eq_ok.1 h
  obtain ⟨path, -, h⟩ := bind_eq_ok.1 h
  obtain ⟨queries, hqueries, h⟩ := bind_eq_ok.1 h
  obtain ⟨code, hcode, hwrite⟩ := exists_of_mapM_eq_ok hqueries b hb
  refine ⟨code, _, hwrite, ?_, (pure_eq_ok.1 h).symm⟩
  exact (List.infix_of_mem_flatten hcode).trans
    ((List.suffix_append _ _).isInfix.trans (List.prefix_append _ _).isInfix)

/-- A location has a conditional for a parameter, which compares the field with the default and
adds to the query what is added for a parameter without default. -/
structure ComparesDefault (tg : Target) (place : Place) (b : Binding) (location : Code)
    (name : String) (default body : Code) : Prop where
  named : identifier (place.parameter b.name) b.name = .ok name
  spelled : b.default?.bind exprTokens? = some default
  pushed : ∃ form, QueryForm.ofBinding tg.catalog (place.parameter b.name) b = .ok form ∧
    body = form.withoutDefault.pushCode (str (tg.settings.queryKey b.name)) (selfField name)
  placed : ∃ statements, QueryForm.unlessDefault (selfField name) default body <:+: statements ∧
    location = publicFunction (word "location") [refer (word "self")] stringType statements

/-- A default whose tokens are emitted as they are written is read from them. -/
theorem exprOf?_of_spelled {text : String} {code : Code} (h : exprTokens? text = some code)
    (hlex : lex text = some code) : (exprOf? code).isSome = true := by
  unfold exprTokens? at h
  obtain ⟨ts, hts, h⟩ := Option.bind_eq_some_iff.1 h
  obtain ⟨e, he, -⟩ := Option.bind_eq_some_iff.1 h
  obtain rfl := Option.some.inj (hts.symm.trans hlex)
  exact Option.isSome_iff_exists.2 ⟨e, he⟩

/-- The location function has a conditional for each parameter of the query with a default. If it
compares the field with all of the default, the default has no operator that binds as loosely as a
comparison and no record outside of delimiters. A default of literals, paths, calls and what stands
in delimiters is compared as a whole just if it has no such operator. -/
theorem location_compares_default {template? : Option PathTemplate} {payload : String}
    {declared place : Place} {p : Parameter} {b : Binding}
    (hbind : bind? template? payload declared p = .ok b) (hdefault : b.default?.isSome)
    {tg : Target} {n : Node} {t : PathTemplate} {location : Code}
    (hlocation : locationFunction tg place n t = .ok location)
    (hb : b ∈ Bindings.inQuery n.bindings) :
    ∃ name default body, ComparesDefault tg place b location name default body ∧
      (b.default?.bind lex = some default → (exprOf? default).isSome = true) ∧
      ∀ e, exprOf? default = some e →
        (ComparesWhole name default body e → e.isLoose = false ∧ e.hasRecord = false) ∧
          (e.isSimple = true → (ComparesWhole name default body e ↔ e.isLoose = false)) := by
  obtain ⟨code, statements, hwrite, hinfix, rfl⟩ := writeQuery_of_location hlocation hb
  obtain ⟨name, form, hname, hform, rfl⟩ := writeQuery_eq_ok hwrite
  have hquery : b.carrier = .query := (mem_carriedBy.1 hb).2
  obtain ⟨default, hfallback, hspelled⟩ :
      ∃ default, form.fallback = .default default ∧ b.default?.bind exprTokens? = some default := by
    have hsuits := suits_of_bind hbind hquery hform
    cases hfallback : form.fallback with
    | default default =>
      rw [hfallback] at hsuits
      exact ⟨default, rfl, hsuits.2⟩
    | absent | missing =>
      rw [hfallback] at hsuits
      rw [hsuits.2] at hdefault
      cases hdefault
  rw [pushCode_of_default hfallback] at hinfix
  have hname' := isIdentifier_of_identifier hname
  obtain ⟨text, htext, hcode⟩ := Option.bind_eq_some_iff.1 hspelled
  refine ⟨name, default, _, ⟨hname, hspelled, ⟨form, hform, rfl⟩, statements, hinfix, rfl⟩,
    fun hlex => exprOf?_of_spelled hcode (by rwa [htext] at hlex), fun e he =>
    ⟨operand_of_comparesWhole hname', fun hsimple =>
      ⟨fun h => (operand_of_comparesWhole hname' h).1, comparesWhole_of_simple hname' he hsimple⟩⟩⟩

/-! ### A number with a default -/

/-- A number with a default expression. -/
def pageParameter (default : String) : Parameter :=
  (Parameter.byName "page" (.named "i32")).withDefault default

def listTemplate : PathTemplate where
  text := "/list"
  segments := [.literal "/list"]

/-- A route with a number in its query. -/
def listNode (default : String) : Node where
  type := "List"
  role := .leaf "/list" none listTemplate
  parentKey? := none
  bindings := [bareBinding (pageParameter default)]
  fields := [⟨"page", .named "i32"⟩]

/-- A default with an operator that binds more tightly is compared as a whole. -/
theorem location_compares_shift :
    ∃ location body, locationFunction bareTarget barePlace (listNode "1 << 4") listTemplate =
        .ok location ∧
      ComparesDefault bareTarget barePlace (bareBinding (pageParameter "1 << 4")) location "page"
        ([.literal "1"] ++ op "<<" ++ [.literal "4"]) body ∧
      ComparesWhole "page" ([.literal "1"] ++ op "<<" ++ [.literal "4"]) body
        (.binary (.literal "1") "<<" (.literal "4")) := by
  have hbind : bind? none "extra" barePlace (pageParameter "1 << 4") =
      .ok (bareBinding (pageParameter "1 << 4")) := bind_bare (by decide +kernel)
  have hsome : (locationFunction bareTarget barePlace (listNode "1 << 4")
      listTemplate).toOption.isSome = true := by
    decide +kernel
  obtain ⟨location, hlocation⟩ := Option.isSome_iff_exists.1 hsome
  obtain ⟨name, default, body, hcompares, -, hwhole⟩ :=
    location_compares_default hbind rfl (toOption_eq_some.1 hlocation) (List.mem_singleton.2 rfl)
  have hname : name = "page" := (Except.ok.inj hcompares.named).symm
  have hspelled : (bareBinding (pageParameter "1 << 4")).default?.bind exprTokens? =
      some ([.literal "1"] ++ op "<<" ++ [.literal "4"]) := by
    decide +kernel
  have hdefault : default = [.literal "1"] ++ op "<<" ++ [.literal "4"] :=
    Option.some.inj (hcompares.spelled.symm.trans hspelled)
  subst hname hdefault
  have hsimple := (hwhole (.binary (.literal "1") "<<" (.literal "4")) rfl).2 rfl
  exact ⟨location, body, toOption_eq_some.1 hlocation, hcompares, hsimple.2 rfl⟩

/-- An operator that binds more loosely takes the comparison as its operand. -/
example (body : Code) :
    condition? (QueryForm.unlessDefault (selfField "exact")
      (word "true" ++ op "&&" ++ word "false") body) =
      some (.binary (.binary (.field selfExpr "exact") "!=" (.literal "true")) "&&"
        (.literal "false"), braces body) := by
  rfl

/-- A record is cut at its braces. -/
example (body : Code) :
    condition? (QueryForm.unlessDefault (selfField "size")
      (word "Size" ++ braces []) body) =
      some (.binary (.field selfExpr "size") "!=" (.path (.mk none 0 false [.plain "Size"])),
        braces [] ++ braces body) := by
  rfl

end TypedRoutes.Emission
