import TypedRoutes.Proofs.ConfiguredNames
import TypedRoutes.Proofs.DefaultComparison
import TypedRoutes.Proofs.ListParameter
import TypedRoutes.Proofs.PathText
import TypedRoutes.Proofs.ScalarParameter

/-!
# The meaning of the functions of a route type

* `pathCall`, `payload` : a parameter of the path, and the payload, with their code;
* `CarriedAs` : a parameter is carried in the query in a form, so it is read and written by the
  `Meaning` of that form; `comparedScalar`, `pairs_comparedScalar` : one with a default;
* `ReadsAll` : statements that read the parameters of a type in order and put a value together;
* `decodeFunction_eq` : such statements are the body of the function that makes a value;
* `pathText?` : the text that the code of a path comes to;
* `LocationParts` : what a location is written of; `LocationParts.text?` : the location;
* `locationFunction_eq` : such parts are the body of the function that writes a location;
* `Built.linked?` : the routes that a getter builds, where the functions it names are known.
-/

namespace TypedRoutes.Emission

open Syntax Code Navigation

variable {Γ Δ α β π ρ σ τ : Type}

/-! ## Statements -/

def Action.within (f : Δ → Γ) (a : Action Γ σ) : Action Δ σ where
  code := a.code
  run g := a.run (f g)

def Step.within (f : Δ → Γ) (s : Step Γ) : Step Δ where
  code := s.code
  pairs g := s.pairs (f g)

namespace Action

/-- A term, which leaves the function in no case. -/
def value (t : Term Γ σ) : Action Γ σ where
  code := t.code
  run g := .ok (t.value g)

/-- Bind a variable, and go on with it. -/
def letIn (name : String) (a : Action Γ σ) (body : Action (σ × Γ) τ) : Action Γ τ where
  code := Code.bind (word name) a.code ++ body.code
  run g := do
    let s ← a.run g
    body.run (s, g)

/-- A block of statements. -/
def block (a : Action Γ σ) : Action Γ σ where
  code := braces a.code
  run := a.run

/-- What the function returns. -/
def yield (t : Term Γ σ) : Action Γ σ where
  code := success t.code
  run g := .ok (t.value g)

end Action

/-! ## Parameters of the path -/

section Path

variable (tg : Target) (key : String) (codec : Codec) (c : Conversion α)

/-- The value of a parameter of the path. -/
def pathCall : Action (Request π) α :=
  let raw : Term (Request π) (Option String) :=
    ⟨method (word "__state") "path_parameter" [str key], fun r => r.param? key⟩
  .block (.letIn "__raw" (.ofTerm (.orError raw (.missing tg (.literal key))))
    (.ofTerm (.orError (.decoded codec c (.var "__raw" (·.1)))
      (.invalid tg (.literal key) (.var "__raw" (·.1))))))

theorem run_pathCall (r : Request π) :
    (pathCall tg key codec c).run r =
      match r.param? key with
      | none => .error (.missing key)
      | some raw =>
        match c.decode raw with
        | some a => .ok a
        | none => .error (.invalid key raw) := by
  simp only [pathCall, Action.block, Action.letIn, Action.ofTerm, Term.orError, Term.missing,
    Term.literal, Term.decoded, Term.var, Term.invalid]
  cases r.param? key with
  | none => rfl
  | some raw => rfl

end Path

/-! ## The payload -/

/-- The payload, where it is of a type. -/
def payload (type : Code) : Term (Request π) (Option π) where
  code :=
    let cast := word "__extra" ++ op "." ++
      call (word "downcast_ref" ++ op "::" ++ op "<" ++ type ++ op ">") []
    method (method (method (word "__state") "extra" []) "and_then" [closure (word "__extra") cast])
      "cloned" []
  value r := r.payload

/-- A payload that has to be there. -/
def requiredPayload (tg : Target) (key : String) (type : Code) : Action (Request π) π :=
  .ofTerm (.orError (payload type) (.missing tg (.literal key)))

/-! ## Parameters of the query -/

deriving instance DecidableEq for Codec, Fallback, QueryForm

section Query

variable {tg : Target} {place : Place} {b : Binding} {key name : String} {form : QueryForm}

/-- A bound parameter is carried in the query in a form, under a key. -/
structure CarriedAs (tg : Target) (place : Place) (b : Binding) (key name : String)
    (form : QueryForm) : Prop where
  carrier_eq : b.carrier = .query
  key_eq : tg.settings.queryKey b.name = key
  name_eq : b.name = name
  usable : isUsableName name = true
  form_eq : QueryForm.ofBinding tg.catalog (place.parameter b.name) b = .ok form

namespace CarriedAs

theorem of_check (h : b.carrier = .query ∧ tg.settings.queryKey b.name = key ∧ b.name = name ∧
    isUsableName name = true ∧
      (QueryForm.ofBinding tg.catalog (place.parameter b.name) b).toOption = some form) :
    CarriedAs tg place b key name form :=
  ⟨h.1, h.2.1, h.2.2.1, h.2.2.2.1, toOption_eq_some.1 h.2.2.2.2⟩

variable (h : CarriedAs tg place b key name form) (m : Meaning tg key name form σ)

include h

theorem read_eq : readBinding tg (place.parameter b.name) b = .ok m.reader.code := by
  rw [readBinding_eq h.carrier_eq h.form_eq, h.key_eq, m.reader_code]

theorem write_eq {n : Node} (hfield : (n.field? b.name).isSome) :
    writeQuery tg place n b = .ok m.writer.code := by
  have hname : identifier (place.parameter b.name) b.name = .ok name := by
    rw [h.name_eq, identifier_of_usable h.usable]
  rw [writeQuery_eq hfield hname h.form_eq, h.key_eq, m.writer_code]

end CarriedAs

/-- A default with the expression that the field of its parameter is compared with, which is all of
it. -/
structure WholeDefault (name : String) where
  code : Code
  expr : Expr
  read : exprOf? code = some expr
  compares : ∀ body, ComparesWhole name code body expr

/-- A default of literals, paths and calls. -/
def WholeDefault.ofSimple (hname : isIdentifier name = true) (code : Code) (e : Expr)
    (he : exprOf? code = some e) (hsimple : e.isSimple = true) (htight : e.isLoose = false) :
    WholeDefault name where
  code := code
  expr := e
  read := he
  compares _ := comparesWhole_of_simple hname he hsimple htight

variable (tg key codec) (c : Conversion α) (h : Host α) (isText : Bool) (d : WholeDefault name)

/-- The meaning of a single value with such a default. -/
def comparedScalar : Meaning tg key name (.scalar codec (.default d.code) isText) α :=
  defaultedScalar tg key name codec c h isText d.code
    (.test (.binary (.field selfExpr name) "!=" d.expr)) d.expr

/-- Nothing is added for the default. -/
theorem pairs_comparedScalar [DecidableEq α] (hlawful : h.IsLawful) (a : α) :
    (comparedScalar tg key codec c h isText d).writer.pairs a =
      if a = h.value d.expr then [] else [(key, c.encode a)] := by
  have hself : isField name (.field selfExpr name) = true := by simp [isField, selfExpr]
  have hholds := Host.holds_ne hlawful hself d.expr a
  show (if h.holds name a _ = true then [(key, c.encode a)] else []) = _
  by_cases ha : a = h.value d.expr
  · rw [if_pos ha, if_neg fun hne => hholds.1 hne ha]
  · rw [if_neg ha, if_pos (hholds.2 ha)]

end Query

/-! ## Making a value -/

section Bindings

variable {tg : Target} {place : Place} {b : Binding}

theorem readBinding_path {codec : Codec} {c : Conversion α}
    (h : b.carrier = .path ∧ b.type.nullable = false ∧
      (Codec.ofType tg.catalog place b.type).toOption = some codec) :
    readBinding tg place b =
      .ok (pathCall tg b.name codec c : Action (Request π) α).code := by
  obtain ⟨hcarrier, hplain, hcodec⟩ := h
  rw [readBinding, hcarrier]
  refine bind_eq_ok.2 ⟨codec, toOption_eq_some.1 hcodec, ?_⟩
  rw [hplain]
  rfl

theorem readBinding_payload {type : Code}
    (h : b.carrier = .payload ∧ (typeCode place b.type.nonNullable).toOption = some type) :
    readBinding tg place b = .ok (readPayload tg (str b.name) type b.type.nullable) := by
  rw [readBinding, h.1]
  exact bind_eq_ok.2 ⟨type, toOption_eq_some.1 h.2, rfl⟩

theorem readBinding_optionalPayload {type : Code} (hnullable : b.type.nullable = true)
    (h : b.carrier = .payload ∧ (typeCode place b.type.nonNullable).toOption = some type) :
    readBinding tg place b =
      .ok (Action.value (payload type) : Action (Request π) (Option π)).code := by
  rw [readBinding_payload h, hnullable]
  rfl

theorem readBinding_requiredPayload {type : Code} (hplain : b.type.nullable = false)
    (h : b.carrier = .payload ∧ (typeCode place b.type.nonNullable).toOption = some type) :
    readBinding tg place b = .ok (requiredPayload tg b.name type : Action (Request π) π).code := by
  rw [readBinding_payload h, hplain]
  rfl

end Bindings

/-- The value as code: by its constructor if a parameter is passed by position, else by its fields. -/
def selfCode (bs : List Binding) : Code :=
  let names := bs.map fun b => word b.name
  if Bindings.anyPositional bs then call (member (word "Self") "new") names
  else word "Self" ++ braces (Tokens.commaSeparated names)

/-- The function that makes a value, around its body. -/
def decodeCode (tg : Target) (body : Code) : Code :=
  op "#" ++ Tokens.brackets (call (word "allow") [word "unused_variables"]) ++
    publicFunction (word decodeName)
      [typed (word "__state") (dynRef (tg.name ["NavigationState"]))]
      (generic result [word "Self", tg.name ["DecodeError"]]) body

section Reading

variable {tg : Target} {place : Place}

/-- Statements that read parameters, each into a variable of its name, and then return a value whose
code is `self`. The request is found in the scope by `request`. -/
inductive ReadsAll (tg : Target) (place : Place) (self : Code) :
    {Γ : Type} → (request : Γ → Request π) → List Binding → Action Γ β → Prop
  | done {Γ : Type} {request : Γ → Request π} {t : Term Γ β} (hself : t.code = self) :
      ReadsAll tg place self request [] (.yield t)
  | read {Γ σ : Type} {request : Γ → Request π} {b : Binding} {bs : List Binding}
      {a : Action (Request π) σ} {body : Action (σ × Γ) β} (husable : isUsableName b.name = true)
      (hread : readBinding tg (place.parameter b.name) b = .ok a.code)
      (hbody : ReadsAll tg place self (fun g => request g.2) bs body) :
      ReadsAll tg place self request (b :: bs) (.letIn b.name (a.within request) body)

theorem ReadsAll.exists_locals {self : Code} {request : Γ → Request π} {bs : List Binding}
    {a : Action Γ β} (h : ReadsAll tg place self request bs a) :
    ∃ locals, bs.mapM (readLocal tg place) = .ok locals ∧
      locals.map Prod.fst = bs.map (fun b => word b.name) ∧
        locals.flatMap Prod.snd ++ success self = a.code := by
  induction h with
  | done hself => exact ⟨[], rfl, rfl, by rw [← hself]; rfl⟩
  | @read _ _ _ b bs a body husable hread _ ih =>
    obtain ⟨locals, hlocals, hnames, hcode⟩ := ih
    have hlocal : readLocal tg place b = .ok (word b.name, Code.bind (word b.name) a.code) := by
      rw [readLocal, identifier_of_usable husable, hread]
      rfl
    refine ⟨(word b.name, Code.bind (word b.name) a.code) :: locals, ?_, ?_, ?_⟩
    · rw [List.mapM_cons, hlocal, hlocals]
      rfl
    · rw [List.map_cons, List.map_cons, hnames]
    · rw [List.flatMap_cons, List.append_assoc, hcode]
      rfl

/-- The function that makes a value runs these statements. -/
theorem decodeFunction_eq {n : Node} {request : Γ → Request π} {a : Action Γ β}
    (h : ReadsAll tg place (selfCode n.bindings) request n.bindings a) :
    decodeFunction tg place n = .ok (decodeCode tg a.code) := by
  obtain ⟨locals, hlocals, hnames, hcode⟩ := h.exists_locals
  rw [decodeFunction, hlocals, ← hcode, selfCode, ← hnames]
  rfl

end Reading

/-! ## Writing a location -/

/-- The text that the code of a path comes to in a scope: that of a literal, or of a format string. -/
def pathText? (scope : Scope) (code : Code) : Option String :=
  match exprOf? code with
  | some (.literal l) => Literal.textValue? l
  | some (.reference false (.invocation ⟨⟨true, ["std", "format"]⟩, .paren, [.literal l]⟩)) =>
    (Literal.textValue? l).bind (formatted? scope)
  | _ => none

theorem pathText?_str (scope : Scope) (text : String) : pathText? scope (str text) = some text := by
  rw [pathText?, str, exprOf?_literal]
  exact Literal.textValue?_encode text

theorem pathText?_format (scope : Scope) (text : String) :
    pathText? scope (refer (invoke (path ["std", "format"]) (parens (str text)))) =
      formatted? scope text := by
  rw [pathText?, str, exprOf?_format]
  exact congrArg (Option.bind · (formatted? scope)) (Literal.textValue?_encode text)

/-- The code of a path comes to the path of the template for the values in scope. -/
theorem pathText?_pathCode {text : String} {t : PathTemplate} (h : PathTemplate.parse text = .ok t)
    (scope : Scope) :
    pathText? scope (pathCode t) = (t.substitute fun n => scope (localName n)).toOption := by
  rw [pathCode]
  by_cases hnames : t.names.isEmpty = true
  · rw [if_pos hnames, pathText?_str, substitute_literalText (List.isEmpty_iff.1 hnames)]
    rfl
  · rw [if_neg hnames, pathText?_format]
    exact formatted?_formatText scope (PathTemplate.canonical_of_parse h).1.valid

/-- What a location is written of: the parameters of the path with their encoded texts, and the
statements that add to the query. -/
structure LocationParts (ρ : Type) where
  encoded : List (String × Term ρ String)
  steps : List (Step ρ)

namespace LocationParts

/-- The variables of the parameters. -/
def scope (l : LocationParts ρ) (v : ρ) : Scope := fun name =>
  (l.encoded.find? fun p => localName p.1 = name).map fun p => p.2.value v

theorem scope_localName (l : LocationParts ρ) (v : ρ) (name : String) :
    l.scope v (localName name) = (l.encoded.find? (·.1 = name)).map fun p => p.2.value v := by
  unfold scope
  simp only [localName_injective.eq_iff]

def body (l : LocationParts ρ) (tg : Target) (t : PathTemplate) : Code :=
  l.encoded.flatMap (fun p => Code.bind (word (localName p.1)) p.2.code) ++
    (queryLet l.steps.isEmpty).code ++ (l.steps.map Step.code).flatten ++
      call (tg.name ["location"]) [pathCode t, refer (word "__query")]

/-- The location of a value. -/
def text? (l : LocationParts ρ) (t : PathTemplate) (v : ρ) : Option String :=
  (pathText? (l.scope v) (pathCode t)).map fun path =>
    writeLocation path (l.steps.flatMap fun s => s.pairs v)

end LocationParts

/-- A parameter of the path, encoded. -/
def encodedPath (tg : Target) (codec : Codec) (c : Conversion α) (t : Term ρ α) : Term ρ String where
  code := call (tg.name ["encode_component"]) [refer (codec.encoder (refer t.code))]
  value v := Text.Percent.encode (c.encode (t.value v))

section Writing

variable {tg : Target} {place : Place} {n : Node}

theorem writePath_eq {parameter : String} {f : Field} {codec : Codec} {c : Conversion α}
    {t : Term ρ α} (hfield : n.field? parameter = some f)
    (h : f.type.nullable = false ∧ isUsableName parameter = true ∧
      (Codec.ofType tg.catalog (place.parameter parameter) f.type).toOption = some codec)
    (ht : t.code = selfField parameter) :
    writePath tg place n parameter =
      .ok (Code.bind (word (localName parameter)) (encodedPath tg codec c t).code) := by
  obtain ⟨hplain, husable, hcodec⟩ := h
  have hbacking : backingField (place.parameter parameter) n parameter = .ok f := by
    rw [backingField, hfield]
  refine bind_eq_ok.2 ⟨f, hbacking, bind_eq_ok.2 ⟨codec, toOption_eq_some.1 hcodec,
    bind_eq_ok.2 ⟨parameter, identifier_of_usable husable _, ?_⟩⟩⟩
  rw [hplain, encodedPath, ht]
  rfl

/-- The function that writes a location, around its body. -/
def locationCode (body : Code) : Code :=
  publicFunction (word "location") [refer (word "self")] stringType body

/-- The function that writes a location puts it together of these parts. -/
theorem locationFunction_eq {t : PathTemplate} {l : LocationParts ρ}
    (hencoded : List.Forall₂ (fun name p => p.1 = name ∧
      writePath tg place n name = .ok (Code.bind (word (localName name)) p.2.code)) t.names l.encoded)
    (hsteps : List.Forall₂ (fun b s => writeQuery tg place n b = .ok s.code)
      (Bindings.inQuery n.bindings) l.steps) :
    locationFunction tg place n t = .ok (locationCode (l.body tg t)) := by
  have hpaths : t.names.mapM (writePath tg place n) =
      .ok (l.encoded.map fun p => Code.bind (word (localName p.1)) p.2.code) := by
    refine mapM_eq_ok.2 (List.forall₂_map_right_iff.2 (hencoded.imp ?_))
    rintro name p ⟨rfl, hwrite⟩
    exact hwrite
  have hqueries : (Bindings.inQuery n.bindings).mapM (writeQuery tg place n) =
      .ok (l.steps.map Step.code) := mapM_eq_ok.2 (List.forall₂_map_right_iff.2 hsteps)
  have hempty : (l.steps.map Step.code).isEmpty = l.steps.isEmpty := by
    cases l.steps <;> rfl
  refine bind_eq_ok.2 ⟨_, hpaths, bind_eq_ok.2 ⟨_, composedPath_eq place t,
    bind_eq_ok.2 ⟨_, hqueries, ?_⟩⟩⟩
  rw [LocationParts.body, queryLet_code, List.flatMap_def, hempty]
  rfl

end Writing

/-! ## Building the routes -/

namespace Built

mutual

/-- The route at run time, where the functions and the constants that it names are known. A shell
reads nothing. -/
def linked? (reader? : Code → Option τ) (key? : Code → Option String) : Built → Option (Route τ)
  | go path factory name? parentKey? routes => do
    return .go path name? (← parentKey?.mapM key?) (← reader? factory)
      (← linkedAll? reader? key? routes)
  | shell _ own? parentKey? routes => do
    return .shell (← own?.mapM key?) (← parentKey?.mapM key?) (← linkedAll? reader? key? routes)

def linkedAll? (reader? : Code → Option τ) (key? : Code → Option String) :
    List Built → Option (List (Route τ))
  | [] => some []
  | r :: rest => do
    return (← r.linked? reader? key?) :: (← linkedAll? reader? key? rest)

end

end Built

theorem typePath_eq {place : Place} {name : String} {c : Code}
    (h : (parsePath name).isSome ∧ (lex name).map typeTokens = some c) :
    typePath place name = .ok c := by
  obtain ⟨hpath, hname⟩ := h
  obtain ⟨p, hp⟩ := Option.isSome_iff_exists.1 hpath
  obtain ⟨ts, hts, rfl⟩ := Option.map_eq_some_iff.1 hname
  rw [typePath, hp, hts]

/-- The builder of a leaf whose type declares no navigator. -/
theorem nodeBuilder_leaf {place : Place} {n : Node} {path : String} {name? : Option String}
    {t : PathTemplate} {type : Code} (hrole : n.role = .leaf path name? t)
    (hkey : n.parentKey?.filter (!·.inherited) = none)
    (htype : typePath place n.type = .ok type) :
    nodeBuilder place n = .ok ((Builder.go path type).with? .name name?) := by
  have hown : ownKeyCode place n.parentKey? = .ok none := by
    rw [ownKeyCode, hkey]
  refine bind_eq_ok.2 ⟨type, htype, ?_⟩
  rw [hrole]
  exact bind_eq_ok.2 ⟨none, hown, rfl⟩

end TypedRoutes.Emission
