import TypedRoutes.Proofs.PlainName
import TypedRoutes.Proofs.References

/-!
# Variables of emitted functions

* `readFormat` : the characters and variables of a format string; `readFormat_formatText` : those of a path;
* `Let`, `Body` : the statements of a function that bind variables, and what follows them;
* `decodeFunction_ok` : the function that makes a value binds each parameter under its own name;
* `locationFunction_ok` : the function that writes a location binds the encoded parameters of the path
  and the query.
-/

namespace TypedRoutes

open Text (isNameChar isPlainIdentifier isIdentContinue)

namespace Emission

open Syntax Code

theorem localName_injective : Function.Injective localName := fun _ _ h =>
  (String.append_right_inj _).1 h

/-! ## Format strings -/

/-- What stands for a part of a formatted text: a character, or the value of a variable. -/
inductive FormatItem
  | char (c : Char)
  | variable (name : String)
  deriving DecidableEq, Repr

/-- The items of a format string. Doubled braces stand for one, and a name in braces for a variable.
`name?` holds the characters of a name that is being read, last first. -/
def readFormatFrom (name? : Option (List Char)) : List Char → Option (List FormatItem)
  | [] => if name?.isSome then none else some []
  | c :: rest =>
    match name?, c, rest with
    | some name, '}', rest =>
      (readFormatFrom none rest).map (.variable (String.ofList name.reverse) :: ·)
    | some name, c, rest => readFormatFrom (some (c :: name)) rest
    | none, '{', '{' :: rest => (readFormatFrom none rest).map (.char '{' :: ·)
    | none, '{', rest => readFormatFrom (some []) rest
    | none, '}', '}' :: rest => (readFormatFrom none rest).map (.char '}' :: ·)
    | none, '}', _ => none
    | none, c, rest => (readFormatFrom none rest).map (.char c :: ·)

/-- The items of a format string. -/
def readFormat (text : String) : Option (List FormatItem) :=
  readFormatFrom none text.toList

/-- What a segment of a path adds to the formatted text. -/
def formatItems : Segment → List FormatItem
  | .literal s => s.toList.map .char
  | .parameter n _ => [.variable (localName n)]

theorem readFormatFrom_plain {c : Char} (hopen : c ≠ '{') (hclose : c ≠ '}') (rest : List Char) :
    readFormatFrom none (c :: rest) = (readFormatFrom none rest).map (.char c :: ·) := by
  rw [readFormatFrom] <;> simp_all

/-- Text whose braces are doubled stands for itself. -/
theorem readFormatFrom_escapeBraces (text : String) (rest : List Char) :
    readFormatFrom none ((escapeBraces text).toList ++ rest) =
      (readFormatFrom none rest).map (text.toList.map .char ++ ·) := by
  unfold escapeBraces
  rw [String.toList_ofList]
  induction text.toList with
  | nil => simp
  | cons c cs ih =>
    rw [List.flatMap_cons, List.append_assoc]
    have hhead : readFormatFrom none ((if c = '{' ∨ c = '}' then [c, c] else [c]) ++
        (cs.flatMap (fun c => if c = '{' ∨ c = '}' then [c, c] else [c]) ++ rest)) =
        (readFormatFrom none (cs.flatMap (fun c => if c = '{' ∨ c = '}' then [c, c] else [c]) ++
          rest)).map (.char c :: ·) := by
      split
      · next hbrace =>
        rcases hbrace with rfl | rfl <;> rfl
      · next hplain =>
        exact readFormatFrom_plain (fun h => hplain (.inl h)) (fun h => hplain (.inr h)) _
    rw [hhead, ih, Option.map_map]
    rfl

/-- A name is read up to the brace that closes it. -/
theorem readFormatFrom_name {name : List Char} (hclose : '}' ∉ name) (read rest : List Char) :
    readFormatFrom (some read) (name ++ '}' :: rest) =
      (readFormatFrom none rest).map (.variable (String.ofList (read.reverse ++ name)) :: ·) := by
  induction name generalizing read with
  | nil => rw [List.append_nil]; rfl
  | cons c name ih =>
    rw [List.mem_cons, not_or] at hclose
    have hne : c ≠ '}' := fun heq => hclose.1 heq.symm
    have hstep : readFormatFrom (some read) (c :: (name ++ '}' :: rest)) =
        readFormatFrom (some (c :: read)) (name ++ '}' :: rest) := by
      rw [readFormatFrom]
      exact hne
    rw [List.cons_append, hstep, ih hclose.2, List.reverse_cons, List.append_assoc]
    rfl

/-- The format string of a path stands for its literal text and, for each parameter, its variable. -/
theorem readFormat_formatText {segments : List Segment} (hvalid : ∀ s ∈ segments, s.Valid) :
    readFormat (formatText segments) = some (segments.flatMap formatItems) := by
  unfold readFormat
  induction segments with
  | nil => rfl
  | cons s segments ih =>
    obtain ⟨hs, hrest⟩ := List.forall_mem_cons.1 hvalid
    have ih := ih hrest
    cases s with
    | literal text =>
      rw [formatText, String.toList_append, readFormatFrom_escapeBraces, ih]
      rfl
    | parameter name constraint =>
      have hclose : '}' ∉ '_' :: '_' :: name.toList := by
        have hname : '}' ∉ name.toList := fun hmem => by
          have hchar := Syntax.isNameChar_of_plain hs.1 hmem
          exact absurd hchar (by decide)
        simp [hname]
      have htext : (formatText (.parameter name constraint :: segments)).toList =
          '{' :: ('_' :: '_' :: name.toList ++ '}' :: (formatText segments).toList) := by
        simp [formatText, localName]
      have hopen : readFormatFrom none ('{' :: ('_' :: '_' :: name.toList ++ '}' ::
          (formatText segments).toList)) = readFormatFrom (some []) ('_' :: '_' :: name.toList ++ '}' ::
          (formatText segments).toList) := rfl
      have hname : String.ofList ([].reverse ++ '_' :: '_' :: name.toList) = localName name := by
        rw [← String.toList_inj]
        simp [localName]
      rw [htext, hopen, readFormatFrom_name hclose, ih, hname]
      rfl

/-! ## Statements that bind -/

/-- A statement that binds a variable. -/
structure Let where
  mutable : Bool := false
  name : String
  type? : Option Code := none
  value : Code

def Let.code (l : Let) : Code :=
  word "let" ++ (if l.mutable then word "mut" else []) ++ word l.name ++
    (l.type?.map (op ":" ++ ·)).getD [] ++ op "=" ++ l.value ++ op ";"

/-- The body of a function: first the statements that bind variables, then those that bind none, and
its value. -/
structure Body where
  lets : List Let
  rest : List Code
  value : Code

namespace Body

def code (b : Body) : Code :=
  b.lets.flatMap Let.code ++ b.rest.flatten ++ b.value

/-- The variables that are bound, in order. -/
def bound (b : Body) : List String :=
  b.lets.map Let.name

/-- What a name stands for behind the statements that bind: the last one that binds it counts. -/
def value? (b : Body) (name : String) : Option Code :=
  (b.lets.reverse.find? (·.name = name)).map Let.value

theorem value?_of_last {b : Body} {lets : List Let} {l : Let} (h : b.lets = lets ++ [l]) :
    b.value? l.name = some l.value := by
  simp [value?, h]

/-- A name stands for the value of the only statement that binds it. -/
theorem value?_of_mem {b : Body} {l : Let} (hl : l ∈ b.lets)
    (honly : ∀ l' ∈ b.lets, l'.name = l.name → l' = l) : b.value? l.name = some l.value := by
  rw [value?, Option.map_eq_some_iff]
  refine ⟨l, ?_, rfl⟩
  cases hfind : b.lets.reverse.find? (·.name = l.name) with
  | none =>
    have hnone := List.find?_eq_none.1 hfind l (List.mem_reverse.2 hl)
    simp at hnone
  | some l' =>
    have hmem := List.mem_reverse.1 (List.mem_of_find?_eq_some hfind)
    rw [honly l' hmem (of_decide_eq_true (List.find?_some hfind :))]

end Body

theorem forall_mem_of_forall₂ {α β : Type} {R : α → β → Prop} {P : β → Prop} {as : List α}
    {bs : List β} (h : List.Forall₂ R as bs) (hR : ∀ a b, R a b → P b) : ∀ b ∈ bs, P b := by
  induction h with
  | nil => simp
  | cons hb _ ih => exact List.forall_mem_cons.2 ⟨hR _ _ hb, ih⟩

/-- Related lists are split alike. -/
theorem exists_split_of_forall₂ {α β : Type} {R : α → β → Prop} {before behind : List α} {a : α}
    {bs : List β} (h : List.Forall₂ R (before ++ a :: behind) bs) :
    ∃ before' b behind', bs = before' ++ b :: behind' ∧ List.Forall₂ R before before' ∧ R a b := by
  induction before generalizing bs with
  | nil =>
    obtain ⟨b, behind', hab, -, rfl⟩ := List.forall₂_cons_left_iff.1 h
    exact ⟨[], b, behind', rfl, .nil, hab⟩
  | cons c before ih =>
    obtain ⟨b, bs', hcb, hrest, rfl⟩ := List.forall₂_cons_left_iff.1 h
    obtain ⟨before', b', behind', rfl, hbefore, hab⟩ := ih hrest
    exact ⟨b :: before', b', behind', rfl, .cons hcb hbefore, hab⟩

/-- Codes that are the code of one binding statement each. -/
theorem exists_lets {α : Type} {P : α → Let → Prop} {as : List α} {codes : List Code}
    (h : List.Forall₂ (fun a code => ∃ l, P a l ∧ l.code = code) as codes) :
    ∃ lets, List.Forall₂ P as lets ∧ lets.flatMap Let.code = codes.flatten := by
  induction h with
  | nil => exact ⟨[], .nil, rfl⟩
  | cons hl _ ih =>
    obtain ⟨l, hP, rfl⟩ := hl
    obtain ⟨lets, hlets, hcode⟩ := ih
    exact ⟨l :: lets, .cons hP hlets, by rw [List.flatMap_cons, hcode, List.flatten_cons]⟩

theorem map_name_of_forall₂ {α : Type} {P : α → Let → Prop} {name : α → String} {as : List α}
    {lets : List Let} (h : List.Forall₂ P as lets) (hname : ∀ a ∈ as, ∀ l, P a l → l.name = name a) :
    lets.map Let.name = as.map name := by
  induction h with
  | nil => rfl
  | cons hP _ ih =>
    obtain ⟨ha, has⟩ := List.forall_mem_cons.1 hname
    rw [List.map_cons, List.map_cons, ha _ hP, ih has]

section Functions

variable {tg : Target} {place : Place} {n : Node} {code : Code}

/-! ## Reading -/

/-- The function that makes a value binds each parameter under its own name, in constructor order. -/
theorem decodeFunction_ok (h : decodeFunction tg place n = .ok code)
    (hplain : ∀ b ∈ n.bindings, isPlainIdentifier b.name = true) :
    ∃ marker output body, code = marker ++ publicFunction (word decodeName)
        [typed (word "__state") (dynRef (tg.name ["NavigationState"]))] output (Body.code body) ∧
      body.rest = [] ∧
        List.Forall₂ (fun b l => l.name = b.name ∧
          readBinding tg (place.parameter b.name) b = .ok l.value) n.bindings body.lets := by
  obtain ⟨locals, hlocals, h⟩ := bind_eq_ok.1 h
  obtain ⟨marker, output, value, rfl⟩ : ∃ marker output value, code = marker ++
      publicFunction (word decodeName) [typed (word "__state") (dynRef (tg.name ["NavigationState"]))]
        output (locals.flatMap Prod.snd ++ value) := ⟨_, _, _, (pure_eq_ok.1 h).symm⟩
  have hreads := (List.forall₂_and_left _ _).2 ⟨hplain, mapM_eq_ok.1 hlocals⟩
  have hlets : List.Forall₂ (fun b code => ∃ l : Let, (l.name = b.name ∧
      readBinding tg (place.parameter b.name) b = .ok l.value) ∧ l.code = code)
      n.bindings (locals.map Prod.snd) := by
    refine List.forall₂_map_right_iff.2 (hreads.imp fun b l ⟨hname, hread⟩ => ?_)
    obtain ⟨name, hident, hread⟩ := bind_eq_ok.1 hread
    obtain ⟨value, hvalue, hread⟩ := bind_eq_ok.1 hread
    obtain rfl := pure_eq_ok.1 hread
    have hident : parseIdent b.name = some name := by
      unfold identifier at hident
      split at hident
      · next hparse => exact Except.ok.inj hident ▸ hparse
      · cases hident
    exact ⟨{ name, value }, ⟨parseIdent_of_plain hname hident, hvalue⟩, rfl⟩
  obtain ⟨lets, hforall, hcode⟩ := exists_lets hlets
  refine ⟨marker, output, ⟨lets, [], value⟩, ?_, rfl, hforall⟩
  rw [Body.code, hcode, List.flatten_nil, List.append_nil, ← List.flatMap_def]

/-! ## Writing -/

/-- A statement that adds to the query binds nothing. -/
theorem head?_pushCode (key field : Code) (form : QueryForm) :
    (form.pushCode key field).head? ≠ some (.ident "let") := by
  have hne : ∀ first : String, first ≠ "let" → some (Token.ident first) ≠ some (.ident "let") :=
    fun first hfirst h => hfirst (Token.ident.inj (Option.some.inj h))
  cases form with
  | scalar codec fallback isText =>
    cases fallback with
    | absent => exact hne "if" (by decide)
    | default e => exact hne "if" (by decide)
    | missing => exact hne "__query" (by decide)
  | list codec fallback =>
    cases fallback with
    | absent => exact hne "if" (by decide)
    | default e => exact hne "if" (by decide)
    | missing => exact hne "for" (by decide)

/-- The statement that binds the query, which only grows if something is added to it. -/
def queryLet (isFixed : Bool) : Let where
  mutable := !isFixed
  name := "__query"
  type? := some (generic vecType [tuple [staticStr, stringType]])
  value := call (member vecType "new") []

theorem queryLet_code (isFixed : Bool) :
    (queryLet isFixed).code =
      word "let" ++ (if isFixed then [] else word "mut") ++
        typed (word "__query") (generic vecType [tuple [staticStr, stringType]]) ++ op "=" ++
          call (member vecType "new") [] ++ op ";" := by
  cases isFixed <;> rfl

/-- The function that writes a location binds the encoded parameters of the path and then the query. -/
theorem locationFunction_ok {t : PathTemplate} (h : locationFunction tg place n t = .ok code) :
    ∃ body : Body, code = publicFunction (word "location") [refer (word "self")] stringType body.code ∧
      body.value = call (tg.name ["location"]) [pathCode t, refer (word "__query")] ∧
      (∀ statement ∈ body.rest, statement.head? ≠ some (.ident "let")) ∧
      ∃ encoded query, body.lets = encoded ++ [query] ∧ query.name = "__query" ∧
        query.value = call (member vecType "new") [] ∧
        List.Forall₂ (fun p l => l.name = localName p ∧
          ∃ value, l.value = call (tg.name ["encode_component"]) [refer value] ∧
            writePath tg place n p = .ok (Code.bind (word (localName p)) l.value)) t.names encoded := by
  obtain ⟨paths, hpaths, h⟩ := bind_eq_ok.1 h
  obtain ⟨path, hpath, h⟩ := bind_eq_ok.1 h
  obtain rfl := composedPath_ok hpath
  obtain ⟨queries, hqueries, h⟩ := bind_eq_ok.1 h
  have hpushes : ∀ statement ∈ queries, statement.head? ≠ some (.ident "let") := by
    refine forall_mem_of_forall₂ (mapM_eq_ok.1 hqueries) fun b statement hwrite => ?_
    obtain ⟨f, -, hwrite⟩ := bind_eq_ok.1 hwrite
    obtain ⟨name, -, hwrite⟩ := bind_eq_ok.1 hwrite
    obtain ⟨form, -, hwrite⟩ := bind_eq_ok.1 hwrite
    obtain rfl := pure_eq_ok.1 hwrite
    exact head?_pushCode _ _ form
  have hencodes : List.Forall₂ (fun p code => ∃ l : Let, (l.name = localName p ∧
      ∃ value, l.value = call (tg.name ["encode_component"]) [refer value] ∧
        writePath tg place n p = .ok (Code.bind (word (localName p)) l.value)) ∧ l.code = code)
      t.names paths := by
    refine (mapM_eq_ok.1 hpaths).imp fun p code hwrite => ?_
    have hwritten := hwrite
    obtain ⟨f, -, hwrite⟩ := bind_eq_ok.1 hwrite
    obtain ⟨codec, -, hwrite⟩ := bind_eq_ok.1 hwrite
    obtain ⟨name, -, hwrite⟩ := bind_eq_ok.1 hwrite
    obtain rfl := pure_eq_ok.1 hwrite
    exact ⟨{ name := localName p, value := _ }, ⟨rfl, _, rfl, hwritten⟩, rfl⟩
  obtain ⟨encoded, hforall, hcode⟩ := exists_lets hencodes
  refine ⟨⟨encoded ++ [queryLet queries.isEmpty], queries, _⟩, ?_, rfl, hpushes, encoded,
    queryLet queries.isEmpty, rfl, rfl, rfl, hforall⟩
  rw [Body.code, List.flatMap_append, hcode, List.flatMap_singleton, queryLet_code]
  exact (pure_eq_ok.1 h).symm

end Functions

end Emission

end TypedRoutes
