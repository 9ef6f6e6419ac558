import TypedRoutes.Proofs.Locals
import TypedRoutes.Proofs.ReadableItems

/-!
# Codecs and parameters whose code is read back

* `isPlainPath`, `isPlainName`, `isPlainType` : paths of bare names, and types made of them;
* `typeCode_reads`, `decoder_reads`, `encoder_reads` : the code of a plain type and of its codec is read;
* `Binding.IsPlain` : a parameter whose type is plain and whose default is simple;
* `readLocal_reads` : the statement that reads a plain parameter is read as one.

Type names are spliced into types, in front of arguments and into calls. A path of bare names is read
in all of these places, and so is a default of operators that bind more tightly than a comparison.
-/

namespace TypedRoutes.Emission

open Syntax Code
open Parse (Takes)

/-- What each item of a list has, the list has row by row. -/
theorem exists_forall₂ {α β : Type} {R : α → β → Prop} {as : List α} (h : ∀ a ∈ as, ∃ b, R a b) :
    ∃ bs, List.Forall₂ R as bs := by
  induction as with
  | nil => exact ⟨[], .nil⟩
  | cons a as ih =>
    obtain ⟨⟨b, hb⟩, has⟩ := List.forall_mem_cons.1 h
    obtain ⟨bs, hbs⟩ := ih has
    exact ⟨b :: bs, .cons hb hbs⟩

/-! ## Plain names -/

section Plain

variable {c : Code} {name : String} {leading : Bool} {first : String} {names : List String}

/-- A path of bare names, as it is emitted. -/
def isPlainPath (c : Code) : Bool :=
  match plainPath.all c with
  | some ⟨leading, first :: names⟩ =>
    c = barePath leading first names && (first :: names).all isPathName
  | _ => false

/-- A path of bare names whose last one may take arguments. -/
def isPlainName (c : Code) : Bool :=
  isPlainPath c && (((plainPath.all c).bind fun p => p.names.getLast?).any isIdentifier)

theorem exists_of_isPlainPath (h : isPlainPath c = true) :
    ∃ leading first names, c = barePath leading first names ∧ isPathName first = true ∧
      (∀ n ∈ names, isPathName n = true) ∧
        plainPath.all c = some ⟨leading, first :: names⟩ := by
  unfold isPlainPath at h
  split at h
  · next leading first names hread =>
    simp only [Bool.and_eq_true, decide_eq_true_eq, List.all_cons, List.all_eq_true] at h
    exact ⟨leading, first, names, h.1, h.2.1, h.2.2, hread⟩
  · cases h

theorem member_barePath (n : String) :
    member (barePath leading first names) n = barePath leading first (names ++ [n]) := by
  simp [member, barePath, path]

theorem ReadsTerm.word (h : isPathName name = true) :
    ReadsTerm (Code.word name) (.path (.mk none 0 false [.plain name])) := by
  have hbare : ReadsTerm (barePath false name []) _ := ReadsTerm.bare h nofun
  exact hbare

theorem ReadsTy.word (h : isPathName name = true) :
    ReadsTy (Code.word name) (.path (.mk none 0 false [.plain name])) := by
  have hbare : ReadsTy (barePath false name []) _ := ReadsTy.bare h nofun
  exact hbare

end Plain

/-! ## Types -/

section Types

variable {place : Place} {c : Code} {name : String} {tys : List Ty} {args : List Code}

/-- A plain name with arguments is read as a type. -/
theorem ReadsTy.exists_generic (hname : isPlainName c = true) (h : List.Forall₂ ReadsTy args tys) :
    ∃ ty, ReadsTy (generic c args) ty := by
  unfold isPlainName at hname
  obtain ⟨hpath, hlast⟩ := Bool.and_eq_true_iff.1 hname
  obtain ⟨leading, first, names, rfl, hfirst, hnames, hread⟩ := exists_of_isPlainPath hpath
  rw [hread, Option.bind_some] at hlast
  rcases List.eq_nil_or_concat' names with rfl | ⟨names, last, rfl⟩
  · exact ⟨_, ReadsTy.generic_name (by simpa using hlast) h⟩
  · have hlast' : isIdentifier last = true := by
      change (first :: (names ++ [last])).getLast?.any isIdentifier = true at hlast
      rwa [← List.cons_append, List.getLast?_concat] at hlast
    exact ⟨_, ReadsTy.generic_path hfirst (fun m hm => hnames m (by simp [hm])) hlast' h⟩

theorem ReadsTy.exists_of_plain (hname : isPlainName c = true) : ∃ ty, ReadsTy c ty := by
  obtain ⟨leading, first, names, rfl, hfirst, hnames, -⟩ :=
    exists_of_isPlainPath (Bool.and_eq_true_iff.1 hname).1
  exact ⟨_, ReadsTy.bare hfirst hnames⟩

/-- A type name that is emitted as a plain name. -/
def isPlainTypeName (name : String) : Bool :=
  ((lex name).map typeTokens).any isPlainName

theorem typePath_plain (hname : isPlainTypeName name = true) (h : typePath place name = .ok c) :
    isPlainName c = true := by
  unfold typePath at h
  split at h
  · next hlex =>
    cases h
    unfold isPlainTypeName at hname
    rwa [hlex] at hname
  · cases h

mutual

/-- A type whose names are all plain. -/
def isPlainType : TypeRef → Bool
  | ⟨name, args, _⟩ => isPlainTypeName name && arePlainTypes args

def arePlainTypes : List TypeRef → Bool
  | [] => true
  | t :: rest => isPlainType t && arePlainTypes rest

end

theorem ReadsTy.exists_option {ty : Ty} (h : ReadsTy c ty) :
    ∃ ty, ReadsTy (generic option [c]) ty := by
  have hoption : option = barePath true "core" (["option"] ++ ["Option"]) := rfl
  rw [hoption]
  exact ⟨_, ReadsTy.generic_path (by decide) (by decide) (by decide) (.cons h .nil)⟩

theorem ReadsTy.exists_vec {ty : Ty} (h : ReadsTy c ty) :
    ∃ ty, ReadsTy (generic vecType [c]) ty := by
  have hvec : vecType = barePath true "std" (["vec"] ++ ["Vec"]) := rfl
  rw [hvec]
  exact ⟨_, ReadsTy.generic_path (by decide) (by decide) (by decide) (.cons h .nil)⟩

theorem ReadsTy.exists_result {c' : Code} {ty ty' : Ty} (h : ReadsTy c ty) (h' : ReadsTy c' ty') :
    ∃ ty, ReadsTy (generic result [c, c']) ty := by
  have hresult : result = barePath true "core" (["result"] ++ ["Result"]) := rfl
  rw [hresult]
  exact ⟨_, ReadsTy.generic_path (by decide) (by decide) (by decide) (.cons h (.cons h' .nil))⟩

mutual

theorem typeCode_reads : ∀ {t : TypeRef} {c : Code}, isPlainType t = true →
    typeCode place t = .ok c → ∃ ty, ReadsTy c ty
  | ⟨name, args, nullable⟩, c, hplain, h => by
    rw [isPlainType, Bool.and_eq_true] at hplain
    rw [typeCode] at h
    obtain ⟨base, hbase, h⟩ := bind_eq_ok.1 h
    obtain ⟨codes, hcodes, h⟩ := bind_eq_ok.1 h
    obtain ⟨tys, htys⟩ := typeCodes_reads hplain.2 hcodes
    have hbase := typePath_plain hplain.1 hbase
    have happlied : ∃ ty, ReadsTy (if codes.isEmpty then base else generic base codes) ty := by
      split
      · exact ReadsTy.exists_of_plain hbase
      · exact ReadsTy.exists_generic hbase htys
    obtain ⟨ty, hty⟩ := happlied
    obtain rfl := pure_eq_ok.1 h
    cases nullable with
    | true => exact hty.exists_option
    | false => exact ⟨ty, hty⟩

theorem typeCodes_reads : ∀ {ts : List TypeRef} {cs : List Code}, arePlainTypes ts = true →
    typeCodes place ts = .ok cs → ∃ tys, List.Forall₂ ReadsTy cs tys
  | [], cs, _, h => by
    rw [typeCodes] at h
    cases h
    exact ⟨[], .nil⟩
  | t :: ts, cs, hplain, h => by
    rw [arePlainTypes, Bool.and_eq_true] at hplain
    rw [typeCodes] at h
    obtain ⟨c, hc, h⟩ := bind_eq_ok.1 h
    obtain ⟨cs', hcs, h⟩ := bind_eq_ok.1 h
    obtain rfl := pure_eq_ok.1 h
    obtain ⟨ty, hty⟩ := typeCode_reads hplain.1 hc
    obtain ⟨tys, htys⟩ := typeCodes_reads hplain.2 hcs
    exact ⟨ty :: tys, .cons hty htys⟩

end

end Types

/-! ## Codecs -/

/-- The names in a codec's code are read. -/
def Codec.IsPlain : Codec → Prop
  | .text | .bool => True
  | .enumeration type table => (∃ ty, ReadsTy type ty) ∧ isIdentifier table = true
  | .parsed type => ∃ ty, ReadsTy type ty

theorem isIdentifier_of_tableName {place : Place} {enumeration table : String}
    (h : tableName place enumeration = .ok table) : isIdentifier table = true :=
  isIdentifier_of_identifier h

theorem ofType_plain {catalog : Catalog} {place : Place} {t : TypeRef} {codec : Codec}
    (ht : isPlainType t = true) (h : Codec.ofType catalog place t = .ok codec) : codec.IsPlain := by
  have ht' : isPlainType t.nonNullable = true := by
    cases t
    exact ht
  unfold Codec.ofType at h
  split at h
  · cases h
  · dsimp only at h
    split at h
    · obtain ⟨type, htype, h⟩ := bind_eq_ok.1 h
      obtain ⟨table, htable, h⟩ := bind_eq_ok.1 h
      obtain rfl := pure_eq_ok.1 h
      exact ⟨typeCode_reads ht' htype, isIdentifier_of_tableName htable⟩
    · split at h
      · obtain rfl := pure_eq_ok.1 h
        trivial
      · obtain rfl := pure_eq_ok.1 h
        trivial
      · obtain ⟨type, htype, h⟩ := bind_eq_ok.1 h
        obtain rfl := pure_eq_ok.1 h
        exact typeCode_reads ht' htype

theorem ReadsTerm.expr {c : Code} {e : Expr} {alone : Bool} (h : ReadsTerm c e) (hne : c ≠ [])
    (harrow : startsOp "->" c = false) : ReadsExpr alone c e :=
  ReadsOperand.expr h.operand hne harrow

theorem ReadsExpr.word {name : String} {alone : Bool} (h : isPathName name = true) :
    ReadsExpr alone (Code.word name) (.path (.mk none 0 false [.plain name])) :=
  (ReadsTerm.word h).expr nofun startsOp_ident

theorem ReadsExpr.str {text : String} {alone : Bool} :
    ReadsExpr alone (Code.str text) (.literal (Text.Quoted.encode text)) :=
  (ReadsTerm.literal _).expr nofun (startsOp_of_not_punct nofun)

section Codecs

variable {codec : Codec} {value : Code} {v : Expr}

/-- The reference to a text that a decoder is given. -/
theorem reads_textParam : ∃ p, ReadsParam (typed (word "__v") strRef) p :=
  ⟨_, ReadsParam.typed (by decide) (ReadsTy.reference (ReadsTy.word (by decide)))⟩

theorem ReadsTerm.some {c : Code} {e : Expr} (h : ReadsArgs [c] [e]) :
    ∃ e, ReadsTerm (present c) e := by
  have hsome : member option "Some" = barePath true "core" ["option", "Option", "Some"] := rfl
  unfold present
  rw [hsome]
  exact ⟨_, ReadsTerm.call (ReadsCallee.bare (by decide) (by decide)) h⟩

theorem ReadsTerm.stringOf {c : Code} {e : Expr} (h : ReadsArgs [c] [e]) :
    ∃ e, ReadsTerm (Code.stringOf c) e := by
  have hfrom : member stringType "from" = barePath true "std" ["string", "String", "from"] := rfl
  unfold Code.stringOf
  rw [hfrom]
  exact ⟨_, ReadsTerm.call (ReadsCallee.bare (by decide) (by decide)) h⟩

/-- The slice of a table's entries. -/
theorem ReadsTy.entries {type : Code} {ty : Ty} (h : ReadsTy type ty) :
    ∃ ty, ReadsTy (Tokens.brackets (Code.tuple [type, staticStr])) ty :=
  ⟨_, ReadsTy.slice (ReadsTy.tuple (.cons h (.cons (ReadsTy.staticRef (ReadsTy.word (by decide)))
    .nil)) (by simp))⟩

theorem ReadsCallee.exists_lookup {type : Code} {function : String}
    (h : ∃ ty, ReadsTy type ty) (hfunction : isIdentifier function = true) :
    ∃ e, ReadsCallee (Codec.lookup type function) e := by
  obtain ⟨ty, h⟩ := h
  obtain ⟨slice, hslice⟩ := h.entries
  exact ⟨_, ReadsCallee.lookup hslice h (by decide) hfunction⟩

theorem ReadsArgs.pair {c c' : Code} {e e' : Expr} (h : ReadsExpr false c e)
    (h' : ReadsExpr false c' e') : ReadsArgs [c, c'] [e, e'] :=
  ReadsArgs.of_forall₂ (.cons h (.cons h' .nil))

theorem decoder_reads (h : codec.IsPlain) : ∃ e, ∀ alone, ReadsExpr alone codec.decoder e := by
  obtain ⟨p, hp⟩ := reads_textParam
  have hv : ReadsArgs [Code.word "__v"] _ := ReadsArgs.single (ReadsExpr.word (by decide))
  cases codec with
  | text =>
    obtain ⟨s, hs⟩ := ReadsTerm.stringOf hv
    obtain ⟨e, he⟩ := ReadsTerm.some (ReadsArgs.single (hs.expr nofun rfl))
    exact ⟨_, fun alone => ReadsExpr.closure hp (he.expr nofun rfl)⟩
  | bool => exact ⟨_, fun alone => ReadsExpr.word (by decide)⟩
  | enumeration type table =>
    obtain ⟨f, hf⟩ := ReadsCallee.exists_lookup h.1 (show isIdentifier "from_name" = true by decide)
    have hargs : ReadsArgs [Code.word table, Code.word "__v"] _ :=
      ReadsArgs.pair (ReadsExpr.word (isPathName_of_isIdentifier h.2)) (ReadsExpr.word (by decide))
    have hfound : ReadsTerm (method (call (Codec.lookup type "from_name")
        [Code.word table, Code.word "__v"]) "cloned" []) _ :=
      (ReadsTerm.call hf hargs).method (by decide) ReadsArgs.nil
    exact ⟨_, fun alone => ReadsExpr.closure hp (hfound.expr nofun rfl)⟩
  | parsed type =>
    obtain ⟨ty, hty⟩ := h
    have hok : ReadsTerm (method (Code.word "__v" ++ op "." ++ call (Code.word "parse" ++ op "::" ++
        op "<" ++ type ++ op ">") []) "ok" []) _ :=
      ((ReadsTerm.word (by decide)).turbofish (by decide) hty ReadsArgs.nil).method (by decide)
        ReadsArgs.nil
    exact ⟨_, fun alone => ReadsExpr.closure hp (hok.expr nofun rfl)⟩

/-- What is encoded begins with a parenthesis or with a lookup. -/
theorem encoder_begins (codec : Codec) (value rest : Code) :
    startsWord "raw" (codec.encoder value ++ rest) = false ∧
      startsWord "mut" (codec.encoder value ++ rest) = false ∧
      startsOp "->" (codec.encoder value) = false ∧ codec.encoder value ≠ [] := by
  cases codec <;> exact ⟨rfl, rfl, rfl, nofun⟩

theorem encoder_reads (h : codec.IsPlain) (hvalue : ∀ alone, ReadsExpr alone value v) :
    ∃ e, ReadsTerm (codec.encoder value) e := by
  have hplain : ReadsTerm (method (parens value) "to_string" []) _ :=
    (ReadsTerm.parens (hvalue true)).method (by decide) ReadsArgs.nil
  cases codec with
  | text | bool | parsed _ => exact ⟨_, hplain⟩
  | enumeration type table =>
    obtain ⟨f, hf⟩ := ReadsCallee.exists_lookup h.1 (show isIdentifier "to_name" = true by decide)
    have hargs : ReadsArgs [Code.word table, value] _ :=
      ReadsArgs.pair (ReadsExpr.word (isPathName_of_isIdentifier h.2)) (hvalue false)
    exact ⟨_, ((ReadsTerm.call hf hargs).method (by decide) (ReadsArgs.single ReadsExpr.str)).method
      (by decide) ReadsArgs.nil⟩

theorem encoder_expr (h : codec.IsPlain) (hvalue : ∀ alone, ReadsExpr alone value v) :
    ∃ e, ∀ alone, ReadsExpr alone (codec.encoder value) e := by
  obtain ⟨e, he⟩ := encoder_reads h hvalue
  obtain ⟨-, -, harrow, hne⟩ := encoder_begins codec value []
  exact ⟨e, fun alone => he.expr hne harrow⟩

theorem encoder_refer (h : codec.IsPlain) (hvalue : ∀ alone, ReadsExpr alone value v) :
    ∃ e, ∀ alone, ReadsExpr alone (refer (codec.encoder value)) e := by
  obtain ⟨e, he⟩ := encoder_reads h hvalue
  have hrefer : ReadsOperand (refer (codec.encoder value)) _ :=
    ReadsOperand.refer he.operand fun rest =>
      ⟨(encoder_begins codec value rest).1, (encoder_begins codec value rest).2.1⟩
  exact ⟨_, fun alone => hrefer.expr nofun rfl⟩

end Codecs

/-! ## The library that emitted code calls -/

section Library

variable {tg : Target} {args : List Code} {es : List Expr} {key raw : Code}
  {k r : Expr}

/-- The names of the library are paths of bare names. -/
theorem exists_name (h : isPlainPath tg.runtime = true) :
    ∃ leading first inner, isPathName first = true ∧ (∀ n ∈ inner, isPathName n = true) ∧
      ∀ names, tg.name names = barePath leading first (inner ++ names) := by
  obtain ⟨leading, first, inner, hruntime, hfirst, hinner, -⟩ := exists_of_isPlainPath h
  refine ⟨leading, first, inner, hfirst, hinner, fun names => ?_⟩
  have hfold (c : List String) : ∀ names : List String,
      names.foldl member (barePath leading first c) = barePath leading first (c ++ names) := by
    intro names
    induction names generalizing c with
    | nil => rw [List.append_nil]; rfl
    | cons n names ih => rw [List.foldl_cons, member_barePath, ih, List.append_assoc]; rfl
  rw [Target.name, hruntime, hfold]

theorem name_ty (h : isPlainPath tg.runtime = true) (names : List String)
    (hnames : ∀ n ∈ names, isPathName n = true) :
    ∃ ty, ReadsTy (tg.name names) ty := by
  obtain ⟨leading, first, inner, hfirst, hinner, hname⟩ := exists_name h
  rw [hname]
  exact ⟨_, ReadsTy.bare hfirst (List.forall_mem_append.2 ⟨hinner, hnames⟩)⟩

theorem name_dynRef (h : isPlainPath tg.runtime = true) (names : List String)
    (hnames : ∀ n ∈ names, isPathName n = true) :
    ∃ ty, ReadsTy (dynRef (tg.name names)) ty := by
  obtain ⟨leading, first, inner, hfirst, hinner, hname⟩ := exists_name h
  rw [hname]
  exact ⟨_, ReadsTy.dynRef hfirst (List.forall_mem_append.2 ⟨hinner, hnames⟩)⟩

/-- A function of the library is called. -/
theorem call_name (h : isPlainPath tg.runtime = true) (names : List String)
    (hnames : ∀ n ∈ names, isPathName n = true)
    (hargs : ReadsArgs args es) :
    ∃ f, ReadsTerm (call (tg.name names) args) (.call f es) ∧
      startsOp "->" (call (tg.name names) args) = false ∧ call (tg.name names) args ≠ [] := by
  obtain ⟨leading, first, inner, hfirst, hinner, hname⟩ := exists_name h
  rw [hname]
  refine ⟨_, ReadsTerm.call (ReadsCallee.bare hfirst (List.forall_mem_append.2 ⟨hinner, hnames⟩)) hargs,
    ?_, by simp [call, Code.tuple, Tokens.parens]⟩
  exact not_startsOp_barePath (by decide)

theorem missing_reads (h : isPlainPath tg.runtime = true) (hkey : ReadsExpr true key k) :
    ∃ e, ∀ alone, ReadsExpr alone (tg.missing key) e := by
  have hnames : ∀ n ∈ ["DecodeError", "missing"], isPathName n = true := by decide
  obtain ⟨f, hf, harrow, hne⟩ := call_name h _ hnames (ReadsArgs.single hkey)
  exact ⟨_, fun alone => hf.expr hne harrow⟩

theorem invalid_reads (h : isPlainPath tg.runtime = true) (hkey : ReadsExpr false key k)
    (hraw : ReadsExpr false raw r) : ∃ e, ∀ alone, ReadsExpr alone (tg.invalid key raw) e := by
  have hnames : ∀ n ∈ ["DecodeError", "invalid"], isPathName n = true := by decide
  obtain ⟨f, hf, harrow, hne⟩ := call_name h _ hnames (ReadsArgs.pair hkey hraw)
  exact ⟨_, fun alone => hf.expr hne harrow⟩

end Library

/-! ## Reading parameters -/

section Reading

variable {tg : Target} {c key t : Code} {e e' k : Expr} {codec : Codec}

/-- A value that is there, or else a fault. -/
theorem ReadsTerm.orElse (hc : ReadsTerm c e) (ht : ReadsExpr true t e') :
    ReadsTerm (Code.propagate (Code.method c "ok_or_else" [Code.thunk t]))
      (.propagate (.methodCall e "ok_or_else" none [.closure none [] [] none e'])) :=
  (hc.method (by decide) (ReadsArgs.single (ReadsExpr.thunk ht))).propagate

theorem ReadsStmts.single {s : Stmt} (h : ReadsStmt c s) : ReadsStmts c [s] := by
  have hcons := ReadsStmts.nil.cons h
  rwa [List.append_nil] at hcons

theorem readPath_reads (h : isPlainPath tg.runtime = true) (hcodec : codec.IsPlain) (name : String)
    (nullable : Bool) : ∃ e, ReadsExpr false (readPath tg (str name) codec nullable) e := by
  have hkey : ∀ alone, ReadsExpr alone (str name) _ := fun _ => ReadsExpr.str
  have hword : ∀ alone, ReadsExpr alone (word "__raw") _ := fun _ => ReadsExpr.word (by decide)
  obtain ⟨missing, hmissing⟩ := missing_reads h (hkey true)
  obtain ⟨invalid, hinvalid⟩ := invalid_reads h (hkey false) (hword false)
  obtain ⟨decoder, hdecoder⟩ := decoder_reads hcodec
  have hraw : ReadsTerm (propagate (method (method (word "__state") "path_parameter" [str name])
      "ok_or_else" [thunk (tg.missing (str name))])) _ :=
    ((ReadsTerm.word (by decide)).method (by decide) (ReadsArgs.single ReadsExpr.str)).orElse
      (hmissing true)
  have hvalue : ReadsTerm (propagate (method (call (parens codec.decoder) [word "__raw"])
      "ok_or_else" [thunk (tg.invalid (str name) (word "__raw"))])) _ :=
    (ReadsTerm.call (ReadsCallee.parens (hdecoder true))
      (ReadsArgs.single (hword true))).orElse (hinvalid true)
  have hblock : ReadsTerm (braces (Code.bind (word "__raw") _ ++ _)) _ :=
    ReadsTerm.block ((ReadsStmts.last hvalue rfl nofun rfl).cons
      (ReadsStmt.bind (by decide) (hraw.expr nofun rfl)))
  cases nullable with
  | false => exact ⟨_, hblock.expr nofun rfl⟩
  | true =>
    obtain ⟨e, he⟩ := ReadsTerm.some (ReadsArgs.single (hblock.expr nofun rfl))
    exact ⟨_, he.expr nofun rfl⟩

theorem ReadsCallee.word {name : String} (h : isPathName name = true) :
    ReadsCallee (Code.word name) (.path (.mk none 0 false [.plain name])) := by
  have hbare : ReadsCallee (barePath false name []) _ :=
    ReadsCallee.bare h (List.forall_mem_nil _)
  exact @hbare

/-- A default that is read as it is emitted, also behind a comparison: a simple expression whose
operators bind more tightly than one. -/
def isSimpleDefault (code : Code) : Bool :=
  (exprOf? code).any fun e => e.isSimple && !e.isLoose

theorem exists_of_isSimpleDefault {code : Code} (h : isSimpleDefault code = true) :
    ∃ e, exprOf? code = some e ∧ e.isSimple = true ∧ e.isLoose = false := by
  unfold isSimpleDefault at h
  cases he : exprOf? code with
  | none =>
    rw [he] at h
    cases h
  | some e =>
    rw [he] at h
    exact ⟨e, rfl, by simpa using h⟩

def Fallback.IsSimple : Fallback → Prop
  | .default code => isSimpleDefault code = true
  | .absent | .missing => True

/-- The codec's names are read, and so is the default. -/
def QueryForm.IsPlain : QueryForm → Prop
  | .scalar codec fallback _ | .list codec fallback => codec.IsPlain ∧ fallback.IsSimple

/-- The value of the query under a key, if it is there. -/
theorem readScalar_reads (hcodec : codec.IsPlain) (key : String) :
    ∃ e, ReadsTerm (propagate (call (word queryReader)
      [str key, method (word "__state") "query_parameters" [], codec.decoder])) e := by
  obtain ⟨decoder, hdecoder⟩ := decoder_reads hcodec
  have hmap : ReadsTerm (method (word "__state") "query_parameters" []) _ :=
    (ReadsTerm.word (by decide)).method (by decide) ReadsArgs.nil
  exact ⟨_, (ReadsTerm.call (ReadsCallee.word (by decide)) (ReadsArgs.of_forall₂
    (.cons ReadsExpr.str (.cons (hmap.expr nofun rfl) (.cons (hdecoder false) .nil))))).propagate⟩

/-- The values of the query under a key, if there is one. -/
theorem readList_reads (h : isPlainPath tg.runtime = true) (hcodec : codec.IsPlain) (key : String) :
    ∃ e, ReadsTerm (QueryForm.readList tg (str key) codec) e := by
  obtain ⟨decoder, hdecoder⟩ := decoder_reads hcodec
  have hitem : ReadsExpr false (word "__item") _ := ReadsExpr.word (by decide)
  obtain ⟨invalid, hinvalid⟩ := invalid_reads h (ReadsExpr.str) hitem
  have htext : ReadsTerm (method (word "__item") "as_str" []) _ :=
    (ReadsTerm.word (by decide)).method (by decide) ReadsArgs.nil
  have heach : ReadsTerm (method (call (parens codec.decoder) [method (word "__item") "as_str" []])
      "ok_or_else" [thunk (tg.invalid (str key) (word "__item"))]) _ :=
    (ReadsTerm.call (ReadsCallee.parens (hdecoder true))
      (ReadsArgs.single (htext.expr nofun rfl))).method (by decide)
        (ReadsArgs.single (ReadsExpr.thunk (hinvalid true)))
  have hblock : ReadsTerm (braces (method (call (parens codec.decoder)
      [method (word "__item") "as_str" []]) "ok_or_else"
      [thunk (tg.invalid (str key) (word "__item"))])) _ :=
    ReadsTerm.block (ReadsStmts.last heach rfl nofun rfl)
  have hmapped : ReadsTerm (method (method (word "__items") "iter" []) "map" [closure (word "__item")
      (braces (method (call (parens codec.decoder) [method (word "__item") "as_str" []]) "ok_or_else"
        [thunk (tg.invalid (str key) (word "__item"))]))]) _ :=
    ((ReadsTerm.word (by decide)).method (by decide) ReadsArgs.nil).method (by decide)
      (ReadsArgs.single (ReadsExpr.closure (ReadsParam.name (by decide)) (hblock.expr nofun rfl)))
  obtain ⟨vec, hvec⟩ := ReadsTy.exists_vec ReadsTy.infer
  obtain ⟨collected, hcollected⟩ := ReadsTy.exists_result hvec ReadsTy.infer
  have hitems := hmapped.turbofish (show isIdentifier "collect" = true by decide) hcollected
    ReadsArgs.nil
  have hcode (c ty : Code) : c ++ op "." ++ call (word "collect" ++ op "::" ++ op "<" ++ ty ++ op ">")
      [] = c ++ op "." ++ word "collect" ++ op "::" ++ op "<" ++ ty ++ op ">" ++ tuple [] := by
    simp only [call, List.append_assoc]
  rw [hcode] at hitems
  have hbody := ReadsTerm.block (ReadsStmts.last hitems rfl nofun rfl)
  exact ⟨_, (((((ReadsTerm.word (by decide)).method (by decide) ReadsArgs.nil).method (by decide)
    (ReadsArgs.single ReadsExpr.str)).method (by decide) (ReadsArgs.single
      (ReadsExpr.closure (ReadsParam.name (by decide)) (hbody.expr nofun rfl)))).method (by decide)
        ReadsArgs.nil).propagate⟩

theorem readQuery_reads (h : isPlainPath tg.runtime = true) {form : QueryForm}
    (hform : form.IsPlain) (key : String) : ∃ e, ReadsExpr false (form.readCode tg (str key)) e := by
  have hkey : ReadsExpr true (str key) _ := ReadsExpr.str
  obtain ⟨missing, hmissing⟩ := missing_reads h hkey
  cases form with
  | scalar codec fallback isText =>
    obtain ⟨hcodec, hfallback⟩ := hform
    obtain ⟨value, hvalue⟩ := readScalar_reads hcodec key
    cases fallback with
    | absent => exact ⟨_, hvalue.expr nofun rfl⟩
    | missing => exact ⟨_, (hvalue.orElse (hmissing true)).expr nofun rfl⟩
    | default code =>
      obtain ⟨e, he, -, -⟩ := exists_of_isSimpleDefault hfallback
      have hbody : ∃ e, ReadsExpr true (if isText then stringOf code else code) e := by
        split
        · obtain ⟨s, hs⟩ := ReadsTerm.stringOf (ReadsArgs.single (ReadsExpr.of_exprOf? he))
          exact ⟨s, hs.expr nofun rfl⟩
        · exact ⟨e, ReadsExpr.of_exprOf? he⟩
      obtain ⟨body, hbody⟩ := hbody
      exact ⟨_, (hvalue.method (by decide) (ReadsArgs.single (ReadsExpr.thunk hbody))).expr nofun rfl⟩
  | list codec fallback =>
    obtain ⟨hcodec, hfallback⟩ := hform
    obtain ⟨values, hvalues⟩ := readList_reads h hcodec key
    cases fallback with
    | absent => exact ⟨_, hvalues.expr nofun rfl⟩
    | missing => exact ⟨_, (hvalues.method (by decide) ReadsArgs.nil).expr nofun rfl⟩
    | default code =>
      obtain ⟨e, he, -, -⟩ := exists_of_isSimpleDefault hfallback
      exact ⟨_, (hvalues.method (by decide) (ReadsArgs.single (ReadsExpr.thunk
        (ReadsExpr.of_exprOf? he)))).expr nofun rfl⟩

theorem readPayload_reads (h : isPlainPath tg.runtime = true) {type : Code} {ty : Ty}
    (hty : ReadsTy type ty) (name : String) (nullable : Bool) :
    ∃ e, ReadsExpr false (readPayload tg (str name) type nullable) e := by
  have hkey : ReadsExpr true (str name) _ := ReadsExpr.str
  obtain ⟨missing, hmissing⟩ := missing_reads h hkey
  have hcast := (ReadsTerm.word (show isPathName "__extra" = true by decide)).turbofish
    (show isIdentifier "downcast_ref" = true by decide) hty ReadsArgs.nil
  have hvalue : ReadsTerm (method (method (method (word "__state") "extra" []) "and_then"
      [closure (word "__extra") (word "__extra" ++ op "." ++
        call (word "downcast_ref" ++ op "::" ++ op "<" ++ type ++ op ">") [])]) "cloned" []) _ :=
    (((ReadsTerm.word (by decide)).method (by decide) ReadsArgs.nil).method (by decide)
      (ReadsArgs.single (ReadsExpr.closure (ReadsParam.name (by decide)) (hcast.expr nofun rfl)))).method
        (by decide) ReadsArgs.nil
  cases nullable with
  | true => exact ⟨_, hvalue.expr nofun rfl⟩
  | false => exact ⟨_, (hvalue.orElse (hmissing true)).expr nofun rfl⟩

/-- The type of a parameter is plain, and so is its default if it travels in the query. -/
structure Binding.IsPlain (b : Binding) : Prop where
  type : isPlainType b.type = true
  default : b.carrier = .query → (b.default?.bind exprTokens?).all isSimpleDefault = true

instance (b : Binding) : Decidable (Binding.IsPlain b) :=
  decidable_of_iff (isPlainType b.type = true ∧
    (b.carrier = .query → (b.default?.bind exprTokens?).all isSimpleDefault = true))
    ⟨fun h => ⟨h.1, h.2⟩, fun h => ⟨h.type, h.default⟩⟩

theorem isPlainType_nonNullable {t : TypeRef} (h : isPlainType t = true) :
    isPlainType t.nonNullable = true := by
  cases t
  exact h

theorem isPlainType_element {t element : TypeRef} (h : isPlainType t = true)
    (helement : t.element? = some element) : isPlainType element = true := by
  obtain ⟨name, args, nullable⟩ := t
  unfold TypeRef.element? at helement
  split at helement
  · next e hargs =>
    dsimp only at hargs
    subst hargs
    split at helement
    · cases helement
      simp only [isPlainType, arePlainTypes, Bool.and_true, Bool.and_eq_true] at h
      exact h.2
    · cases helement
  · cases helement

theorem isSimple_fallback (nullable : Bool) (default? : Option Code) :
    (∀ code, default? = some code → isSimpleDefault code = true) →
      Fallback.IsSimple (if nullable then .absent
        else match default? with
          | some e => .default e
          | none => .missing) := by
  intro h
  cases nullable with
  | true => trivial
  | false =>
    cases default? with
    | none => trivial
    | some code => exact h code rfl

theorem defaultCode_simple {place : Place} {b : Binding} {default? : Option Code}
    (hb : Binding.IsPlain b) (hquery : b.carrier = .query) (h : defaultCode place b = .ok default?) :
    ∀ code, default? = some code → isSimpleDefault code = true := by
  rintro code rfl
  unfold defaultCode at h
  split at h
  · cases h
  · next e he =>
    split at h
    · next ts hts =>
      cases h
      have hall := hb.default hquery
      rw [he, Option.bind_some, hts] at hall
      exact hall
    · cases h

theorem ofBinding_plain {catalog : Catalog} {place : Place} {b : Binding} {form : QueryForm}
    (hb : Binding.IsPlain b) (hquery : b.carrier = .query)
    (h : QueryForm.ofBinding catalog place b = .ok form) :
    form.IsPlain := by
  unfold QueryForm.ofBinding at h
  obtain ⟨default?, hdefault, h⟩ := bind_eq_ok.1 h
  have hfallback := isSimple_fallback b.type.nullable default? (defaultCode_simple hb hquery hdefault)
  dsimp only at h
  split at h
  · next element helement =>
    obtain ⟨codec, hcodec, h⟩ := bind_eq_ok.1 h
    obtain rfl := pure_eq_ok.1 h
    exact ⟨ofType_plain (isPlainType_element hb.type helement) hcodec, hfallback⟩
  · obtain ⟨codec, hcodec, h⟩ := bind_eq_ok.1 h
    obtain rfl := pure_eq_ok.1 h
    exact ⟨ofType_plain hb.type hcodec, hfallback⟩

theorem readBinding_reads (h : isPlainPath tg.runtime = true) {place : Place} {b : Binding}
    {value : Code} (hb : Binding.IsPlain b) (hread : readBinding tg place b = .ok value) :
    ∃ e, ReadsExpr false value e := by
  unfold readBinding at hread
  split at hread
  · obtain ⟨codec, hcodec, hread⟩ := bind_eq_ok.1 hread
    obtain rfl := pure_eq_ok.1 hread
    exact readPath_reads h (ofType_plain hb.type hcodec) _ _
  · next hquery =>
    obtain ⟨form, hform, hread⟩ := bind_eq_ok.1 hread
    obtain rfl := pure_eq_ok.1 hread
    exact readQuery_reads h (ofBinding_plain hb hquery hform) _
  · obtain ⟨type, htype, hread⟩ := bind_eq_ok.1 hread
    obtain rfl := pure_eq_ok.1 hread
    obtain ⟨ty, hty⟩ := typeCode_reads (isPlainType_nonNullable hb.type) htype
    exact readPayload_reads h hty _ _

/-- A local variable holds a bound parameter. -/
theorem readLocal_reads (h : isPlainPath tg.runtime = true) {place : Place} {b : Binding}
    {named : Code × Code} (hb : Binding.IsPlain b) (hread : readLocal tg place b = .ok named) :
    ∃ x s, named.1 = word x ∧ isIdentifier x = true ∧ ReadsStmt named.2 s := by
  unfold readLocal at hread
  obtain ⟨x, hx, hread⟩ := bind_eq_ok.1 hread
  obtain ⟨value, hvalue, hread⟩ := bind_eq_ok.1 hread
  obtain rfl := pure_eq_ok.1 hread
  obtain ⟨e, he⟩ := readBinding_reads h hb hvalue
  exact ⟨x, _, rfl, isIdentifier_of_identifier hx, ReadsStmt.bind (isIdentifier_of_identifier hx) he⟩

end Reading

end TypedRoutes.Emission
