import TypedRoutes.Emission.EnumTable
import TypedRoutes.Proofs.ReadableBindings

/-!
# Route types whose functions are read back

* `decodeFunction_reads`, `locationFunction_reads`, `navigationFunction_reads` : the functions of a
  route type are read as members of an implementation;
* `Node.IsPlain` : a route whose types are plain and whose defaults are simple;
* `isSome_routeCode` : all functions of a plain route type are read as an item.
-/

namespace TypedRoutes.Emission

open Syntax Code
open Parse (Takes Row)

/-! ## Calls at the end of a block -/

section Calls

variable {leading : Bool} {first : String} {names : List String} {args : List Code} {rest : Code}

theorem takes_pathName (h : isPathName first = true) :
    Takes plainPath.pathName (word first) first rest :=
  if_pos (by simpa [isPathName] using h)

theorem takes_plainPath (hfirst : isPathName first = true)
    (hnames : ∀ n ∈ names, isPathName n = true) (hrest : startsOp "::" rest = false) :
    Takes plainPath (barePath leading first names) ⟨leading, first :: names⟩ rest := by
  have hrow : Row (startsOp "::") (do Parse.op "::"; plainPath.pathName) rest (path names ++ rest)
      names := by
    induction names with
    | nil => exact .stop hrest
    | cons n names ih =>
      have hcode : path (n :: names) ++ rest = op "::" ++ (word n ++ (path names ++ rest)) := by
        simp only [path, List.flatMap_cons, List.append_assoc]
      rw [hcode]
      refine .next rfl ?_ ?_ (ih fun m hm => hnames m (List.mem_cons_of_mem _ hm))
      · exact Parse.bind_eq_some.2 ⟨(), _, rfl, takes_pathName (hnames n List.mem_cons_self)⟩
      · have hop : (op "::").length = 2 := rfl
        simp only [List.length_append, hop]
        omega
  refine .bind ?_ (.bind (takes_pathName hfirst) (.last hrow.takes_manyWhile .pure))
  rw [List.append_assoc]
  exact takes_leading _

/-- A path name in front of a further one begins no item, no block and no statement of its own. -/
theorem begins_pathName (hfirst : isPathName first = true) (rest : Code) :
    startsItem (.ident first :: (op "::" ++ rest)) = false ∧
      startsBlockLike (.ident first :: (op "::" ++ rest)) = false ∧
        beginsStmt (.ident first :: (op "::" ++ rest)) = true ∧
          startsWord "let" (.ident first :: (op "::" ++ rest)) = false := by
  have hno (w : String) (hw : isPathName w = false) :
      startsWord w (.ident first :: (op "::" ++ rest)) = false := startsWord_of_isPathName hfirst hw
  have hnext : (Token.ident first :: (op "::" ++ rest)).drop 1 = op "::" ++ rest := rfl
  have hcolons : startsOp "::" (op "::" ++ rest) = true := rfl
  have hident : startsIdent (op "::" ++ rest) = false := rfl
  have hword (w : String) : startsWord w (op "::" ++ rest) = false := rfl
  have hno_item : ∀ w ∈ ["fn", "mod", "type", "struct", "enum", "trait", "impl", "macro"],
      startsWord w (.ident first :: (op "::" ++ rest)) = false := fun w hw =>
    hno w (by revert w; decide)
  refine ⟨?_, ?_, ?_, hno "let" (by decide)⟩
  · unfold startsItem
    simp only [hnext, hcolons, hident, hword, hno "pub" (by decide), hno "extern" (by decide),
      hno "use" (by decide), hno "static" (by decide), hno "const" (by decide),
      hno "unsafe" (by decide), hno "async" (by decide), Bool.not_true, Bool.and_false,
      Bool.false_and, Bool.or_false, Bool.false_or]
    simpa using hno_item
  · have hgroup : startsGroup .brace (.ident first :: (op "::" ++ rest)) = false := rfl
    have hlifetime : startsLifetime (.ident first :: (op "::" ++ rest)) = false := rfl
    unfold startsBlockLike
    simp only [hgroup, hlifetime, hno "if" (by decide), hno "while" (by decide),
      hno "for" (by decide), hno "loop" (by decide), hno "match" (by decide), hno "try" (by decide),
      hno "unsafe" (by decide), hno "const" (by decide), Bool.false_and, Bool.or_false]
  · unfold beginsStmt
    rw [hno "else" (by decide)]
    rfl

/-- A call of a name inside a path stands as a statement. -/
theorem beginsStep_call (hfirst : isPathName first = true) (hnames : ∀ n ∈ names, isPathName n = true)
    (hne : names ≠ []) :
    beginsStep (call (barePath leading first names) args ++ rest) = true := by
  have hpath : Takes plainPath (barePath leading first names) ⟨leading, first :: names⟩
      (tuple args ++ rest) := takes_plainPath hfirst hnames rfl
  unfold Takes at hpath
  have hafter : afterPlainPath (call (barePath leading first names) args ++ rest) =
      tuple args ++ rest := by
    unfold afterPlainPath
    rw [call, List.append_assoc, hpath]
  have hnamed : startsNamedCall (call (barePath leading first names) args ++ rest) = false := by
    unfold startsNamedCall
    rw [hafter]
    rfl
  have hbrace : startsBraceCall (call (barePath leading first names) args ++ rest) = false := by
    unfold startsBraceCall
    rw [hafter]
    rfl
  unfold beginsStep beginsExpr
  rw [hnamed, hbrace]
  obtain ⟨n, names, rfl⟩ := List.exists_cons_of_ne_nil hne
  cases leading with
  | true => rfl
  | false =>
    obtain ⟨r, hr⟩ : ∃ r, call (barePath false first (n :: names)) args ++ rest =
        .ident first :: (op "::" ++ r) :=
      ⟨_, by simp only [call, barePath, path, List.flatMap_cons, List.append_assoc]; rfl⟩
    obtain ⟨hitem, hblock, hstmt, hlet⟩ := begins_pathName hfirst r
    rw [hr, hitem, hblock, hstmt, hlet]
    rfl

/-- A call of a name of the library stands as a statement. -/
theorem beginsStep_name {tg : Target} (h : isPlainPath tg.runtime = true)
    (hnames : ∀ n ∈ names, isPathName n = true) (hne : names ≠ []) (rest : Code) :
    beginsStep (call (tg.name names) args ++ rest) = true := by
  obtain ⟨leading, first, inner, hfirst, hinner, hname⟩ := exists_name h
  rw [hname]
  exact beginsStep_call hfirst (List.forall_mem_append.2 ⟨hinner, hnames⟩) (by simp [hne])

end Calls

/-! ## Making a value -/

section Decode

variable {tg : Target} {place : Place} {n : Node} {c : Code}

theorem exists_locals {locals : List (Code × Code)}
    (h : ∀ l ∈ locals, ∃ x s, l.1 = word x ∧ isIdentifier x = true ∧ ReadsStmt l.2 s) :
    ∃ (names : List String) (ss : List Stmt), locals.map (·.1) = names.map word ∧
      (∀ x ∈ names, isIdentifier x = true) ∧ List.Forall₂ ReadsStmt (locals.map (·.2)) ss := by
  induction locals with
  | nil => exact ⟨[], [], rfl, List.forall_mem_nil _, .nil⟩
  | cons l locals ih =>
    obtain ⟨⟨x, s, hl, hx, hs⟩, hlocals⟩ := List.forall_mem_cons.1 h
    obtain ⟨names, ss, hnames, hident, hss⟩ := ih hlocals
    refine ⟨x :: names, s :: ss, ?_, List.forall_mem_cons.2 ⟨hx, hident⟩, .cons hs hss⟩
    rw [List.map_cons, List.map_cons, hl, hnames]

/-- A value of the route type from its parameters. -/
theorem self_reads {names : List String} (hnames : ∀ x ∈ names, isIdentifier x = true)
    (positional : Bool) :
    ∃ e, ReadsExpr true (if positional then call (member (word "Self") "new") (names.map word)
      else word "Self" ++ braces (Tokens.commaSeparated (names.map word))) e := by
  cases positional with
  | false => exact ⟨_, ReadsExpr.record hnames⟩
  | true =>
    have hargs : List.Forall₂ (ReadsExpr false) (names.map word)
        (names.map fun x => .path (.mk none 0 false [.plain x])) := by
      rw [List.forall₂_map_left_iff, List.forall₂_map_right_iff, List.forall₂_same]
      exact fun x hx => ReadsExpr.word (isPathName_of_isIdentifier (hnames x hx))
    have hnew : member (word "Self") "new" = barePath false "Self" ["new"] := rfl
    have hcall : ReadsTerm (call (barePath false "Self" ["new"]) (names.map word)) _ :=
      ReadsTerm.call (ReadsCallee.bare (by decide) (by decide)) (ReadsArgs.of_forall₂ hargs)
    exact ⟨_, hcall.expr nofun rfl⟩

theorem success_reads {value : Code} {e : Expr} (h : ReadsExpr true value e) :
    ∃ s, ReadsStmts (success value) [s] := by
  have hok : member result "Ok" = barePath true "core" ["result", "Result", "Ok"] := rfl
  unfold success
  rw [hok]
  exact ⟨_, ReadsStmts.last (ReadsTerm.call (ReadsCallee.bare (by decide) (by decide))
    (ReadsArgs.single h)) rfl nofun rfl⟩

/-- A function without generic parameters is read as a member. -/
theorem exists_member (marker : Code) {x : String} {output body : Code} {inputs : List Code}
    {is : List FnInput} {output? : Option Ty} {ss : List Stmt} {attrs : List Attr}
    (hx : isIdentifier x = true) (hinputs : List.Forall₂ ReadsInput inputs is)
    (hreceiver : ∀ i ∈ is.tail, i.isReceiver = false) (houtput : ReadsOutput output output?)
    (hbody : ReadsStmts body ss)
    (hmarker : ∀ {g : Grammar} (rest : Code), Takes g.outerAttrs marker attrs (word "pub" ++ rest))
    (hbegins : ∀ rest, (startsOp "#" (marker ++ (word "pub" ++ rest)) &&
      startsOp "!" ((marker ++ (word "pub" ++ rest)).drop 1)) = false) :
    ∃ item, ReadsMember (marker ++ publicFunction (word x) inputs output body) item :=
  ⟨_, ReadsMember.publicFunction
    (ReadsFunction.of_parts hx ReadsGenerics.none hinputs hreceiver houtput hbody) hmarker hbegins⟩

theorem decodeFunction_reads (h : isPlainPath tg.runtime = true)
    (hb : ∀ b ∈ n.bindings, Binding.IsPlain b) (hcode : decodeFunction tg place n = .ok c) :
    ∃ item, ReadsMember c item := by
  obtain ⟨locals, hlocals, hcode⟩ := bind_eq_ok.1 hcode
  obtain rfl := pure_eq_ok.1 hcode
  obtain ⟨names, ss, hnames, hident, hss⟩ := exists_locals fun l hl => by
    obtain ⟨b, hmem, hread⟩ := exists_of_mem_mapM hlocals l hl
    exact readLocal_reads h (hb b hmem) hread
  obtain ⟨self, hself⟩ := self_reads hident (Bindings.anyPositional n.bindings)
  obtain ⟨value, hvalue⟩ := success_reads hself
  obtain ⟨state, hstate⟩ := name_dynRef h ["NavigationState"] (by decide)
  obtain ⟨error, herror⟩ := name_ty h ["DecodeError"] (by decide)
  obtain ⟨output, houtput⟩ := ReadsTy.exists_result
    (ReadsTy.word (show isPathName "Self" = true by decide)) herror
  have hbody := ReadsStmts.flatten hss hvalue
  rw [← List.flatMap_def, ← hnames] at hbody
  exact exists_member _ (by decide)
    (.cons (ReadsInput.typed (x := "__state") (by decide) hstate) .nil) (List.forall_mem_nil _)
    (Or.inr ⟨output, nofun, rfl, houtput⟩) hbody (fun _ => rfl) fun _ => rfl

end Decode

/-! ## Writing a value -/

section Write

variable {tg : Target} {place : Place} {n : Node} {c : Code} {x : String} {codec : Codec}

theorem isIdentifier_localName (p : String) : isIdentifier (localName p) = true := by
  have hwords : ∀ w ∈ "_" :: reservedWords, w.toList.take 2 ≠ ['_', '_'] := by decide
  have hlocal : (localName p).toList.take 2 = ['_', '_'] := by
    simp [localName]
  have hmem : localName p ∉ "_" :: reservedWords := fun h => hwords _ h hlocal
  simpa [isIdentifier] using hmem

theorem ReadsTerm.selfField (hx : isIdentifier x = true) :
    ReadsTerm (Emission.selfField x) (.field selfExpr x) :=
  (ReadsTerm.word (by decide)).field hx

theorem ReadsTerm.refer {e : Expr} {alone : Bool} (h : ReadsTerm c e)
    (hwords : ∀ rest, startsWord "raw" (c ++ rest) = false ∧ startsWord "mut" (c ++ rest) = false) :
    ReadsExpr alone (Code.refer c) (.reference false e) :=
  ReadsOperand.expr (ReadsOperand.refer h.operand hwords) nofun rfl

theorem referSelf_operand (hx : isIdentifier x = true) :
    ReadsOperand (refer (Emission.selfField x)) (.reference false (.field selfExpr x)) :=
  ReadsOperand.refer (ReadsTerm.selfField hx).operand fun _ => ⟨rfl, rfl⟩

theorem referSelf_reads (hx : isIdentifier x = true) (alone : Bool) :
    ReadsExpr alone (refer (Emission.selfField x)) (.reference false (.field selfExpr x)) :=
  (ReadsTerm.selfField hx).refer fun _ => ⟨rfl, rfl⟩

/-- A path parameter is encoded and kept in a variable. -/
theorem writePath_reads (h : isPlainPath tg.runtime = true)
    (hfield : ∀ f, n.field? x = some f → isPlainType f.type = true)
    (hwrite : writePath tg place n x = .ok c) : ∃ s, ReadsStmt c s := by
  obtain ⟨f, hf, hwrite⟩ := bind_eq_ok.1 hwrite
  obtain ⟨codec, hcodec, hwrite⟩ := bind_eq_ok.1 hwrite
  obtain ⟨name, hname, hwrite⟩ := bind_eq_ok.1 hwrite
  obtain rfl := pure_eq_ok.1 hwrite
  have hname := isIdentifier_of_identifier hname
  have hplain : codec.IsPlain := by
    unfold backingField at hf
    split at hf
    · next f' hf' =>
      cases hf
      exact ofType_plain (hfield _ hf') hcodec
    · cases hf
  have hencoded : ∃ e, ReadsExpr true (refer (if f.type.nullable then
      method (method (method (selfField name) "as_ref" []) "map"
        [closure (word "__value") (codec.encoder (word "__value"))]) "unwrap_or_default" []
      else codec.encoder (refer (selfField name)))) e := by
    cases f.type.nullable with
    | true =>
      obtain ⟨each, heach⟩ := encoder_expr hplain fun alone =>
        ReadsExpr.word (show isPathName "__value" = true by decide)
      have hmapped : ReadsTerm (method (method (method (selfField name) "as_ref" []) "map"
          [closure (word "__value") (codec.encoder (word "__value"))]) "unwrap_or_default" []) _ :=
        (((ReadsTerm.selfField hname).method (by decide) ReadsArgs.nil).method (by decide)
          (ReadsArgs.single (ReadsExpr.closure (ReadsParam.name (by decide)) (heach true)))).method
            (by decide) ReadsArgs.nil
      exact ⟨_, hmapped.refer fun _ => ⟨rfl, rfl⟩⟩
    | false =>
      obtain ⟨e, he⟩ := encoder_refer hplain (referSelf_reads hname)
      exact ⟨e, he true⟩
  obtain ⟨e, he⟩ := hencoded
  obtain ⟨f, hcall, harrow, hne⟩ := call_name h ["encode_component"] (by decide)
    (ReadsArgs.single he)
  exact ⟨_, ReadsStmt.bind (isIdentifier_localName x) (hcall.expr hne harrow)⟩

/-! ### Adding to the query -/

theorem pushPair_reads (hcodec : codec.IsPlain) (key : String) {value : Code} {v : Expr}
    (hvalue : ∀ alone, ReadsExpr alone value v) :
    ∃ s, ReadsStmt (QueryForm.pushPair (str key) codec value) s := by
  obtain ⟨e, he⟩ := encoder_expr hcodec hvalue
  have hpair : ReadsTerm (tuple [str key, codec.encoder value]) _ :=
    ReadsTerm.tuple (ReadsArgs.pair ReadsExpr.str (he false)) (Nat.succ_succ_ne_one 0)
  exact ⟨_, ReadsStmt.step ((ReadsTerm.word (show isPathName "__query" = true by decide)).method
    (by decide) (ReadsArgs.single (hpair.expr nofun rfl))) rfl nofun fun _ => rfl⟩

theorem pushEach_reads (hcodec : codec.IsPlain) (key : String) {values : Code} {v : Expr}
    (hvalues : ReadsOperand values v) :
    ∃ s, ReadsStmt (QueryForm.pushEach (str key) codec values) s := by
  obtain ⟨s, hs⟩ := pushPair_reads hcodec key fun _ =>
    ReadsExpr.word (show isPathName "__value" = true by decide)
  exact ⟨_, ReadsStmt.loop (by decide) hvalues.test (ReadsStmts.single hs)⟩

theorem whenPresent_reads (hx : isIdentifier x = true) {held : String}
    (hheld : isIdentifier held = true) {body : Code} {s : Stmt} (hbody : ReadsStmt body s) :
    ∃ s, ReadsStmt (QueryForm.whenPresent (selfField x) held body) s := by
  have hcode : QueryForm.whenPresent (selfField x) held body = word "if" ++
      (word "let" ++ present (word held) ++ op "=" ++ refer (selfField x)) ++ braces body := by
    simp only [QueryForm.whenPresent, List.append_assoc]
  rw [hcode]
  exact ⟨_, ReadsStmt.cond (ReadsTest.bindPresent hheld (referSelf_operand hx))
    (ReadsStmts.single hbody)⟩

theorem unlessDefault_reads (hx : isIdentifier x = true) {default : Code}
    (hdefault : isSimpleDefault default = true) {body : Code} {s : Stmt} (hbody : ReadsStmt body s) :
    ∃ s, ReadsStmt (QueryForm.unlessDefault (selfField x) default body) s := by
  obtain ⟨e, he, hsimple, htight⟩ := exists_of_isSimpleDefault hdefault
  have hcode : QueryForm.unlessDefault (selfField x) default body = word "if" ++
      (selfField x ++ op "!=" ++ default) ++ braces body := by
    simp only [QueryForm.unlessDefault, List.append_assoc]
  rw [hcode]
  exact ⟨_, ReadsStmt.cond (ReadsTest.compare hx he hsimple htight) (ReadsStmts.single hbody)⟩

theorem pushCode_reads (hx : isIdentifier x = true) (key : String) {form : QueryForm}
    (hform : form.IsPlain) : ∃ s, ReadsStmt (form.pushCode (str key) (selfField x)) s := by
  have hself := referSelf_reads hx
  have hvalue : isPathName "__value" = true := by decide
  have hvalues : ReadsTerm (word "__values") _ := ReadsTerm.word (by decide)
  cases form with
  | scalar codec fallback isText =>
    obtain ⟨hcodec, hfallback⟩ := hform
    obtain ⟨one, hone⟩ := pushPair_reads hcodec key fun alone => ReadsExpr.word hvalue
    obtain ⟨own, hown⟩ := pushPair_reads hcodec key hself
    cases fallback with
    | absent => exact whenPresent_reads hx (by decide) hone
    | missing => exact ⟨own, hown⟩
    | default code => exact unlessDefault_reads hx hfallback hown
  | list codec fallback =>
    obtain ⟨hcodec, hfallback⟩ := hform
    obtain ⟨all, hall⟩ := pushEach_reads hcodec key hvalues.operand
    obtain ⟨own, hown⟩ := pushEach_reads hcodec key (referSelf_operand hx)
    cases fallback with
    | absent => exact whenPresent_reads hx (by decide) hall
    | missing => exact ⟨own, hown⟩
    | default code => exact unlessDefault_reads hx hfallback hown

theorem writeQuery_reads {b : Binding} (hb : Binding.IsPlain b) (hquery : b.carrier = .query)
    (hwrite : writeQuery tg place n b = .ok c) : ∃ s, ReadsStmt c s := by
  obtain ⟨name, form, hname, hform, rfl⟩ := writeQuery_eq_ok hwrite
  exact pushCode_reads (isIdentifier_of_identifier hname) _ (ofBinding_plain hb hquery hform)

/-! ### The location -/

theorem pathCode_reads (t : PathTemplate) : ∃ e, ReadsExpr false (pathCode t) e := by
  unfold pathCode
  split
  · exact ⟨_, ReadsExpr.str⟩
  · have hformat : path ["std", "format"] = barePath true "std" ["format"] := rfl
    have hinvoke : ReadsTerm (invoke (barePath true "std" ["format"])
        (parens (str (formatText t.segments)))) _ := ReadsTerm.invoke (by decide) (by decide)
    rw [hformat]
    exact ⟨_, hinvoke.refer fun _ => ⟨rfl, rfl⟩⟩

theorem string_reads : ∃ ty, ReadsTy stringType ty := by
  have hstring : stringType = barePath true "std" ["string", "String"] := rfl
  rw [hstring]
  exact ⟨_, ReadsTy.bare (by decide) (by decide)⟩

/-- The type of the pairs of a query. -/
theorem pairs_reads : ∃ ty, ReadsTy (generic vecType [tuple [staticStr, stringType]]) ty := by
  obtain ⟨string, hstring⟩ := string_reads
  have hpair : ReadsTy (tuple [staticStr, stringType]) _ :=
    ReadsTy.tuple (.cons (ReadsTy.staticRef (ReadsTy.word (by decide))) (.cons hstring .nil))
      (Nat.succ_succ_ne_one 0)
  exact hpair.exists_vec

theorem locationFunction_reads (h : isPlainPath tg.runtime = true) {t : PathTemplate}
    (hfields : ∀ x ∈ t.names, ∀ f, n.field? x = some f → isPlainType f.type = true)
    (hb : ∀ b ∈ n.bindings, Binding.IsPlain b) (hcode : locationFunction tg place n t = .ok c) :
    ∃ item, ReadsMember c item := by
  obtain ⟨paths, hpaths, hcode⟩ := bind_eq_ok.1 hcode
  obtain ⟨path, hpath, hcode⟩ := bind_eq_ok.1 hcode
  obtain rfl := composedPath_ok hpath
  obtain ⟨queries, hqueries, hcode⟩ := bind_eq_ok.1 hcode
  obtain rfl := pure_eq_ok.1 hcode
  obtain ⟨ps, hps⟩ := exists_forall₂ fun c hc => by
    obtain ⟨x, hx, hwrite⟩ := exists_of_mem_mapM hpaths c hc
    exact writePath_reads h (hfields x hx) hwrite
  obtain ⟨qs, hqs⟩ := exists_forall₂ fun c hc => by
    obtain ⟨b, hmem, hwrite⟩ := exists_of_mem_mapM hqueries c hc
    obtain ⟨hmem, hquery⟩ := mem_carriedBy.1 hmem
    exact writeQuery_reads (hb b hmem) hquery hwrite
  obtain ⟨pathValue, hpath⟩ := pathCode_reads t
  obtain ⟨pairs, hpairs⟩ := pairs_reads
  obtain ⟨output, houtput⟩ := string_reads
  have hcallee : ReadsCallee (barePath true "std" ["vec", "Vec", "new"]) _ :=
    ReadsCallee.bare (by decide) (by decide)
  have hnew : ReadsTerm (call (member vecType "new") []) _ := ReadsTerm.call hcallee ReadsArgs.nil
  have hbind : ReadsStmt _ _ := ReadsStmt.bindTyped queries.isEmpty
    (show isIdentifier "__query" = true by decide) hpairs (hnew.expr nofun rfl)
  have hrefer : ReadsExpr false (refer (word "__query")) _ :=
    (ReadsTerm.word (by decide)).refer fun _ => ⟨rfl, rfl⟩
  obtain ⟨f, hcall, -, hne⟩ := call_name h ["location"] (by decide)
    (ReadsArgs.pair hpath hrefer)
  have hbegins : beginsStep (call (tg.name ["location"]) [pathCode t, refer (word "__query")]) =
      true := by
    rw [← List.append_nil (call _ _)]
    exact beginsStep_name h (by decide) (by decide) []
  have hlast := ReadsStmts.last hcall rfl hne hbegins
  have hbody := ReadsStmts.flatten hps (ReadsStmts.cons hbind (ReadsStmts.flatten hqs hlast))
  rw [← List.append_assoc, ← List.append_assoc] at hbody
  exact exists_member [] (by decide) (.cons ReadsInput.receiver .nil)
    (List.forall_mem_nil _) (Or.inr ⟨output, nofun, rfl, houtput⟩) hbody (fun _ => rfl) fun _ => rfl

end Write

/-! ## Navigation -/

section Navigation

variable {tg : Target} {place : Place} {n : Node} {c extra : Code} {x : String}

theorem any_reads : ∃ ty, ReadsTy (dynRef anyType) ty := by
  have hany : anyType = barePath true "core" ["any", "Any"] := rfl
  rw [hany]
  exact ⟨_, ReadsTy.dynRef (by decide) (by decide)⟩

theorem payloadCode_reads (hcode : payloadCode place n = .ok c) :
    ∃ e, ∀ alone, ReadsExpr alone c e := by
  unfold payloadCode at hcode
  split at hcode
  · cases hcode
    have hnone : absent = barePath true "core" ["option", "Option", "None"] := rfl
    have hterm : ReadsTerm (barePath true "core" ["option", "Option", "None"]) _ :=
      ReadsTerm.bare (by decide) (by decide)
    rw [hnone]
    exact ⟨_, fun alone => hterm.expr nofun rfl⟩
  · next b hb =>
    obtain ⟨_, -, hcode⟩ := bind_eq_ok.1 hcode
    obtain ⟨name, hname, hcode⟩ := bind_eq_ok.1 hcode
    obtain rfl := pure_eq_ok.1 hcode
    have hname := isIdentifier_of_identifier hname
    obtain ⟨any, hany⟩ := any_reads
    cases b.type.nullable with
    | true =>
      have hcast : ReadsExpr true (word "__extra" ++ (word "as" ++ dynRef anyType)) _ :=
        ReadsOperand.cast (ReadsTerm.word (by decide)).operand rfl hany nofun
          fun _ => startsOp_ident
      have hmapped : ReadsTerm (method (method (selfField name) "as_ref" []) "map"
          [closure (word "__extra") (word "__extra" ++ (word "as" ++ dynRef anyType))]) _ :=
        ((ReadsTerm.selfField hname).method (by decide) ReadsArgs.nil).method (by decide)
          (ReadsArgs.single (ReadsExpr.closure (ReadsParam.name (by decide)) hcast))
      exact ⟨_, fun alone => hmapped.expr nofun rfl⟩
    | false =>
      have hcast : ReadsExpr true (refer (selfField name) ++ (word "as" ++ dynRef anyType)) _ :=
        ReadsOperand.cast (referSelf_operand hname) rfl hany nofun fun _ => rfl
      obtain ⟨e, he⟩ := ReadsTerm.some (ReadsArgs.single hcast)
      exact ⟨e, fun alone => he.expr nofun rfl⟩

theorem navigationFunction_reads (h : isPlainPath tg.runtime = true)
    (hx : isIdentifier x = true) {e : Expr} (hextra : ReadsExpr false extra e) :
    ∃ item, ReadsMember (navigationFunction tg extra x) item := by
  obtain ⟨navigator, hnavigator⟩ := name_dynRef h ["Navigator"] (by decide)
  have hlocation : ReadsTerm (method (word "self") "location" []) _ :=
    (ReadsTerm.word (by decide)).method (by decide) ReadsArgs.nil
  have hsend : ReadsTerm (method (word "navigator") x
      [refer (method (word "self") "location" []), extra]) _ :=
    (ReadsTerm.word (by decide)).method hx
      (ReadsArgs.pair (hlocation.refer fun _ => ⟨rfl, rfl⟩) hextra)
  exact exists_member [] hx
    (.cons ReadsInput.receiver (.cons (ReadsInput.typed (by decide) hnavigator) .nil))
    (by simp [FnInput.isReceiver]) (Or.inl ⟨rfl, rfl⟩)
    (ReadsStmts.single (ReadsStmt.step hsend rfl nofun fun _ => rfl)) (fun _ => rfl) fun _ => rfl

end Navigation

/-! ## All functions -/

/-- The navigator that a shell names for its children. -/
def Node.ownKey? (n : Node) : Option KeyBinding :=
  match n.role with
  | .leaf _ _ _ => none
  | .shell key? => key?

/-- A route whose type names are plain and whose defaults are simple: those of its own type, of the
navigators it names, of its parameters, of the fields behind its template and of the enumerations
that it writes. -/
structure Node.IsPlain (catalog : Catalog) (n : Node) : Prop where
  type : isPlainTypeName n.type = true
  parentKey : (n.parentKey?.all fun k => isPlainTypeName k.owner) = true
  ownKey : ((Node.ownKey? n).all fun k => isPlainTypeName k.owner) = true
  bindings : ∀ b ∈ n.bindings, Binding.IsPlain b
  fields : ∀ x ∈ (n.template?.map PathTemplate.names).getD [],
    ((n.field? x).all fun f => isPlainType f.type) = true
  enums : ∀ e ∈ enumsOf catalog n, isPlainTypeName e = true

instance (catalog : Catalog) (n : Node) : Decidable (Node.IsPlain catalog n) :=
  decidable_of_iff (isPlainTypeName n.type = true ∧
    (n.parentKey?.all fun k => isPlainTypeName k.owner) = true ∧
    ((Node.ownKey? n).all fun k => isPlainTypeName k.owner) = true ∧
    (∀ b ∈ n.bindings, Binding.IsPlain b) ∧
    (∀ x ∈ (n.template?.map PathTemplate.names).getD [],
      ((n.field? x).all fun f => isPlainType f.type) = true) ∧
    ∀ e ∈ enumsOf catalog n, isPlainTypeName e = true)
    ⟨fun ⟨h, h₁, h₂, h₃, h₄, h₅⟩ => ⟨h, h₁, h₂, h₃, h₄, h₅⟩,
      fun h => ⟨h.type, h.parentKey, h.ownKey, h.bindings, h.fields, h.enums⟩⟩

section Routes

variable {tg : Target} {place : Place} {n : Node} {c : Code}

/-- The functions of a route type, one after the other. -/
theorem routeCode_members (h : isPlainPath tg.runtime = true) (hn : Node.IsPlain tg.catalog n)
    (hcode : routeCode tg place n = .ok c) :
    ∃ type members items, c = word "impl" ++ type ++ braces (List.flatten members) ∧
      typePath place n.type = .ok type ∧ List.Forall₂ ReadsMember members items := by
  obtain ⟨type, htype, hcode⟩ := bind_eq_ok.1 hcode
  obtain ⟨decode, hdecode, hcode⟩ := bind_eq_ok.1 hcode
  obtain ⟨item, hitem⟩ := decodeFunction_reads h hn.bindings hdecode
  cases ht : n.template? with
  | none =>
    rw [ht] at hcode
    obtain rfl := pure_eq_ok.1 hcode
    exact ⟨type, [decode], [item], by simp, htype, .cons hitem .nil⟩
  | some t =>
    rw [ht] at hcode
    obtain ⟨location, hlocation, hcode⟩ := bind_eq_ok.1 hcode
    obtain ⟨navigation, hnavigation, hcode⟩ := bind_eq_ok.1 hcode
    obtain rfl := pure_eq_ok.1 hcode
    obtain ⟨extra, hextra, hnavigation⟩ := bind_eq_ok.1 hnavigation
    obtain rfl := pure_eq_ok.1 hnavigation
    obtain ⟨e, he⟩ := payloadCode_reads hextra
    have hfields : ∀ x ∈ t.names, ∀ f, n.field? x = some f → isPlainType f.type = true := by
      intro x hx f hf
      have hall := hn.fields x (by rw [ht]; exact hx)
      rwa [hf] at hall
    obtain ⟨item', hitem'⟩ := locationFunction_reads h hfields hn.bindings hlocation
    have hnames : ∀ x ∈ navigationMethods, isIdentifier x = true := by decide
    obtain ⟨items, hitems⟩ := exists_forall₂ (List.forall_mem_map.2 fun x hx =>
      navigationFunction_reads h (hnames x hx) (he false))
    refine ⟨type, decode :: location :: navigationMethods.map (navigationFunction tg extra), _, ?_,
      htype, .cons hitem (.cons hitem' hitems)⟩
    rw [List.flatten_cons, List.flatten_cons, ← List.flatMap_def]

/-- The functions of a plain route type are read as an item. -/
theorem isSome_routeCode (h : isPlainPath tg.runtime = true) (hn : Node.IsPlain tg.catalog n)
    (hcode : routeCode tg place n = .ok c) : (itemsOf? c).isSome = true := by
  obtain ⟨type, members, items, rfl, htype, hmembers⟩ := routeCode_members h hn hcode
  have hplain := typePath_plain hn.type htype
  unfold isPlainName at hplain
  obtain ⟨leading, first, names, rfl, hfirst, hnames, -⟩ :=
    exists_of_isPlainPath (Bool.and_eq_true_iff.1 hplain).1
  exact isSome_itemsOf? nofun rfl fun hn => takes_impl hfirst hnames hmembers (by omega)

end Routes

end TypedRoutes.Emission
