import TypedRoutes.Emission.Block
import TypedRoutes.Proofs.ReadableRoutes

/-!
# Blocks whose code is read back

* `ReadsArm`, `ReadsStmts.choose` : the arms of a selection, and a selection at the end of a block;
* `isSome_getterCode` : the getter of a tree whose root is plain is read as an item;
* `isSome_tableCode` : the table of a plainly named enumeration is;
* `isSome_helperCode` : every helper is.
-/

namespace TypedRoutes.Emission

open Syntax Code
open Parse (Takes Row)

/-! ## Functions as items -/

section Items

variable {x : String} {generics output body : Code} {params : List GenericParam}
  {inputs : List Code} {is : List FnInput} {output? : Option Ty} {ss : List Stmt}

theorem isSome_function (hx : isIdentifier x = true) (hgenerics : ReadsGenerics generics params)
    (hinputs : List.Forall₂ ReadsInput inputs is) (hreceiver : ∀ i ∈ is.tail, i.isReceiver = false)
    (houtput : ReadsOutput output output?) (hbody : ReadsStmts body ss) :
    (itemsOf? (function (word x ++ generics) inputs output body)).isSome = true ∧
      (itemsOf? (publicFunction (word x ++ generics) inputs output body)).isSome = true := by
  have hfunction := ReadsFunction.of_parts hx hgenerics hinputs hreceiver houtput hbody
  have hown : ∃ r, function (word x ++ generics) inputs output body = word "fn" ++ r :=
    ⟨_, by simp only [function, List.append_assoc]; rfl⟩
  obtain ⟨r, hr⟩ := hown
  have htakes {n : Nat} (hn : 2 * Token.countAll (function (word x ++ generics) inputs output body) +
      3 ≤ n) : Takes (grammar n).readItem (function (word x ++ generics) inputs output body) _ [] :=
    takes_function [] .inherited (fun _ => rfl) (fun _ => rfl) hfunction
      (by rw [List.nil_append]; omega)
  have htakes' {n : Nat} (hn : 2 * Token.countAll (word "pub" ++
      function (word x ++ generics) inputs output body) + 3 ≤ n) : Takes (grammar n).readItem
        (word "pub" ++ function (word x ++ generics) inputs output body) _ [] :=
    takes_function (word "pub") .exported (fun _ => rfl) (fun _ => rfl) hfunction (by omega)
  exact ⟨isSome_itemsOf? (by rw [hr]; exact List.cons_ne_nil _ _) (by rw [hr]; rfl) htakes,
    isSome_itemsOf? (List.cons_ne_nil _ _) rfl htakes'⟩

end Items

/-! ## The getter -/

section Getter

variable {tg : Target} {place : Place} {n : Node} {b : Builder} {declaration : String}

/-- The types and navigators in front of a builder's children are read. -/
def Builder.IsPlain : Builder → Prop
  | .go _ type | .shell type => ∃ e, ∀ alone, ReadsExpr alone (member type decodeName) e
  | .name route _ | .routes route _ => route.IsPlain
  | .navigatorKey route key | .parentNavigatorKey route key =>
    route.IsPlain ∧ ∃ e, ReadsExpr true key e

theorem beginsStep_method {c : Code} (h : ∀ rest, beginsStep (c ++ rest) = true) (name : String)
    (args : List Code) (rest : Code) : beginsStep (method c name args ++ rest) = true := by
  rw [method, List.append_assoc, List.append_assoc]
  exact h _

/-- The children stand in a template call, whose tokens are kept as they are. -/
theorem builder_reads (h : isPlainPath tg.runtime = true) : ∀ b : Builder, b.IsPlain →
    (∃ e, ReadsTerm (b.code tg) e) ∧ ∀ rest, beginsStep (b.code tg ++ rest) = true
  | .go path type, ⟨e, he⟩ => by
    obtain ⟨f, hcall, -⟩ := call_name h ["GoRoute", "new"] (by decide)
      (ReadsArgs.pair ReadsExpr.str (he false))
    exact ⟨⟨_, hcall⟩, beginsStep_name h (by decide) (by decide)⟩
  | .shell type, ⟨e, he⟩ => by
    obtain ⟨f, hcall, -⟩ := call_name h ["ShellRoute", "new"] (by decide)
      (ReadsArgs.single (he true))
    exact ⟨⟨_, hcall⟩, beginsStep_name h (by decide) (by decide)⟩
  | .name route n, hb => by
    obtain ⟨⟨e, he⟩, hbegins⟩ := builder_reads h route hb
    exact ⟨⟨_, he.method (by decide) (ReadsArgs.single ReadsExpr.str)⟩,
      beginsStep_method hbegins _ _⟩
  | .routes route children, hb => by
    obtain ⟨⟨e, he⟩, hbegins⟩ := builder_reads h route hb
    have hvec : ReadsTerm (invoke (barePath true "std" ["vec"])
        (brackets (Builder.routeCodes tg children))) _ := ReadsTerm.invoke (by decide) (by decide)
    exact ⟨⟨_, he.method (by decide) (ReadsArgs.single (hvec.expr nofun rfl))⟩,
      beginsStep_method hbegins _ _⟩
  | .navigatorKey route key, ⟨hb, k, hk⟩ | .parentNavigatorKey route key, ⟨hb, k, hk⟩ => by
    obtain ⟨⟨e, he⟩, hbegins⟩ := builder_reads h route hb
    exact ⟨⟨_, he.method (by decide) (ReadsArgs.single hk)⟩, beginsStep_method hbegins _ _⟩

theorem member_reads {c : Code} {x : String} (hc : isPlainName c = true) (hx : isPathName x = true) :
    ∃ e, ∀ alone, ReadsExpr alone (member c x) e := by
  unfold isPlainName at hc
  obtain ⟨leading, first, names, rfl, hfirst, hnames, -⟩ :=
    exists_of_isPlainPath (Bool.and_eq_true_iff.1 hc).1
  rw [member_barePath]
  have hterm : ReadsTerm (barePath leading first (names ++ [x])) _ :=
    ReadsTerm.bare hfirst (List.forall_mem_append.2 ⟨hnames, List.forall_mem_singleton.2 hx⟩)
  have harrow : startsOp "->" (barePath leading first (names ++ [x]) ++ []) = false :=
    not_startsOp_barePath (by decide)
  rw [List.append_nil] at harrow
  exact ⟨_, fun alone => hterm.expr (by cases leading <;> nofun) harrow⟩

theorem ownKeyCode_reads {key? : Option KeyBinding} {own? : Option Code}
    (hkey : (key?.all fun k => isPlainTypeName k.owner) = true)
    (h : ownKeyCode place key? = .ok own?) : ∀ key, own? = some key → ∃ e, ReadsExpr true key e := by
  rintro key rfl
  unfold ownKeyCode at h
  split at h
  · cases h
  · next k hk =>
    obtain ⟨owner, howner, h⟩ := bind_eq_ok.1 h
    obtain ⟨x, hx, h⟩ := bind_eq_ok.1 h
    obtain rfl := Option.some.inj (pure_eq_ok.1 h)
    rw [(Option.filter_eq_some_iff.1 hk).1] at hkey
    have hplain := typePath_plain hkey howner
    obtain ⟨e, he⟩ := member_reads hplain (isPathName_of_isIdentifier (isIdentifier_of_identifier hx))
    exact ⟨e, he true⟩

/-- Something that is there is set, and the builder stays plain. -/
theorem isPlain_with? {α : Type} {set : Builder → α → Builder} {a? : Option α}
    (hset : ∀ b : Builder, ∀ a, a? = some a → b.IsPlain → (set b a).IsPlain) (hb : b.IsPlain) :
    (b.with? set a?).IsPlain := by
  cases a? with
  | none => exact hb
  | some a => exact hset b a rfl hb

theorem nodeBuilder_plain {catalog : Catalog} (hn : Node.IsPlain catalog n)
    (h : nodeBuilder place n = .ok b) : b.IsPlain := by
  obtain ⟨type, htype, h⟩ := bind_eq_ok.1 h
  have hmember : ∃ e, ∀ alone, ReadsExpr alone (member type decodeName) e :=
    member_reads (typePath_plain hn.type htype) (by decide)
  split at h
  · obtain ⟨parent?, hparent, h⟩ := bind_eq_ok.1 h
    obtain rfl := pure_eq_ok.1 h
    have hkeys := ownKeyCode_reads hn.parentKey hparent
    exact isPlain_with? (fun _ key hkey hb => ⟨hb, hkeys key hkey⟩)
      (isPlain_with? (fun _ _ _ hb => hb) hmember)
  · next key? hrole =>
    obtain ⟨own?, hown, h⟩ := bind_eq_ok.1 h
    obtain ⟨parent?, hparent, h⟩ := bind_eq_ok.1 h
    obtain rfl := pure_eq_ok.1 h
    have hownKey : (key?.all fun k => isPlainTypeName k.owner) = true := by
      have hall := hn.ownKey
      rwa [Node.ownKey?, hrole] at hall
    have hownKeys := ownKeyCode_reads hownKey hown
    have hkeys := ownKeyCode_reads hn.parentKey hparent
    exact isPlain_with? (fun _ key hkey hb => ⟨hb, hkeys key hkey⟩)
      (isPlain_with? (fun _ key hkey hb => ⟨hb, hownKeys key hkey⟩) hmember)

/-- The getter of a tree whose root is plain is read as an item. -/
theorem isSome_getterCode {t : RouteTree} {c : Code} (h : isPlainPath tg.runtime = true)
    (hroot : Node.IsPlain tg.catalog t.root) (hcode : getterCode tg declaration t = .ok c) :
    (itemsOf? c).isSome = true := by
  obtain ⟨name, hname, hcode⟩ := bind_eq_ok.1 hcode
  obtain ⟨b, hb, hcode⟩ := bind_eq_ok.1 hcode
  obtain rfl := pure_eq_ok.1 hcode
  have hplain : b.IsPlain := by
    obtain ⟨n, children⟩ := t
    rw [builderOf] at hb
    obtain ⟨own, hown, hb⟩ := bind_eq_ok.1 hb
    obtain ⟨below, -, hb⟩ := bind_eq_ok.1 hb
    obtain rfl := pure_eq_ok.1 hb
    have hown := nodeBuilder_plain hroot hown
    split
    · exact hown
    · exact hown
  obtain ⟨⟨e, he⟩, hbegins⟩ := builder_reads h b hplain
  obtain ⟨base, hbase⟩ := name_ty h ["RouteBase"] (by decide)
  have hbuilt : ReadsTerm (method (b.code tg) "into" []) _ := he.method (by decide) ReadsArgs.nil
  have hlast := beginsStep_method hbegins "into" [] []
  rw [List.append_nil] at hlast
  have hne : tg.name ["RouteBase"] ≠ [] := by
    obtain ⟨t, c, hc, -⟩ := hbase.begins
    rw [hc]
    exact List.cons_ne_nil t c
  have hfunction := isSome_function (isIdentifier_of_identifier hname) ReadsGenerics.none .nil
    (List.forall_mem_nil _) (Or.inr ⟨base, hne, rfl, hbase⟩)
    (ReadsStmts.last hbuilt rfl (by simp [method, call, word, Tokens.word]) hlast)
  exact hfunction.2

end Getter

/-! ## Tables -/

section Tables

variable {place : Place} {enumeration : String} {members : List String} {table : EnumTable}

theorem isIdentifier_of_entriesFrom {seen entries : List (String × String)}
    (h : EnumTable.entriesFrom place enumeration seen members = .ok entries) :
    ∀ entry ∈ entries, isIdentifier entry.1 = true := by
  induction members generalizing seen entries with
  | nil =>
    cases h
    exact List.forall_mem_nil _
  | cons m rest ih =>
    rw [EnumTable.entriesFrom] at h
    obtain ⟨variant, hvariant, h⟩ := bind_eq_ok.1 h
    dsimp only at h
    split at h
    · cases h
    · obtain ⟨entries, hentries, h⟩ := bind_eq_ok.1 h
      obtain rfl := pure_eq_ok.1 h
      exact List.forall_mem_cons.2 ⟨isIdentifier_of_identifier hvariant, ih hentries⟩

theorem typeCode_named {name : String} {c : Code} (h : typeCode place (.named name) = .ok c) :
    typePath place name = .ok c := by
  rw [TypeRef.named, typeCode] at h
  obtain ⟨base, hbase, h⟩ := bind_eq_ok.1 h
  rw [typeCodes] at h
  obtain rfl := pure_eq_ok.1 h
  exact hbase

/-- The table of a plainly named enumeration is read as an item. -/
theorem isSome_tableCode (hname : isPlainTypeName enumeration = true)
    (h : EnumTable.ofMembers place enumeration members = .ok table) :
    (itemsOf? table.code).isSome = true := by
  obtain ⟨type, htype, h⟩ := bind_eq_ok.1 h
  obtain ⟨name, hident, h⟩ := bind_eq_ok.1 h
  obtain ⟨entries, hentries, h⟩ := bind_eq_ok.1 h
  obtain rfl := pure_eq_ok.1 h
  have hplain : isPlainName type = true := typePath_plain hname (typeCode_named htype)
  obtain ⟨ty, hty⟩ := ReadsTy.exists_of_plain hplain
  have hpair : ReadsTy (tuple [type, strRef]) _ :=
    ReadsTy.tuple (.cons hty (.cons (ReadsTy.reference (ReadsTy.word (by decide))) .nil))
      (Nat.succ_succ_ne_one 0)
  have hentry : ∀ entry ∈ entries,
      ∃ e, ReadsExpr false (tuple [member type entry.1, str entry.2]) e := by
    intro entry hmem
    obtain ⟨e, he⟩ := member_reads hplain
      (isPathName_of_isIdentifier (isIdentifier_of_entriesFrom hentries entry hmem))
    have hrow : ReadsTerm (tuple [member type entry.1, str entry.2]) _ :=
      ReadsTerm.tuple (ReadsArgs.pair (he false) ReadsExpr.str) (Nat.succ_succ_ne_one 0)
    exact ⟨_, hrow.expr nofun rfl⟩
  obtain ⟨es, hes⟩ := exists_forall₂ (List.forall_mem_map.2 hentry)
  have hvalue : ReadsExpr false (refer (brackets
      (entries.map fun entry => tuple [member type entry.1, str entry.2]))) _ :=
    (ReadsTerm.brackets hes).refer fun _ => ⟨rfl, rfl⟩
  exact isSome_itemsOf? nofun rfl fun hn =>
    takes_constant (isIdentifier_of_tableName hident) hpair.slice.reference hvalue hn

end Tables

/-! ## Selections -/

/-- Code that is read as an arm, whatever follows it. -/
structure ReadsArm (c : Code) (a : Arm) : Prop where
  ne_nil : c ≠ []
  begins : ∀ rest, startsOp "#" (c ++ rest) = false
  takes : ∀ {n : Nat} {rest : Code}, 2 * Token.countAll c + 3 ≤ n → Takes (grammar n).arm c a rest

section Selections

variable {c pattern body : Code} {e : Expr} {p : Pat} {arms : List Code} {as : List Arm}

/-- Code that is read as the pattern of an arm. -/
def ReadsPattern (c : Code) (p : Pat) : Prop :=
  ∀ {n : Nat} {rest : Code}, 2 * Token.countAll c ≤ n →
    Takes (grammar (n + 2)).pats c p (op "=>" ++ rest)

/-- A value that is not there. -/
theorem ReadsPattern.absent : ReadsPattern Code.absent (.path (.mk none 0 true
    [.plain "core", .plain "option", .plain "Option", .plain "None"])) := by
  intro n rest hn
  have hcount : 1 ≤ Token.countAll Code.absent := by decide
  obtain ⟨m, rfl⟩ : ∃ m, n = m + 2 := ⟨n - 2, by omega⟩
  exact takes_readPats rfl rfl rfl

/-- A value that is there. -/
theorem ReadsPattern.present {x : String} (hx : isIdentifier x = true) :
    ReadsPattern (Code.present (word x)) (.tupleRecord presentPath [.ident false false x none]) := by
  intro n rest hn
  have hcount : 1 ≤ Token.countAll (Code.present (word x)) := by
    rw [Code.present, Code.call, countAll_append, countAll_tuple]
    omega
  obtain ⟨m, rfl⟩ : ∃ m, n = m + 2 := ⟨n - 2, by omega⟩
  exact takes_readPats rfl (takes_readPat_present hx) rfl

/-- A term as the value of an arm. -/
theorem ReadsArm.of_term (hne : pattern ≠ [])
    (hattrs : ∀ rest, startsOp "#" (pattern ++ rest) = false) (hp : ReadsPattern pattern p)
    (h : ReadsTerm body e) (he : isStep e = true)
    (hbody : ∀ rest, startsOp "#" (body ++ rest) = false ∧ startsBlockLike (body ++ rest) = false) :
    ReadsArm (Helper.arm pattern body) (.mk [] p none e) where
  ne_nil := by simp [Helper.arm, hne]
  begins rest := by
    rw [Helper.arm, List.append_assoc, List.append_assoc, List.append_assoc]
    exact hattrs _
  takes {n rest} hn := by
    have hcode : Helper.arm pattern body = pattern ++ (op "=>" ++ (body ++ op ",")) := by
      simp only [Helper.arm, List.append_assoc]
    have hcount : Token.countAll (op "=>") = 2 := by decide
    rw [hcode] at hn ⊢
    simp only [countAll_append, hcount] at hn
    obtain ⟨m, rfl⟩ : ∃ m, n = m + 2 := ⟨n - 2, by omega⟩
    unfold isStep at he
    simp only [Bool.and_eq_true, Bool.not_eq_true'] at he
    have hvalue : Takes (grammar (m + 2)).statementExpr body e (op "," ++ rest) := by
      refine .skip (takes_outerAttrs (hbody _).1) (.look (.no (hbody _).2
        (.last (h.operand (by omega) rfl rfl) ?_)))
      exact .isTrue (by rw [he.2]; rfl) (takes_climb rfl)
    refine .skip (takes_outerAttrs (by rw [List.append_assoc]; exact hattrs _)) (.bind ?_
      (.skip (a := none) rfl (.bind rfl (.bind hvalue (.no he.2 (.look (.isTrue rfl
        (.last rfl .pure))))))))
    rw [List.append_assoc, List.append_assoc]
    exact hp (by omega)

theorem takes_selection {t : Expr} (ht : ReadsTest c t) (h : List.Forall₂ ReadsArm arms as)
    {n : Nat} (hn : 2 * Token.countAll (Helper.choose c arms) + 2 ≤ n) {rest : Code} :
    Takes (grammar (n + 1)).selection (Helper.choose c arms) (.select t [] as) rest := by
  have hcode : Helper.choose c arms = word "match" ++ (c ++ braces arms.flatten) := by
    simp only [Helper.choose, List.append_assoc]
  have hbody : Token.countAll (braces arms.flatten) = Token.countAll arms.flatten + 1 := rfl
  have hword : 1 ≤ Token.countAll (word "match") := by decide
  rw [hcode] at hn ⊢
  simp only [countAll_append, hbody] at hn
  have hattrs : Takes (grammar (n + 1)).innerAttrs [] [] (arms.flatten ++ []) := by
    refine Row.takes_manyWhile (.stop ?_)
    cases h with
    | nil => rfl
    | cons h _ =>
      rw [List.flatten_cons, List.append_assoc, h.begins, Bool.false_and]
  have harms : Takes (Parse.manyWhile (fun ts => !ts.isEmpty) (grammar (n + 1)).arm) arms.flatten as
      [] :=
    Parse.takes_pieces (fun h => ⟨h.ne_nil, fun _ hn => h.takes hn⟩) h (by omega)
  exact .bind rfl (.bind (ht (by omega)) (.within (hattrs.skip (.last harms .pure))))

theorem ReadsStmt.choose {t : Expr} (ht : ReadsTest c t) (h : List.Forall₂ ReadsArm arms as) :
    ReadsStmt (Helper.choose c arms) (.expr (.select t [] as) false) where
  ne_nil := nofun
  begins _ := rfl
  goesOn := rfl
  takes {n rest} hn hrest := by
    obtain ⟨m, rfl⟩ : ∃ m, n = m + 2 := ⟨n - 2, by omega⟩
    have hatom : Takes ((grammar (m + 1)).atom true) (Helper.choose c arms) (.select t [] as) rest :=
      takes_selection ht h (by omega)
    rw [← List.append_nil (Helper.choose c arms)]
    refine takes_stmt_expr rfl rfl ?_ (.no_op? (not_startsOp_of_beginsStmt hrest (by decide)))
    exact takes_statementExpr_block rfl rfl rfl hatom hrest

end Selections

/-! ## Helpers -/

section Helpers

variable {tg : Target}

/-- The type of the function that converts a value. -/
def converterType : Code :=
  word "impl" ++ call (path ["core", "ops", "Fn"]) [strRef] ++ op "->" ++ generic option [word "T"]

/-- That type as it is read. -/
def converterTy : Ty :=
  .existential [.trait false false none (.mk none 0 true [.plain "core", .plain "ops",
    .paren "Fn" [.reference none false (.path (.mk none 0 false [.plain "str"]))]
      (some (.path (.mk none 0 true [.plain "core", .plain "option",
        .angle "Option" [.type (.path (.mk none 0 false [.plain "T"]))]])))])]

theorem converter_reads : ReadsInput (typed (word "converter") converterType)
    (.typed [] (.ident false false "converter" none) converterTy) where
  ne_nil := nofun
  begins _ := ⟨rfl, rfl⟩
  isRest := rfl
  takes {n rest} hn hrest := by
    have hcount : Token.countAll (typed (word "converter") converterType) = 29 := by decide
    rw [hcount] at hn
    obtain ⟨m, rfl⟩ : ∃ m, n = m + 30 := ⟨n - 30, by omega⟩
    rcases hrest with rfl | ⟨r, rfl⟩
    · rfl
    · rfl

theorem isSome_boolReaderCode : (itemsOf? Helper.boolReaderCode).isSome = true := by
  decide +kernel

theorem isSome_enumCodecCode : (itemsOf? Helper.enumCodecCode).isSome = true := by
  decide +kernel

/-- The arm of a value that is not there. -/
theorem absent_arm : ∃ a, ReadsArm (Helper.arm absent (success absent)) a := by
  have hnone : absent = barePath true "core" ["option", "Option", "None"] := rfl
  have hterm : ReadsTerm (barePath true "core" ["option", "Option", "None"]) _ :=
    ReadsTerm.bare (by decide) (by decide)
  have hok : success absent = call (barePath true "core" ["result", "Result", "Ok"])
      [barePath true "core" ["option", "Option", "None"]] := rfl
  have hcall : ReadsTerm (call (barePath true "core" ["result", "Result", "Ok"])
      [barePath true "core" ["option", "Option", "None"]]) _ :=
    ReadsTerm.call (ReadsCallee.bare (by decide) (by decide))
      (ReadsArgs.single (hterm.expr nofun rfl))
  rw [hok]
  exact ⟨_, ReadsArm.of_term nofun (fun _ => rfl) ReadsPattern.absent hcall rfl fun _ => ⟨rfl, rfl⟩⟩

/-- The arm of a value that is converted. -/
theorem converted_arm (h : isPlainPath tg.runtime = true) :
    ∃ a, ReadsArm (Helper.arm (present (word "raw"))
      (method (method (call (word "converter") [word "raw"]) "map" [member option "Some"])
        "ok_or_else" [thunk (tg.invalid (word "key") (word "raw"))])) a := by
  have hsome : member option "Some" = barePath true "core" ["option", "Option", "Some"] := rfl
  have hterm : ReadsTerm (barePath true "core" ["option", "Option", "Some"]) _ :=
    ReadsTerm.bare (by decide) (by decide)
  have hraw (alone : Bool) : ReadsExpr alone (word "raw") _ := ReadsExpr.word (by decide)
  obtain ⟨invalid, hinvalid⟩ := invalid_reads h
    (ReadsExpr.word (show isPathName "key" = true by decide)) (hraw false)
  rw [hsome]
  have hcalled : ReadsTerm (call (word "converter") [word "raw"]) _ :=
    ReadsTerm.call (ReadsCallee.word (by decide)) (ReadsArgs.single (hraw true))
  have hmapped := hcalled.method (show isIdentifier "map" = true by decide)
    (ReadsArgs.single (hterm.expr nofun rfl))
  have hconverted := hmapped.method (show isIdentifier "ok_or_else" = true by decide)
    (ReadsArgs.single (ReadsExpr.thunk (hinvalid true)))
  exact ⟨_, ReadsArm.of_term nofun (fun _ => rfl) (ReadsPattern.present (by decide)) hconverted rfl
    fun _ => ⟨rfl, rfl⟩⟩

theorem isSome_queryReaderCode (h : isPlainPath tg.runtime = true) :
    (itemsOf? (Helper.queryReaderCode tg)).isSome = true := by
  obtain ⟨first, hfirst⟩ := absent_arm
  obtain ⟨second, hsecond⟩ := converted_arm h
  obtain ⟨error, herror⟩ := name_ty h ["DecodeError"] (by decide)
  obtain ⟨value, hvalue⟩ := ReadsTy.exists_option (ReadsTy.word (show isPathName "T" = true by decide))
  obtain ⟨output, houtput⟩ := ReadsTy.exists_result hvalue herror
  obtain ⟨string, hstring⟩ := string_reads
  have hmap : ReadsTy (generic (barePath true "std" (["collections"] ++ ["HashMap"]))
      [stringType, stringType]) _ :=
    ReadsTy.generic_path (by decide) (by decide) (by decide) (.cons hstring (.cons hstring .nil))
  have hget : ReadsTerm (method (word "map") "get" [word "key"]) _ :=
    (ReadsTerm.word (by decide)).method (by decide) (ReadsArgs.single (ReadsExpr.word (by decide)))
  have hbody := ReadsStmts.single
    (ReadsStmt.choose (ReadsOperand.test hget.operand) (.cons hfirst (.cons hsecond .nil)))
  have hinputs := List.Forall₂.cons
    (ReadsInput.typed (show isIdentifier "key" = true by decide)
      (ReadsTy.reference (ReadsTy.word (show isPathName "str" = true by decide))))
    (.cons (ReadsInput.typed (show isIdentifier "map" = true by decide) hmap.reference)
      (.cons converter_reads .nil))
  have hresult : ReadsOutput (generic result [generic option [word "T"], tg.name ["DecodeError"]])
      (some output) := Or.inr ⟨output, nofun, rfl, houtput⟩
  have hread := isSome_function (show isIdentifier queryReader = true by decide)
    (ReadsGenerics.single (show isIdentifier "T" = true by decide)) hinputs
    (by simp [FnInput.isReceiver]) hresult hbody
  have hname : generic (word queryReader) [word "T"] =
      word queryReader ++ (op "<" ++ (word "T" ++ op ">")) := rfl
  have hmapType : path ["std", "collections", "HashMap"] =
      barePath true "std" (["collections"] ++ ["HashMap"]) := rfl
  unfold Helper.queryReaderCode
  rw [hname, hmapType]
  exact hread.1

/-- The code of every helper is read as an item. -/
theorem isSome_helperCode (h : isPlainPath tg.runtime = true) (helper : Helper) :
    (itemsOf? (helper.code tg)).isSome = true := by
  cases helper with
  | queryReader => exact isSome_queryReaderCode h
  | boolReader => exact isSome_boolReaderCode
  | enumCodec => exact isSome_enumCodecCode

end Helpers

end TypedRoutes.Emission
