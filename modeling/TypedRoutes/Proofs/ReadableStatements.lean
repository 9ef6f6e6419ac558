import TypedRoutes.Proofs.DefaultComparison
import TypedRoutes.Proofs.ReadableExpressions

/-!
# Statements that are read back

* `ReadsStmt` : code that is read as a statement, whatever statements follow it;
* `ReadsStmts.cons`, `ReadsStmts.last` : statements one after the other, with an expression at the end;
* `ReadsStmt.bind`, `ReadsStmt.step`, `ReadsStmt.cond`, … : one lemma for each form of statement.
-/

namespace TypedRoutes.Emission

open Syntax Code
open Parse (Takes Row ahead bind_apply bind_eq_some)

/-! ## Rows of statements -/

/-- Code that is read as a statement, whatever statements follow it. -/
structure ReadsStmt (c : Code) (s : Stmt) : Prop where
  ne_nil : c ≠ []
  begins : ∀ rest, beginsStmt (c ++ rest) = true
  goesOn : s.endsBlock = false
  takes : ∀ {n : Nat} {rest : Code}, 2 * Token.countAll c + 4 ≤ n → beginsStmt rest = true →
    Takes (grammar n).stmt c s rest

namespace ReadsStmts

variable {c c' : Code} {s : Stmt} {ss ss' : List Stmt}

theorem nil : ReadsStmts [] [] where
  begins := rfl
  takes {n fuel} _ hfuel := by
    obtain ⟨fuel, rfl⟩ : ∃ k, fuel = k + 1 := ⟨fuel - 1, by omega⟩
    exact .look (.isTrue rfl .pure)

theorem cons (h : ReadsStmt c s) (hs : ReadsStmts c' ss) : ReadsStmts (c ++ c') (s :: ss) where
  begins := h.begins c'
  takes {n fuel} hn hfuel := by
    have hlength : 0 < c.length := List.length_pos_iff.2 h.ne_nil
    rw [countAll_append] at hn
    rw [List.length_append] at hfuel
    obtain ⟨fuel, rfl⟩ : ∃ k, fuel = k + 1 := ⟨fuel - 1, by omega⟩
    have hstmt : Takes (grammar n).stmt c s (c' ++ []) :=
      h.takes (by omega) (by rw [List.append_nil]; exact hs.begins)
    refine .look (.no (by simp [h.ne_nil]) (.skip (.no_op? ?_) (.no rfl (.bind hstmt
      (.no h.goesOn (.last (hs.takes (by omega) (by omega)) .pure))))))
    rw [List.append_assoc]
    exact not_startsOp_of_beginsStmt (h.begins _) (by decide)

theorem flatten {cs : List Code} (h : List.Forall₂ ReadsStmt cs ss) (hs : ReadsStmts c' ss') :
    ReadsStmts (cs.flatten ++ c') (ss ++ ss') := by
  induction h with
  | nil => exact hs
  | cons h _ ih =>
    rw [List.flatten_cons, List.append_assoc]
    exact ih.cons h

end ReadsStmts

/-! ## Expressions as statements -/

/-- What an expression that is a statement begins with. -/
def beginsExpr (ts : Code) : Bool :=
  !(startsNamedCall ts || startsBraceCall ts || startsWord "let" ts || startsItem ts) &&
    beginsStmt ts

/-- An expression that is no template call and is given no attributes. -/
def isOwn : Expr → Bool
  | .call .. | .methodCall .. | .propagate _ | .cond .. | .forLoop .. | .select .. => true
  | _ => false

section Exprs

variable {g : Grammar} {c tail rest : Code} {e : Expr} {semi : Bool}

theorem takes_stmt_expr (he : isOwn e = true) (hbegins : beginsExpr (c ++ (tail ++ rest)) = true)
    (hexpr : Takes g.statementExpr c e (tail ++ rest)) (hsemi : Takes (Parse.op? ";") tail semi rest) :
    Takes g.stmt (c ++ tail) (.expr e semi) rest := by
  unfold beginsExpr at hbegins
  simp only [Bool.and_eq_true, Bool.not_eq_true', Bool.or_eq_false_iff] at hbegins
  obtain ⟨⟨⟨⟨hnamed, hbrace⟩, hlet⟩, hitem⟩, hstmt⟩ := hbegins
  have hattrs : Takes g.outerAttrs [] [] (c ++ tail ++ rest) := by
    rw [List.append_assoc]
    exact takes_outerAttrs (not_startsOp_of_beginsStmt hstmt (by decide))
  have hown : e.attach [] = e := by cases e <;> first | rfl | cases he
  refine .look (.skip hattrs (.look (.no ?_ (.no ?_ (.no ?_ (.bind hexpr (.last hsemi ?_)))))))
  · rw [List.append_assoc, id, hbrace, Bool.and_false]
  · rw [List.append_assoc]
    exact hlet
  · rw [List.append_assoc, id, hitem, hnamed]
    rfl
  · rw [hown]
    cases e <;> first | exact .pure | cases he

/-- A call, a method call or a propagated fault. -/
def isStep (e : Expr) : Bool :=
  isOwn e && !e.endsArm

/-- What an expression that is a statement and has no block at its end begins with. -/
def beginsStep (ts : Code) : Bool :=
  beginsExpr ts && !startsBlockLike ts

/-- A term as a statement. -/
theorem takes_stmt_step {n : Nat} (h : ReadsTerm c e) (he : isStep e = true)
    (hn : 2 * Token.countAll c + 4 ≤ n) (hbegins : beginsStep (c ++ (tail ++ rest)) = true)
    (hsemi : Takes (Parse.op? ";") tail semi rest) (hends : endsTerm true (tail ++ rest) = true)
    (hstays : stays (tail ++ rest) = true) (hnext : nextPrec (tail ++ rest) = .lowest) :
    Takes (grammar n).stmt (c ++ tail) (.expr e semi) rest := by
  obtain ⟨m, rfl⟩ : ∃ m, n = m + 1 := ⟨n - 1, by omega⟩
  unfold isStep at he
  unfold beginsStep at hbegins
  simp only [Bool.and_eq_true, Bool.not_eq_true'] at he hbegins
  have hattrs : startsOp "#" (c ++ (tail ++ rest)) = false := by
    obtain ⟨⟨-, hstmt⟩, -⟩ := by simpa only [beginsExpr, Bool.and_eq_true] using hbegins
    exact not_startsOp_of_beginsStmt hstmt (by decide)
  refine takes_stmt_expr he.1 hbegins.1 ?_ hsemi
  refine .skip (takes_outerAttrs hattrs) (.look (.no hbegins.2
    (.last (h.operand (by omega) hends hstays) ?_)))
  exact .isTrue (by rw [he.2]; rfl) (takes_climb hnext)

theorem beginsStmt_of_beginsStep {ts : Code} (h : beginsStep ts = true) : beginsStmt ts = true := by
  unfold beginsStep beginsExpr at h
  simp_all

/-- A term in front of a semicolon. -/
theorem ReadsStmt.step (h : ReadsTerm c e) (he : isStep e = true) (hne : c ≠ [])
    (hbegins : ∀ rest, beginsStep (c ++ rest) = true) :
    ReadsStmt (c ++ op ";") (.expr e true) where
  ne_nil := by simp [hne]
  begins rest := by
    rw [List.append_assoc]
    exact beginsStmt_of_beginsStep (hbegins _)
  goesOn := rfl
  takes {n rest} hn _ := by
    rw [countAll_append] at hn
    exact takes_stmt_step h he (by omega) (hbegins _) rfl rfl rfl rfl

/-- A term at the end of a block is its value. -/
theorem ReadsStmts.last (h : ReadsTerm c e) (he : isStep e = true) (hne : c ≠ [])
    (hbegins : beginsStep c = true) : ReadsStmts c [.expr e false] where
  begins := beginsStmt_of_beginsStep hbegins
  takes {n fuel} hn hfuel := by
    obtain ⟨fuel, rfl⟩ : ∃ k, fuel = k + 1 := ⟨fuel - 1, by omega⟩
    have hstmt : Takes (grammar n).stmt (c ++ []) (.expr e false) [] :=
      takes_stmt_step h he hn (by simpa using hbegins) rfl rfl rfl rfl
    rw [List.append_nil] at hstmt
    have hends : (Stmt.expr e false).endsBlock = true := by
      cases e <;> first | rfl | cases he
    refine .look (.no (by simp [hne]) (.skip (.no_op? ?_) (.no rfl (.last hstmt
      (.isTrue hends (.look (.isTrue rfl .pure)))))))
    rw [List.append_nil]
    exact not_startsOp_of_beginsStmt (beginsStmt_of_beginsStep hbegins) (by decide)

end Exprs

/-! ## Bindings -/

section Bindings

variable {c tyCode : Code} {e : Expr} {ty : Ty} {x : String}

theorem ReadsStmt.bind (hx : isIdentifier x = true) (h : ReadsExpr false c e) :
    ReadsStmt (Code.bind (word x) c) (.bind [] (.ident false false x none) (some e) [] false) where
  ne_nil := nofun
  begins _ := rfl
  goesOn := rfl
  takes {n rest} hn _ := by
    have hcode : Code.bind (word x) c = word "let" ++ (word x ++ (op "=" ++ (c ++ op ";"))) := by
      simp only [Code.bind, List.append_assoc]
    rw [hcode] at hn ⊢
    simp only [countAll_append] at hn
    obtain ⟨m, rfl⟩ : ∃ m, n = m + 1 := ⟨n - 1, by omega⟩
    have hexpr : Takes ((grammar (m + 1)).expr true) c e (op ";" ++ rest) := h.takes (by omega) rfl
    have hbind : Takes ((grammar (m + 1)).bindStmt [])
        (word "let" ++ (word x ++ (op "=" ++ (c ++ op ";"))))
        (.bind [] (.ident false false x none) (some e) [] false) rest := by
      refine .bind rfl (.bind (takes_readPat_name hx rfl) (.skip (a := false) rfl (.no rfl
        (.skip .pure (.bind rfl (.isTrue rfl (.bind hexpr (.skip (a := false) rfl (.no ?_
          (.last rfl .pure))))))))))
      exact Bool.and_false _
    exact hbind

/-- A variable with its type. Unless it is plain its value may change. -/
theorem ReadsStmt.bindTyped (plain : Bool) (hx : isIdentifier x = true) (hty : ReadsTy tyCode ty)
    (h : ReadsExpr false c e) :
    ReadsStmt (word "let" ++ (if plain then [] else word "mut") ++ typed (word x) tyCode ++ op "=" ++
        c ++ op ";")
      (.bind [] (.typed (.ident false (!plain) x none) ty) (some e) [] false) where
  ne_nil := nofun
  begins _ := rfl
  goesOn := rfl
  takes {n rest} hn _ := by
    have hcode : word "let" ++ (if plain then [] else word "mut") ++ typed (word x) tyCode ++
        op "=" ++ c ++ op ";" = word "let" ++ (((if plain then [] else word "mut") ++ word x) ++
          (op ":" ++ (tyCode ++ (op "=" ++ (c ++ op ";"))))) := by
      simp only [typed, List.append_assoc]
    rw [hcode] at hn ⊢
    simp only [countAll_append] at hn
    obtain ⟨m, rfl⟩ : ∃ m, n = m + 1 := ⟨n - 1, by omega⟩
    have hpat (r : Code) : Takes ((grammar (m + 1)).pat) ((if plain then [] else word "mut") ++ word x)
        (.ident false (!plain) x none) (op ":" ++ (tyCode ++ r)) := by
      cases plain with
      | true => exact takes_readPat_name hx rfl
      | false => exact takes_readPat_mut hx rfl
    have htype : Takes ((grammar (m + 1)).ty true) tyCode ty (op "=" ++ (c ++ op ";") ++ rest) :=
      hty.takes true (by omega) rfl
    have hexpr : Takes ((grammar (m + 1)).expr true) c e (op ";" ++ rest) := h.takes (by omega) rfl
    have hbind : Takes ((grammar (m + 1)).bindStmt [])
        (word "let" ++ (((if plain then [] else word "mut") ++ word x) ++
          (op ":" ++ (tyCode ++ (op "=" ++ (c ++ op ";"))))))
        (.bind [] (.typed (.ident false (!plain) x none) ty) (some e) [] false) rest := by
      refine .bind rfl (.bind ?_ (.bind rfl (.isTrue rfl (.bind htype (.skip .pure (.bind rfl
        (.isTrue rfl (.bind hexpr (.skip (a := false) rfl (.no ?_ (.last rfl .pure)))))))))))
      · rw [List.append_assoc, List.append_assoc]
        exact hpat _
      · exact Bool.and_false _
    exact hbind

end Bindings

/-! ## Conditionals and loops -/

/-- Code that is read as an expression in front of a block. -/
def ReadsTest (c : Code) (e : Expr) : Prop :=
  ∀ {n : Nat} {inner rest : Code}, 2 * Token.countAll c + 3 ≤ n →
    Takes ((grammar n).readExpr false) c e (.group .brace inner :: rest)

section Tests

variable {c body : Code} {e t : Expr} {ss : List Stmt} {x : String}

theorem ReadsOperand.test (h : ReadsOperand c e) : ReadsTest c e :=
  fun hn => .last (h hn rfl rfl) (takes_climb rfl)

theorem takes_statementExpr_block {g : Grammar} {rest : Code}
    (hattrs : startsOp "#" (c ++ rest) = false) (hblock : startsBlockLike (c ++ rest) = true)
    (he : e.endsArm = true) (h : Takes (g.atom true) c e rest) (hrest : beginsStmt rest = true) :
    Takes g.readStatementExpr c (e.withAttrs []) rest := by
  have hdot := not_startsOp_of_beginsStmt hrest (o := ".") (by decide)
  have hmark := not_startsOp_of_beginsStmt hrest (o := "?") (by decide)
  refine .skip (takes_outerAttrs hattrs) (.look (.isTrue hblock
    (.last h (.no ?_ (.look (.no ?_ .pure))))))
  · rw [he]
    rfl
  · rw [List.nil_append, hdot, hmark]
    rfl

theorem ReadsStmt.cond (ht : ReadsTest c t) (hs : ReadsStmts body ss) :
    ReadsStmt (word "if" ++ c ++ braces body) (.expr (.cond t ss none) false) where
  ne_nil := nofun
  begins _ := rfl
  goesOn := rfl
  takes {n rest} hn hrest := by
    have hword : 1 ≤ Token.countAll (word "if") := by decide
    have hbody : Token.countAll (braces body) = Token.countAll body + 1 := rfl
    rw [countAll_append, countAll_append, hbody] at hn
    obtain ⟨m, rfl⟩ : ∃ m, n = m + 2 := ⟨n - 2, by omega⟩
    have helse : startsWord "else" rest = false := by
      unfold beginsStmt at hrest
      simp_all
    have hcond (k : Nat) : Takes ((grammar (m + 1)).conditional (k + 1))
        (word "if" ++ (c ++ braces body)) (.cond t ss none) rest := by
      refine .bind rfl (.bind (ht (by omega))
        (.last (takes_statements hs false (by rw [hbody]; omega)) ?_))
      exact .skip (.no_word? helse) (.no rfl .pure)
    have hatom : Takes ((grammar (m + 1)).atom true) (word "if" ++ (c ++ braces body))
        (.cond t ss none) rest := hcond _
    rw [List.append_assoc, ← List.append_nil (word "if" ++ _)]
    refine takes_stmt_expr rfl ?_ ?_ ?_
    · rfl
    · exact takes_statementExpr_block rfl rfl rfl hatom hrest
    · exact .no_op? (not_startsOp_of_beginsStmt hrest (by decide))

theorem takes_readPats {g : Grammar} {rest : Code} {pat : Pat}
    (hbar : startsOp "|" (c ++ rest) = false)
    (h : Takes g.pat c pat rest) (hrest : startsOp "|" rest = false) :
    Takes g.readPats c pat rest := by
  have hrow : Takes (Parse.manyWhile startsBar (do Parse.op "|"; g.pat)) [] [] rest := by
    refine Row.takes_manyWhile (.stop ?_)
    unfold startsBar
    rw [hrest]
    rfl
  exact .skip (.no_op? hbar) (.last h (.skip hrow (.no rfl .pure)))

theorem ReadsStmt.loop (hx : isIdentifier x = true) (hsource : ReadsTest c e)
    (hs : ReadsStmts body ss) :
    ReadsStmt (word "for" ++ word x ++ word "in" ++ c ++ braces body)
      (.expr (.forLoop none (.ident false false x none) e ss) false) where
  ne_nil := nofun
  begins _ := rfl
  goesOn := rfl
  takes {n rest} hn hrest := by
    have hcode : word "for" ++ word x ++ word "in" ++ c ++ braces body =
        word "for" ++ (word x ++ (word "in" ++ (c ++ braces body))) := by
      simp only [List.append_assoc]
    have hbody : Token.countAll (braces body) = Token.countAll body + 1 := rfl
    have hword : 1 ≤ Token.countAll (word "for") := by decide
    rw [hcode] at hn ⊢
    simp only [countAll_append, hbody] at hn
    obtain ⟨m, rfl⟩ : ∃ m, n = m + 3 := ⟨n - 3, by omega⟩
    have hpat : Takes ((grammar (m + 2)).pats) (word x) (.ident false false x none)
        (word "in" ++ (c ++ braces body) ++ rest) :=
      takes_readPats startsOp_ident (takes_readPat_name hx rfl) rfl
    have hloop : Takes ((grammar (m + 2)).loop none)
        (word "for" ++ (word x ++ (word "in" ++ (c ++ braces body))))
        (.forLoop none (.ident false false x none) e ss) rest := by
      refine .skip (a := false) rfl (.no rfl (.skip (a := false) rfl (.no rfl (.bind rfl
        (.bind hpat (.bind rfl (.bind (hsource (by omega)) (.last ?_ .pure))))))))
      exact takes_statements hs true (by rw [hbody]; omega)
    have hatom : Takes ((grammar (m + 2)).atom true)
        (word "for" ++ (word x ++ (word "in" ++ (c ++ braces body))))
        (.forLoop none (.ident false false x none) e ss) rest := hloop
    rw [← List.append_nil (word "for" ++ _)]
    refine takes_stmt_expr rfl ?_ ?_ ?_
    · rfl
    · exact takes_statementExpr_block rfl rfl rfl hatom hrest
    · exact .no_op? (not_startsOp_of_beginsStmt hrest (by decide))

/-! ### Tests -/

/-- The path of the value that is there. -/
def presentPath : Syntax.Path :=
  .mk none 0 true [.plain "core", .plain "option", .plain "Option", .plain "Some"]

/-- A pattern for a value that is there. -/
theorem takes_readPat_present {n : Nat} {rest : Code} (hx : isIdentifier x = true) :
    Takes (grammar (n + 2)).readPat (present (word x))
      (.tupleRecord presentPath [.ident false false x none]) rest := by
  have hcode : present (word x) = member option "Some" ++ tuple [word x] := rfl
  have hexpr : Takes (grammar (n + 2)).exprPath (member option "Some") presentPath
      (tuple [word x] ++ rest) := rfl
  have hinside : Takes (Parse.terminated (grammar (n + 2)).pats) (Tokens.commaSeparated [word x])
      [.ident false false x none] [] := by
    refine Parse.takes_terminated (fun rest => startsOp "|" rest = false ∧ endsName rest = true)
      (.cons ⟨nofun, fun behind hbehind => ?_⟩ .nil) (fun _ => ⟨rfl, rfl⟩) ⟨rfl, rfl⟩
    exact takes_readPats startsOp_ident (takes_readPat_name hx hbehind.2) hbehind.1
  have hpath : Takes (grammar (n + 2)).pathPat (member option "Some" ++ tuple [word x])
      (.tupleRecord presentPath [.ident false false x none]) rest :=
    .bind hexpr (.skip (takes_callOf?_none _ rfl) (.look (.no rfl (.isTrue rfl
      (.last (.within hinside) .pure)))))
  rw [hcode]
  exact hpath

theorem ReadsTest.bindPresent (hx : isIdentifier x = true) (h : ReadsOperand c e) :
    ReadsTest (word "let" ++ present (word x) ++ op "=" ++ c)
      (.bind (.tupleRecord presentPath [.ident false false x none]) e) := by
  intro n inner rest hn
  have hcode : word "let" ++ present (word x) ++ op "=" ++ c =
      word "let" ++ (present (word x) ++ (op "=" ++ c)) := by
    simp only [List.append_assoc]
  rw [hcode] at hn ⊢
  have hword : 1 ≤ Token.countAll (word "let") := by decide
  have hop : 1 ≤ Token.countAll (op "=") := by decide
  simp only [countAll_append] at hn
  obtain ⟨m, rfl⟩ : ∃ m, n = m + 4 := ⟨n - 4, by omega⟩
  have hpat : Takes ((grammar (m + 4)).pats) (present (word x))
      (.tupleRecord presentPath [.ident false false x none])
      (op "=" ++ c ++ (.group .brace inner :: rest)) :=
    takes_readPats rfl (takes_readPat_present hx) rfl
  have hlet : Takes (do
      let pat ← (grammar (m + 4)).pats
      Parse.op "="
      return .bind pat (← (grammar (m + 4)).climb false .compare (← (grammar (m + 4)).unary false)) :
        Parse Expr) (present (word x) ++ (op "=" ++ c))
      (.bind (.tupleRecord presentPath [.ident false false x none]) e) (.group .brace inner :: rest) :=
    .bind hpat (.bind rfl (.last (h (by omega) rfl rfl) (.last (takes_climb rfl) .pure)))
  have hatom : Takes ((grammar (m + 4)).atom false) (word "let" ++ (present (word x) ++ (op "=" ++ c)))
      (.bind (.tupleRecord presentPath [.ident false false x none]) e) (.group .brace inner :: rest) :=
    hlet
  exact .last ((leads_of_atom (fun _ _ => startsOp_ident) hatom).trans
    (trailers_stop (trailer?_stays rfl))) (takes_climb rfl)

/-- A field is compared with all of a default that is simple and has no loose operator. -/
theorem ReadsTest.compare {default : Code} (hx : isIdentifier x = true)
    (he : exprOf? default = some e) (hsimple : e.isSimple = true) (htight : e.isLoose = false) :
    ReadsTest (selfField x ++ op "!=" ++ default) (.binary (.field selfExpr x) "!=" e) := by
  intro n inner rest hn
  have hop : 1 ≤ Token.countAll (op "!=") := by decide
  simp only [countAll_append] at hn
  obtain ⟨m, rfl⟩ : ∃ m, n = m + 1 := ⟨n - 1, by omega⟩
  have hlevels : levels default ≤ m + 1 := by
    unfold levels
    omega
  have hexpr : (grammar m).readExpr true default = some (e, []) :=
    ((Grammar.grammar_extends hlevels).expr true).reads (Parse.all_eq_some.1 he)
  have hoperand : (grammar m).readOperand true .compare default = some (e, []) :=
    Grammar.readOperand_of_readExpr hsimple htight hexpr
  have hahead : (grammar (m + 1)).operand false .compare (default ++ .group .brace inner :: rest) =
      some (e, .group .brace inner :: rest) :=
    (Grammar.readOperand_alike .compare e [] hoperand hsimple).1
  unfold Takes
  rw [List.append_assoc, List.append_assoc, readExpr_ne hx, hahead]
  rfl

end Tests

end TypedRoutes.Emission
