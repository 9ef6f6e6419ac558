import TypedRoutes.Proofs.GrammarLevels
import TypedRoutes.Proofs.ReadableTerms

/-!
# Expressions that are read back

* `takes_readPat_name` : a name is read as a pattern;
* `ReadsParam`, `ReadsExpr.closure`, `ReadsExpr.thunk` : closures;
* `ReadsStmts`, `ReadsTerm.block` : a block, once its statements are read;
* `ReadsOperand.refer`, `ReadsOperand.cast`, `ReadsExpr.record` : references, conversions and the
  value of the type at hand;
* `ReadsExpr.of_exprOf?` : an expression that is read as a whole text is read where it stands alone.
-/

namespace TypedRoutes.Emission

open Syntax Code
open Parse (Takes Row ahead bind_apply bind_eq_some)

/-! ## Patterns -/

section Patterns

variable {g : Grammar} {x : String} {rest : Code}

/-- What may stand behind a name that is a pattern. -/
def endsName (rest : Code) : Bool :=
  ["::", "!", "..", "@"].all (fun o => !startsOp o rest) && !startsGroup .brace rest &&
    !startsGroup .paren rest

/-- The part of a pattern behind the words in front of its name. -/
def namePat (g : Grammar) (isMut : Bool) : Parse Pat := do
  let id ← if ← ahead (startsWord "self") then Parse.name else Parse.ident
  let sub ← Parse.whenAhead (startsOp "@") (do Parse.op "@"; g.pat)
  return .ident false isMut id sub

theorem takes_namePat {isMut : Bool} (hx : isIdentifier x = true) (hrest : endsName rest = true) :
    Takes (namePat g isMut) (word x) (.ident false isMut x none) rest := by
  have hat : startsOp "@" rest = false := by
    unfold endsName at hrest
    simp_all
  refine .look (.no (startsWord_of_isIdentifier hx (by decide)) (.last (takes_ident hx) ?_))
  exact .skip (.whenAhead_none hat) .pure

theorem takes_readPat_name (hx : isIdentifier x = true) (hrest : endsName rest = true) :
    Takes g.readPat (word x) (.ident false false x none) rest := by
  have hno (w : String) (hw : isIdentifier w = false) : startsWord w (word x ++ rest) = false :=
    startsWord_of_isIdentifier hx hw
  have hlit : startsLit (word x ++ rest) = false :=
    Bool.or_eq_false_iff.2 ⟨hno "true" (by decide), hno "false" (by decide)⟩
  have hident : startsIdent (word x ++ rest) = true := hx
  have hop (o : String) : startsOp o (word x ++ rest) = false := startsOp_ident
  have hends := hrest
  unfold endsName at hends
  simp only [List.all_cons, List.all_nil, Bool.and_true, Bool.and_eq_true, Bool.not_eq_true'] at hends
  obtain ⟨⟨⟨hcolons, hmark, hdots, -⟩, hbrace⟩, hparen⟩ := hends
  have hdrop : (word x ++ rest).drop 1 = rest := rfl
  refine .look (.no ?_ (.skip (.no_word? (hno "_" (by decide))) (.no rfl
    (.skip (.no_word? (hno "box" (by decide))) (.no rfl (.no ?_ (.isTrue ?_ ?_)))))))
  · simp only [hdrop, hcolons, hmark, hdots, hbrace, hparen, hop, id, List.any_cons, List.any_nil,
      hno "Self" (by decide), hno "super" (by decide), hno "crate" (by decide), Bool.and_false,
      Bool.or_false]
  · simp only [hop, id, hlit, hno "const" (by decide), Bool.or_false]
  · simp only [hident, id, Bool.or_true]
  · exact .skip (.no_word? (hno "ref" (by decide))) (.skip (.no_word? (hno "mut" (by decide)))
      (takes_namePat hx hrest))

theorem takes_readPat_mut (hx : isIdentifier x = true) (hrest : endsName rest = true) :
    Takes g.readPat (word "mut" ++ word x) (.ident false true x none) rest :=
  .look (.no rfl (.skip (a := false) rfl (.no rfl (.skip (a := false) rfl (.no rfl (.no rfl
    (.isTrue rfl (.skip (a := false) rfl (.bind rfl (takes_namePat hx hrest))))))))))

end Patterns

/-! ## Closures -/

section Closures

variable {c body : Code} {ty : Ty} {e : Expr} {x : String} {alone : Bool}

/-- Code that is read as a parameter of a closure. -/
def ReadsParam (c : Code) (p : Pat) : Prop :=
  ∀ {n : Nat} {rest : Code}, 2 * Token.countAll c ≤ n →
    Takes (grammar (n + 1)).closureInput c p (op "|" ++ rest) ∧
      startsOp "|" (c ++ (op "|" ++ rest)) = false

theorem ReadsParam.name (hx : isIdentifier x = true) :
    ReadsParam (word x) (.ident false false x none) := fun _ =>
  ⟨.skip (takes_outerAttrs startsOp_ident) (.last (takes_readPat_name hx rfl)
    (.skip (a := false) rfl (.skip .pure .pure))), startsOp_ident⟩

theorem ReadsParam.typed (hx : isIdentifier x = true) (h : ReadsTy c ty) :
    ReadsParam (Code.typed (word x) c) (.typed (.ident false false x none) ty) := by
  intro n rest hn
  have hcode : Code.typed (word x) c = word x ++ (op ":" ++ c) := by
    simp only [Code.typed, List.append_assoc]
  rw [hcode] at hn ⊢
  simp only [countAll_append] at hn
  refine ⟨.skip (takes_outerAttrs startsOp_ident) (.bind (takes_readPat_name hx rfl)
    (.bind rfl (.isTrue rfl (.last (h.takes true ?_ rfl) .pure)))), startsOp_ident⟩
  omega

theorem ReadsExpr.not_arrow {rest : Code} (h : ReadsExpr alone c e)
    (hrest : endsExpr alone rest = true) : startsOp "->" (c ++ rest) = false := by
  have hne := h.ne_nil
  have harrow := h.arrow
  unfold startsOp at harrow ⊢
  rw [show ("->" : String).toList = ['-', '>'] from rfl] at harrow ⊢
  refine Bool.eq_false_iff.2 fun hstarts => ?_
  obtain ⟨ts, hts, hgt⟩ := startsChars_cons.1 hstarts
  cases c with
  | nil => exact hne rfl
  | cons t c =>
    obtain ⟨rfl, rfl⟩ := List.cons.inj hts
    cases c with
    | nil =>
      obtain ⟨joint, r, hr⟩ := startsChars_one.1 hgt
      rcases endsExpr_cases hrest with rfl | ⟨_, _, rfl⟩ | ⟨_, _, rfl⟩ <;> cases hr
    | cons t' c =>
      obtain ⟨joint, r, hr⟩ := startsChars_one.1 hgt
      obtain ⟨rfl, -⟩ := List.cons.inj hr
      cases harrow

/-- What is read as a closure is read as an expression. -/
theorem ReadsExpr.of_closure {joint : Bool}
    (h : ∀ {n : Nat} {rest : Code}, 2 * Token.countAll (.punct '|' joint :: c) + 3 ≤ n →
      endsExpr alone rest = true →
        Takes ((grammar n).closure true) (.punct '|' joint :: c) e rest) :
    ReadsExpr alone (.punct '|' joint :: c) e where
  ne_nil := nofun
  arrow := by cases joint <;> rfl
  takes {n rest} hn hrest := by
    obtain ⟨-, hstays, hnext⟩ := ends_of_endsExpr true hrest
    have hatom : Takes ((grammar n).atom true) (.punct '|' joint :: c) e rest := h hn hrest
    have hfront : ∀ o ∈ ["#", "&", "*", "!", "-"],
        startsOp o (.punct '|' joint :: c ++ rest) = false := by
      intro o ho
      simp only [List.mem_cons, List.not_mem_nil, or_false] at ho
      rcases ho with rfl | rfl | rfl | rfl | rfl <;> rfl
    exact .last ((leads_of_atom hfront hatom).trans (trailers_stop (trailer?_stays hstays)))
      (takes_climb hnext)

theorem ReadsExpr.closure {p : Pat} (hp : ReadsParam c p) (h : ReadsExpr alone body e) :
    ReadsExpr alone (Code.closure c body) (.closure none [] [p] none e) := by
  have hcode : Code.closure c body = op "|" ++ (c ++ (op "|" ++ body)) := by
    simp only [Code.closure, List.append_assoc]
  rw [hcode]
  refine .of_closure fun {n rest} hn hrest => ?_
  change 2 * Token.countAll (op "|" ++ (c ++ (op "|" ++ body))) + 3 ≤ n at hn
  simp only [countAll_append] at hn
  have hbar : 1 ≤ Token.countAll (op "|") := by decide
  obtain ⟨m, rfl⟩ : ∃ m, n = m + 1 := ⟨n - 1, by omega⟩
  obtain ⟨hparam, hno⟩ := @hp m (body ++ rest) (by omega)
  show Takes _ (op "|" ++ (c ++ (op "|" ++ body))) _ _
  refine .skip (a := none) rfl (.skip (a := []) rfl (.bind rfl (.bind (a := ([p], false)) ?_ (.bind rfl
    (.skip (.no_op? (h.not_arrow hrest)) (.no rfl (.last (h.takes (by omega) hrest) .pure)))))))
  refine .look (.look (.no ?_ (.last ?_ (.look (.isTrue rfl .pure)))))
  · rw [List.append_assoc]
    exact hno
  · rw [List.append_assoc]
    exact hparam

/-- A closure without parameters. -/
theorem ReadsExpr.thunk (h : ReadsExpr alone body e) :
    ReadsExpr alone (Code.thunk body) (.closure none [] [] none e) := by
  refine .of_closure fun {n rest} hn hrest => ?_
  change 2 * Token.countAll (op "||" ++ body) + 3 ≤ n at hn
  rw [countAll_append] at hn
  have hbar : 1 ≤ Token.countAll (op "||") := by decide
  obtain ⟨m, rfl⟩ : ∃ m, n = m + 1 := ⟨n - 1, by omega⟩
  show Takes _ ([.punct '|' true] ++ ([.punct '|' false] ++ body)) _ _
  refine .skip (a := none) rfl (.skip (a := []) rfl (.bind rfl (.skip (a := ([], false)) rfl
    (.bind rfl (.skip (.no_op? (h.not_arrow hrest)) (.no rfl (.last (h.takes ?_ hrest) .pure)))))))
  omega

end Closures

/-! ## Blocks -/

section Blocks

variable {c : Code} {ss : List Stmt} {n : Nat} {rest : Code}

/-- What may stand behind a statement that ends with a block. -/
def beginsStmt (rest : Code) : Bool :=
  [".", "?", ";", "#"].all (fun o => !startsOp o rest) && !startsWord "else" rest

theorem not_startsOp_of_beginsStmt (h : beginsStmt rest = true) {o : String}
    (ho : o ∈ [".", "?", ";", "#"]) : startsOp o rest = false := by
  simpa using List.all_eq_true.1 (Bool.and_eq_true_iff.1 h).1 o ho

/-- Code that is read as the statements of a block. -/
structure ReadsStmts (c : Code) (ss : List Stmt) : Prop where
  begins : beginsStmt c = true
  takes : ∀ {n fuel : Nat}, 2 * Token.countAll c + 4 ≤ n → c.length < fuel →
    Takes ((grammar n).stmtsFrom fuel) c ss []

theorem ReadsStmts.takes_readStmts (h : ReadsStmts c ss) (inner : Bool)
    (hn : 2 * Token.countAll c + 4 ≤ n) : Takes ((grammar n).readStmts inner) c ss [] := by
  have hattrs : Takes (grammar n).innerAttrs [] [] (c ++ []) := by
    refine Row.takes_manyWhile (.stop ?_)
    rw [List.append_nil, not_startsOp_of_beginsStmt h.begins (by decide), Bool.false_and]
  have hstmts : Takes (do
      let stmts ← (grammar n).stmtsFrom ((← Parse.remaining) + 1)
      return [].map .innerAttr ++ stmts : Parse (List Stmt)) c ss [] := by
    refine .look (.last (h.takes hn ?_) .pure)
    rw [List.append_nil]
    exact Nat.lt_succ_self _
  cases inner with
  | true => exact hattrs.skip hstmts
  | false => exact hstmts

theorem takes_statements (h : ReadsStmts c ss) (inner : Bool)
    (hn : 2 * Token.countAll (braces c) + 3 ≤ n) :
    Takes (Parse.within .brace ((grammar n).stmts inner)) (braces c) ss rest := by
  have hcount : Token.countAll (braces c) = Token.countAll c + 1 := rfl
  obtain ⟨m, rfl⟩ : ∃ m, n = m + 1 := ⟨n - 1, by omega⟩
  exact .within (h.takes_readStmts inner (by omega))

theorem ReadsTerm.block (h : ReadsStmts c ss) : ReadsTerm (braces c) (.block none ss) where
  isRange := rfl
  leads {n records rest} hn _ _ := by
    have hbody : Takes (grammar n).body (braces c) ss rest := takes_statements h true hn
    have hblock : Takes (do return .block none (← (grammar n).body) : Parse Expr) (braces c)
        (.block none ss) rest := .last hbody .pure
    have hatom : Takes ((grammar n).atom records) (braces c) (.block none ss) rest := hblock
    exact leads_of_atom (fun _ _ => startsOp_of_not_punct nofun) hatom

end Blocks

/-! ## References and casts -/

section Operators

variable {c tyCode : Code} {e : Expr} {ty : Ty} {alone : Bool}

theorem ReadsOperand.refer (h : ReadsOperand c e)
    (hwords : ∀ rest, startsWord "raw" (c ++ rest) = false ∧ startsWord "mut" (c ++ rest) = false) :
    ReadsOperand (Code.refer c) (.reference false e) := by
  intro n records rest hn hends hstays
  obtain ⟨hraw, hmut⟩ := hwords rest
  rw [Code.refer, countAll_append] at hn
  have hop : 1 ≤ Token.countAll (op "&") := by decide
  obtain ⟨m, rfl⟩ : ∃ m, n = m + 1 := ⟨n - 1, by omega⟩
  have hno : (startsWord "raw" (c ++ rest) && (startsWord "mut" ((c ++ rest).drop 1) ||
      startsWord "const" ((c ++ rest).drop 1))) = false := by
    rw [hraw, Bool.false_and]
  have hread : Takes ((grammar (m + 1)).unary records) c e rest := h (by omega) hends hstays
  refine .skip (a := []) rfl (.look (.bind (a := true) rfl (.isTrue rfl (.look (.no hno
    (.skip (.no_word? hmut) (.no ?_ (.last hread ?_))))))))
  · simp only [hno, Bool.false_and]
  · simp only [hno]
    exact .pure

theorem takes_climb_cast {g : Grammar} {records : Bool} {rest : Code} (hrange : e.isRange = false)
    (hty : Takes (g.ty false) tyCode ty rest) (hafter : startsAfterCast rest = false)
    (hnext : nextPrec rest = .lowest) :
    Takes (g.climb records .lowest e) (word "as" ++ tyCode) (.cast e ty) rest := by
  have hstep : Takes (g.extend records e) (word "as" ++ tyCode) (.cast e ty) rest :=
    .look (.bind rfl (.last hty (.look (.no hafter .pure))))
  have hgo : ¬(e.isRange = true ∨ nextPrec (word "as" ++ tyCode ++ rest) = .lowest ∨
      (nextPrec (word "as" ++ tyCode ++ rest)).rank < Prec.lowest.rank) := by
    rw [hrange, show nextPrec (word "as" ++ tyCode ++ rest) = .cast from rfl]
    decide
  refine (Grammar.climbFrom_succ (q := .lowest) (by decide)).trans ((if_neg hgo).trans ?_)
  refine hstep.last ?_
  exact (Grammar.climbFrom_succ (q := .lowest) (by decide)).trans (if_pos (Or.inr (Or.inl hnext)))

/-- An operand, converted. -/
theorem ReadsOperand.cast (h : ReadsOperand c e) (hrange : e.isRange = false)
    (hty : ReadsTy tyCode ty) (hne : c ≠ []) (harrow : ∀ rest, startsOp "->" (c ++ rest) = false) :
    ReadsExpr alone (c ++ (word "as" ++ tyCode)) (.cast e ty) where
  ne_nil := by simp [hne]
  arrow := harrow _
  takes {n rest} hn hrest := by
    obtain ⟨-, -, hnext⟩ := ends_of_endsExpr true hrest
    simp only [countAll_append] at hn
    obtain ⟨m, rfl⟩ : ∃ m, n = m + 1 := ⟨n - 1, by omega⟩
    have hends : startsAfterCast rest = false ∧ endsType rest = true := by
      rcases endsExpr_cases hrest with rfl | ⟨_, _, rfl⟩ | ⟨_, _, rfl⟩ <;> exact ⟨rfl, rfl⟩
    exact .bind (h (by omega) rfl rfl)
      (takes_climb_cast hrange (hty.takes false (by omega) hends.2) hends.1 hnext)

end Operators

/-! ## Records -/

section Records

variable {g : Grammar} {x : String} {names : List String} {alone : Bool} {rest : Code}

/-- A field that is named like the variable that holds its value. -/
def fieldOf (x : String) : FieldValue :=
  .mk [] x none

theorem takes_fieldValue (hx : isIdentifier x = true) (hrest : startsOp ":" rest = false) :
    Takes g.fieldValue (word x) (fieldOf x) rest :=
  .skip (takes_outerAttrs startsOp_ident) (.look (.last (takes_member hx) (.look (.no hrest .pure))))

theorem takes_recordBody (p : Syntax.Path) (hnames : ∀ x ∈ names, isIdentifier x = true)
    (done : List FieldValue) {n : Nat} (hpos : 0 < n) (hn : names.length ≤ n) :
    Takes (g.recordBody p done n) (Tokens.commaSeparated (names.map word))
      (.record p (done.reverse ++ names.map fieldOf) none) [] := by
  induction names generalizing done n with
  | nil =>
    obtain ⟨n, rfl⟩ : ∃ m, n = m + 1 := ⟨n - 1, by omega⟩
    simp only [List.map_nil, List.append_nil]
    exact .look (.isTrue rfl .pure)
  | cons x names ih =>
    obtain ⟨n, rfl⟩ : ∃ m, n = m + 1 := ⟨n - 1, by omega⟩
    have hx := hnames x List.mem_cons_self
    have hdone : done.reverse ++ (x :: names).map fieldOf =
        (fieldOf x :: done).reverse ++ names.map fieldOf := by
      simp
    cases names with
    | nil =>
      rw [hdone, List.map_cons, List.map_nil, commaSeparated_singleton]
      refine .look (.no rfl (.skip (.no_op? startsOp_ident) (.last (takes_fieldValue hx rfl) ?_)))
      rw [List.map_nil, List.append_nil]
      exact .look (.isTrue rfl .pure)
    | cons y names =>
      rw [hdone, List.map_cons, List.map_cons, commaSeparated_cons_cons]
      show Takes _ (word x ++ (op "," ++ _)) _ _
      refine .look (.no rfl (.skip (.no_op? startsOp_ident) (.bind (takes_fieldValue hx rfl) ?_)))
      simp only [List.length_cons] at hn
      refine .look (.no rfl (.bind rfl (ih (fun z hz => hnames z (List.mem_cons_of_mem _ hz)) _ ?_ ?_)))
      · omega
      · simp only [List.length_cons]
        omega

/-- A value of the type at hand, from variables that are named like its fields. -/
theorem ReadsExpr.record (hnames : ∀ x ∈ names, isIdentifier x = true) :
    ReadsExpr alone (word "Self" ++ braces (Tokens.commaSeparated (names.map word)))
      (.record (.mk none 0 false [.plain "Self"]) (names.map fieldOf) none) where
  ne_nil := nofun
  arrow := rfl
  takes {n rest} hn hrest := by
    obtain ⟨-, hstays, hnext⟩ := ends_of_endsExpr true hrest
    let p : Syntax.Path := .mk none 0 false [.plain "Self"]
    let inside := Tokens.commaSeparated (names.map word)
    have hlength : names.length ≤ inside.length + 1 := by
      simpa using length_commaSeparated (names.map word)
    have hinside : Takes (do (grammar n).recordBody p [] ((← Parse.remaining) + 1)) inside
        (.record p (names.map fieldOf) none) [] :=
      .look (takes_recordBody p hnames [] (Nat.succ_pos _) (by simpa using hlength))
    have hexpr : Takes (grammar n).exprPath (word "Self") p (braces inside ++ rest) := rfl
    have hpath : Takes ((grammar n).pathExpr true) (word "Self" ++ braces inside)
        (.record p (names.map fieldOf) none) rest :=
      .bind hexpr (.skip (takes_callOf?_none _ rfl) (.look (.isTrue rfl (.within hinside))))
    have hatom : Takes ((grammar n).atom true) (word "Self" ++ braces inside)
        (.record p (names.map fieldOf) none) rest := hpath
    exact .last ((leads_of_atom (fun _ _ => startsOp_ident) hatom).trans
      (trailers_stop (trailer?_stays hstays))) (takes_climb hnext)

end Records

/-! ## Given expressions -/

section Given

variable {c : Code} {e : Expr}

theorem readUnary_greater {g : Grammar} {records joint : Bool} {r : Code} :
    g.readUnary records (.punct '>' joint :: r) = none := by
  have hfront : ∀ o ∈ ["#", "&", "*", "!", "-"], startsOp o (.punct '>' joint :: r) = false := by
    intro o ho
    simp only [List.mem_cons, List.not_mem_nil, or_false] at ho
    rcases ho with rfl | rfl | rfl | rfl | rfl <;> rfl
  rw [readUnary_eq hfront]
  rfl

theorem readUnary_arrow {n : Nat} {records : Bool} (h : startsOp "->" c = true) :
    (grammar (n + 1)).readUnary records c = none := by
  have hchars : startsChars ['-', '>'] c = true := h
  obtain ⟨ts, rfl, hts⟩ := startsChars_cons.1 hchars
  obtain ⟨joint, r, rfl⟩ := startsChars_one.1 hts
  have hread : (grammar (n + 1)).readUnary records (.punct '-' true :: .punct '>' joint :: r) =
      ((grammar n).readUnary records (.punct '>' joint :: r)).bind fun r =>
        (pure ((Expr.unary '-' r.1).withAttrs []) : Parse Expr) r.2 := rfl
  rw [hread, readUnary_greater]
  rfl

theorem ReadsExpr.of_exprOf? (h : exprOf? c = some e) : ReadsExpr true c e := by
  have hread : (grammar (2 * Token.countAll c + 3)).readExpr true c = some (e, []) :=
    Parse.all_eq_some.1 h
  refine ⟨?_, ?_, ?_⟩
  · rintro rfl
    cases hread
  · refine Bool.eq_false_iff.2 fun harrow => ?_
    obtain ⟨_, _, hunary, -⟩ := bind_eq_some.1 hread
    rw [readUnary_arrow harrow] at hunary
    cases hunary
  · intro n rest hn hrest
    obtain rfl : rest = [] := by simpa [endsExpr] using hrest
    have hmore : (grammar (n + 1)).expr true c = some (e, []) :=
      ((Grammar.grammar_extends (Nat.succ_le_succ hn)).expr true).reads hread
    rwa [← List.append_nil c] at hmore

end Given

end TypedRoutes.Emission
