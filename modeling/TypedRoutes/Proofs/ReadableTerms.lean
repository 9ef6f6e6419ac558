import TypedRoutes.Proofs.Precedence
import TypedRoutes.Proofs.ReadableTypes

/-!
# Operands that are read back

* `trailers_step`, `trailers_stop` : what is applied to an operand is applied in turn;
* `ReadsTerm` : code that is read as an operand to which what follows it is applied; a callee is one
  in front of the parentheses of a call;
* `ReadsOperand` : code that is read as an operand with what is applied to it;
* `ReadsExpr` : code that is read as an expression in front of a comma, a semicolon or the end, or
  only at the end;
* `ReadsTerm.bare`, `ReadsTerm.call`, `ReadsTerm.method`, … : one lemma for each form of operand.
-/

namespace TypedRoutes.Emission

open Syntax Code
open Parse (Takes Row ahead bind_apply bind_eq_some)

/-! ## What is applied to an operand -/

section Trailers

variable {g : Grammar} [Grammar.Carries g] {e e' : Expr} {ts ts' : Code}

/-- Any bound above the number of tokens gives the same. -/
theorem trailersFrom_eq {n m : Nat} (hn : ts.length < n) (hm : ts.length < m) :
    g.trailersFrom e n ts = g.trailersFrom e m ts := by
  induction n generalizing m e ts with
  | zero => cases hn
  | succ n ih =>
    cases m with
    | zero => cases hm
    | succ m =>
      unfold Grammar.trailersFrom
      rw [bind_apply, bind_apply]
      cases hread : g.trailer? e ts with
      | none => rfl
      | some r =>
        obtain ⟨e'?, ts'⟩ := r
        cases e'? with
        | none => rfl
        | some e' =>
          have hshort := Grammar.trailer?_shorter hread
          exact ih (Nat.lt_of_lt_of_le hshort (Nat.le_of_lt_succ hn))
            (Nat.lt_of_lt_of_le hshort (Nat.le_of_lt_succ hm))

theorem trailers_step (h : g.trailer? e ts = some (some e', ts')) :
    g.trailers e ts = g.trailers e' ts' := by
  have hshort := Grammar.trailer?_shorter h
  have hstep : g.trailers e ts = g.trailersFrom e' ts.length ts' := by
    show (g.trailer? e ts).bind _ = _
    rw [h]
    rfl
  rw [hstep]
  exact trailersFrom_eq hshort (Nat.lt_succ_self _)

omit [Grammar.Carries g] in
theorem trailers_stop (h : g.trailer? e ts = some (none, ts)) : g.trailers e ts = some (e, ts) := by
  show (g.trailer? e ts).bind _ = _
  rw [h]
  rfl

end Trailers

/-! ## Forms -/

/-- What may stand behind an operand to which it is not applied. -/
def endsTerm (records : Bool) (rest : Code) : Bool :=
  !startsOp "::" rest && !startsCall rest && !startsOp "#" rest &&
    !(startsGroup .brace rest && records)

/-- What an operand stays as it is in front of. -/
def stays (rest : Code) : Bool :=
  !startsGroup .paren rest && !(startsOp "." rest && !startsOp ".." rest) &&
    !startsGroup .bracket rest && !startsOp "?" rest

/-- What may stand behind an expression. One that stands alone is at the end. -/
def endsExpr (alone : Bool) (rest : Code) : Bool :=
  rest.isEmpty || ((startsOp "," rest || startsOp ";" rest) && !alone)

/-- Code that is read as an operand. What follows is applied to it. -/
structure ReadsTerm (c : Code) (e : Expr) : Prop where
  isRange : e.isRange = false
  leads : ∀ {n : Nat} {records : Bool} {rest : Code}, 2 * Token.countAll c + 3 ≤ n →
    endsTerm records rest = true → startsGroup .paren rest = false →
    (grammar n).readUnary records (c ++ rest) = (grammar n).trailers e rest

/-- Code that is read as an operand in front of the arguments of a call. -/
def ReadsCallee (c : Code) (e : Expr) : Prop :=
  ∀ {n : Nat} {records : Bool} {args rest : Code}, 2 * Token.countAll c + 3 ≤ n →
    (grammar n).readUnary records (c ++ .group .paren args :: rest) =
      (grammar n).trailers e (.group .paren args :: rest)

/-- Code that is read as an operand with what is applied to it. -/
def ReadsOperand (c : Code) (e : Expr) : Prop :=
  ∀ {n : Nat} {records : Bool} {rest : Code}, 2 * Token.countAll c + 3 ≤ n →
    endsTerm records rest = true → stays rest = true →
    Takes ((grammar n).readUnary records) c e rest

/-- Code that is read as an expression. -/
structure ReadsExpr (alone : Bool) (c : Code) (e : Expr) : Prop where
  ne_nil : c ≠ []
  arrow : startsOp "->" c = false
  takes : ∀ {n : Nat} {rest : Code}, 2 * Token.countAll c + 3 ≤ n → endsExpr alone rest = true →
    Takes ((grammar n).readExpr true) c e rest

/-- Code that is read as the arguments of a call. -/
def ReadsArgs (args : List Code) (es : List Expr) : Prop :=
  ∀ {n : Nat}, 2 * Token.countAll (Tokens.commaSeparated args) + 3 ≤ n →
    Takes (Parse.commaUntil List.isEmpty ((grammar (n + 1)).expr true))
      (Tokens.commaSeparated args) (es, false) []

section Ends

variable {alone records : Bool} {rest : Code}

/-- The end, a comma or a semicolon. -/
theorem endsExpr_cases (h : endsExpr alone rest = true) :
    rest = [] ∨ (∃ joint r, rest = .punct ',' joint :: r) ∨ ∃ joint r, rest = .punct ';' joint :: r := by
  unfold endsExpr at h
  simp only [Bool.or_eq_true, Bool.and_eq_true, List.isEmpty_iff] at h
  rcases h with h | ⟨h | h, -⟩
  · exact Or.inl h
  · exact Or.inr (Or.inl (startsChars_one.1 h))
  · exact Or.inr (Or.inr (startsChars_one.1 h))

theorem ends_of_endsExpr (records : Bool) (h : endsExpr alone rest = true) :
    endsTerm records rest = true ∧ stays rest = true ∧ nextPrec rest = .lowest := by
  rcases endsExpr_cases h with rfl | ⟨joint, r, rfl⟩ | ⟨joint, r, rfl⟩ <;> exact ⟨rfl, rfl, rfl⟩

theorem trailer?_stays {g : Grammar} {e : Expr} (h : stays rest = true) :
    g.trailer? e rest = some (none, rest) := by
  unfold stays at h
  simp only [Bool.and_eq_true, Bool.not_eq_true'] at h
  obtain ⟨⟨⟨hparen, hdot⟩, hbracket⟩, hmark⟩ := h
  have hdot' : (startsOp "." rest && !startsOp ".." rest && !e.isRange) = false := by
    rw [hdot, Bool.false_and]
  have hmark' : (startsOp "?" rest && !e.isRange) = false := by
    rw [hmark, Bool.false_and]
  exact Takes.look (c := []) (.no hparen (.no hdot' (.no hbracket (.no hmark' .pure))))

/-- An expression goes no further where no operator follows. -/
theorem takes_climb {g : Grammar} {e : Expr} {q : Prec} (h : nextPrec rest = .lowest)
    (hq : q.rank ≤ Prec.cast.rank := by decide) : Takes (g.climb records q e) [] e rest := by
  refine (Grammar.climbFrom_succ hq).trans ?_
  exact if_pos (Or.inr (Or.inl h))

end Ends

theorem ReadsTerm.operand {c : Code} {e : Expr} (h : ReadsTerm c e) : ReadsOperand c e := by
  intro n records rest hn hends hstays
  have hparen : startsGroup .paren rest = false := by
    unfold stays at hstays
    simp_all
  exact (h.leads hn hends hparen).trans (trailers_stop (trailer?_stays hstays))

theorem ReadsOperand.expr {c : Code} {e : Expr} {alone : Bool} (h : ReadsOperand c e)
    (hne : c ≠ []) (harrow : startsOp "->" c = false) : ReadsExpr alone c e where
  ne_nil := hne
  arrow := harrow
  takes {n} rest hn hrest := by
    obtain ⟨hends, hstays, hnext⟩ := ends_of_endsExpr true hrest
    exact .last (h hn hends hstays) (takes_climb hnext)

/-! ## Operands -/

section Operands

variable {g : Grammar} {records : Bool} {ts rest : Code}

theorem takes_outerAttrs (h : startsOp "#" rest = false) : Takes g.outerAttrs [] [] rest :=
  Row.takes_manyWhile (.stop h)

/-- An operand without operators in front of it. -/
theorem readUnary_eq (h : ∀ o ∈ ["#", "&", "*", "!", "-"], startsOp o ts = false) :
    g.readUnary records ts = (g.atom records >>= g.trailers) ts := by
  have hattrs : g.outerAttrs ts = some ([], ts) := takes_outerAttrs (h "#" (by decide))
  have hrefer : Parse.op? "&" ts = some (false, ts) := Takes.no_op? (h "&" (by decide))
  have hfind : ["*", "!", "-"].find? (startsOp · ts) = none := by
    refine List.find?_eq_none.2 fun o ho => ?_
    rw [h o (by revert o; decide)]
    exact Bool.false_ne_true
  unfold Grammar.readUnary
  rw [bind_apply, hattrs, Option.bind_some]
  simp only [bind_apply, ahead, Option.bind_some, hrefer, id, hfind, Bool.false_eq_true, if_false]
  refine congrArg _ (funext fun r => Eq.trans (congrArg _ (funext fun r => ?_))
    (Option.bind_fun_some (g.trailers r.1 r.2)))
  rw [if_neg (by simp)]
  rfl

/-- A path at the beginning of an operand. -/
theorem atom_name {t : String} (rest : Code) (h : isPathName t = true)
    (hrest : startsOp "#" rest = false) :
    g.atom records (.ident t :: rest) = g.pathExpr records (.ident t :: rest) := by
  have hno (w : String) (hw : isPathName w = false) : startsWord w (.ident t :: rest) = false :=
    startsWord_of_isPathName h hw
  have hlit : startsLit (.ident t :: rest) = false :=
    Bool.or_eq_false_iff.2 ⟨hno "true" (by decide), hno "false" (by decide)⟩
  have hpath : (startsIdent (.ident t :: rest) || ["self", "Self", "super", "crate"].any
      (startsWord · (.ident t :: rest))) = true := by
    unfold isPathName at h
    simp only [Bool.or_eq_true, List.contains_eq_mem, decide_eq_true_eq, List.mem_cons] at h
    simp only [startsIdent, startsWord, Bool.or_eq_true, List.any_cons, decide_eq_true_eq]
    grind
  unfold Grammar.atom
  refine (bind_apply _ _ _).trans ?_
  simp only [ahead, Option.bind_some, id, hlit, hno "async" (by decide), hno "try" (by decide),
    hno "move" (by decide), hno "for" (by decide), hno "const" (by decide),
    hno "static" (by decide), startsOp_ident, List.drop_succ_cons, List.drop_zero, hrest,
    Bool.false_and, Bool.and_false, Bool.or_false, Bool.false_eq_true, if_false]
  rw [if_pos hpath]

theorem atom_colons : g.atom records (op "::" ++ rest) = g.pathExpr records (op "::" ++ rest) :=
  rfl

/-- What is read as an atom has applied to it what follows. -/
theorem leads_of_atom {c : Code} {e : Expr}
    (hfront : ∀ o ∈ ["#", "&", "*", "!", "-"], startsOp o (c ++ rest) = false)
    (h : Takes (g.atom records) c e rest) :
    g.readUnary records (c ++ rest) = g.trailers e rest := by
  rw [readUnary_eq hfront, bind_apply, h]
  rfl

end Operands

/-! ### Paths -/

section Paths

variable {g : Grammar} {records leading : Bool} {first : String} {names : List String} {rest : Code}

theorem not_startsOp_barePath {o : String}
    (ho : o ∈ ["#", "&", "*", "!", "-", "<", "->", "?"]) :
    startsOp o (barePath leading first names ++ rest) = false := by
  cases leading with
  | true =>
    simp only [List.mem_cons, List.not_mem_nil, or_false] at ho
    rcases ho with rfl | rfl | rfl | rfl | rfl | rfl | rfl | rfl <;> rfl
  | false => exact startsOp_ident

theorem takes_pathExpr {c : Code} {p : Syntax.Path} (h : Takes g.exprPath c p rest)
    (hrest : endsTerm records rest = true) : Takes (g.pathExpr records) c (.path p) rest := by
  unfold endsTerm at hrest
  simp only [Bool.and_eq_true, Bool.not_eq_true'] at hrest
  obtain ⟨⟨⟨-, hcall⟩, -⟩, hbrace⟩ := hrest
  refine .last h (.skip (takes_callOf?_none _ hcall) ?_)
  exact .look (.no (by rw [List.nil_append, Bool.and_comm, hbrace]) .pure)

/-- A path of bare names as an operand, in front of whatever it does not go on with. -/
theorem leads_barePath (hfirst : isPathName first = true)
    (hnames : ∀ n ∈ names, isPathName n = true) (hrest : endsTerm records rest = true) :
    g.readUnary records (barePath leading first names ++ rest) =
      g.trailers (.path (.mk none 0 leading ((first :: names).map .plain))) rest := by
  have hrest' := hrest
  unfold endsTerm at hrest'
  simp only [Bool.and_eq_true, Bool.not_eq_true'] at hrest'
  obtain ⟨⟨⟨hcolons, -⟩, hmark⟩, -⟩ := hrest'
  have hexpr : Takes g.exprPath (barePath leading first names)
      (.mk none 0 leading ((first :: names).map .plain)) rest :=
    .skip (.no_op? (not_startsOp_barePath (by decide)))
      (takes_barePath hfirst hnames (by simp [endsPath, hcolons]))
  refine leads_of_atom (fun o ho => not_startsOp_barePath ?_) ?_
  · revert ho o
    decide
  · refine Eq.trans ?_ (takes_pathExpr hexpr hrest)
    cases leading with
    | true => exact atom_colons
    | false =>
      refine atom_name (path names ++ rest) hfirst ?_
      cases names with
      | nil => exact hmark
      | cons n names => rfl

theorem ReadsTerm.bare (hfirst : isPathName first = true)
    (hnames : ∀ n ∈ names, isPathName n = true) :
    ReadsTerm (barePath leading first names)
      (.path (.mk none 0 leading ((first :: names).map .plain))) where
  isRange := rfl
  leads _ hrest _ := leads_barePath hfirst hnames hrest

theorem ReadsCallee.bare (hfirst : isPathName first = true)
    (hnames : ∀ n ∈ names, isPathName n = true) :
    ReadsCallee (barePath leading first names)
      (.path (.mk none 0 leading ((first :: names).map .plain))) :=
  fun _ => leads_barePath hfirst hnames rfl

end Paths

/-! ### Rows of expressions -/

theorem ReadsArgs.of_forall₂ {args : List Code} {es : List Expr}
    (h : List.Forall₂ (ReadsExpr false) args es) : ReadsArgs args es := by
  intro n hn
  have hsmall : ∀ c ∈ args, 2 * Token.countAll c + 3 ≤ n := fun c hc => by
    have := countAll_le_commaSeparated hc
    omega
  refine Parse.takes_commaUntil (fun rest => endsExpr false rest = true)
    (((List.forall₂_and_left _ _).2 ⟨hsmall, h⟩).imp ?_) (fun _ => ⟨rfl, rfl⟩) rfl rfl
  rintro c e ⟨hc, hreads⟩ behind hbehind
  exact ⟨hreads.takes hc hbehind, by simp [hreads.ne_nil]⟩

theorem ReadsArgs.single {c : Code} {e : Expr} (h : ReadsExpr true c e) : ReadsArgs [c] [e] := by
  intro n hn
  rw [commaSeparated_singleton] at hn ⊢
  have hne : (c ++ ([] : Code)).isEmpty = false := by simp [h.ne_nil]
  exact .look (.look (.no hne (.last (h.takes hn rfl) (.look (.isTrue rfl .pure)))))

theorem ReadsArgs.nil : ReadsArgs [] [] :=
  ReadsArgs.of_forall₂ .nil

theorem ReadsArgs.takes_within {args : List Code} {es : List Expr} {n : Nat} {rest : Code}
    (h : ReadsArgs args es) (hn : 2 * Token.countAll (Tokens.commaSeparated args) + 3 ≤ n) :
    Takes (Parse.within .paren (Parse.terminated ((grammar (n + 1)).expr true))) (tuple args) es
      rest :=
  .within (.last (h hn) .pure)

section Delimited

variable {t : Token} {records : Bool} {rest c : Code} {args : List Code} {es : List Expr} {e : Expr}

theorem startsOp_of_not_punct {o : String} (h : ∀ c joint, t ≠ .punct c joint) :
    startsOp o (t :: rest) = false := by
  unfold startsOp
  cases t with
  | punct c joint => exact absurd rfl (h c joint)
  | ident _ | lifetime _ | literal _ | group _ _ =>
    rcases o.toList with _ | ⟨_, _ | ⟨_, _⟩⟩ <;> rfl

theorem ReadsTerm.literal (text : String) : ReadsTerm [.literal text] (.literal text) where
  isRange := rfl
  leads _ _ _ := leads_of_atom (fun _ _ => startsOp_of_not_punct nofun) rfl

theorem takes_atom_parens {g : Grammar} (h : Takes g.parenExpr (parens c) e rest) :
    Takes (g.atom records) (parens c) e rest :=
  h

theorem takes_atom_brackets {g : Grammar} (h : Takes g.arrayExpr (Tokens.brackets c) e rest) :
    Takes (g.atom records) (Tokens.brackets c) e rest :=
  h

theorem leads_parens {n : Nat} (h : ReadsArgs [c] [e])
    (hn : 2 * Token.countAll (parens c) + 3 ≤ n) :
    (grammar n).readUnary records (parens c ++ rest) = (grammar n).trailers (.paren e) rest := by
  have hcount : Token.countAll (parens c) = Token.countAll c + 1 := rfl
  obtain ⟨m, rfl⟩ : ∃ m, n = m + 1 := ⟨n - 1, by omega⟩
  have hargs := h (n := m) (by rw [commaSeparated_singleton]; omega)
  rw [commaSeparated_singleton] at hargs
  exact leads_of_atom (fun _ _ => startsOp_of_not_punct nofun)
    (takes_atom_parens (.within (.last hargs .pure)))

theorem ReadsTerm.parens (h : ReadsExpr true c e) : ReadsTerm (parens c) (.paren e) where
  isRange := rfl
  leads hn _ _ := leads_parens (ReadsArgs.single h) hn

theorem ReadsCallee.parens (h : ReadsExpr true c e) : ReadsCallee (Code.parens c) (.paren e) :=
  leads_parens (ReadsArgs.single h)

/-- A row of expressions in parentheses, other than a single one. -/
theorem ReadsTerm.tuple (h : ReadsArgs args es) (hmany : es.length ≠ 1) :
    ReadsTerm (Code.tuple args) (.tuple es) where
  isRange := rfl
  leads {n _ _} hn _ _ := by
    have hcount : Token.countAll (Code.tuple args) =
        Token.countAll (Tokens.commaSeparated args) + 1 := rfl
    obtain ⟨m, rfl⟩ : ∃ m, n = m + 1 := ⟨n - 1, by omega⟩
    have hargs := h (n := m) (by omega)
    refine leads_of_atom (fun _ _ => startsOp_of_not_punct nofun)
      (takes_atom_parens (.within (.last hargs ?_)))
    dsimp only
    split
    · exact absurd rfl hmany
    · exact .pure

/-- The items of an array. -/
theorem ReadsTerm.brackets {items : List Code} (h : List.Forall₂ (ReadsExpr false) items es) :
    ReadsTerm (Code.brackets items) (.array es) where
  isRange := rfl
  leads {n _ _} hn _ _ := by
    have hcount : Token.countAll (Code.brackets items) =
        Token.countAll (Tokens.commaSeparated items) + 1 := rfl
    obtain ⟨m, rfl⟩ : ∃ m, n = m + 1 := ⟨n - 1, by omega⟩
    refine leads_of_atom (fun _ _ => startsOp_of_not_punct nofun)
      (takes_atom_brackets (.within ?_))
    cases h with
    | nil => exact .look (.isTrue rfl .pure)
    | @cons item e items es hitem hitems =>
      cases hitems with
      | nil =>
        rw [commaSeparated_singleton] at hcount ⊢
        refine .look (.no (by simp [hitem.ne_nil]) (.last (hitem.takes (by omega) rfl) ?_))
        exact .skip (.no_op? rfl) (.skip (.no_op? rfl) .pure)
      | @cons item' e' items es hitem' hitems =>
        rw [commaSeparated_cons_cons, countAll_append, Token.countAll] at hcount
        rw [commaSeparated_cons_cons]
        have hmore := ReadsArgs.of_forall₂ (.cons hitem' hitems) (n := m) (by omega)
        show Takes _ (item ++ (op "," ++ Tokens.commaSeparated (item' :: items))) _ _
        refine .look (.no (by simp [hitem.ne_nil]) (.bind (hitem.takes (by omega) rfl)
          (.skip (.no_op? rfl) ?_)))
        exact .bind rfl (.last (.last hmore .pure) .pure)

end Delimited

/-! ### Calls and members -/

section Members

variable {g : Grammar} {e e' f : Expr} {es : List Expr} {m : String} {c rest : Code}
  {args : List Code} {n : Nat}

theorem trailer?_call (h : Takes (Parse.within .paren (Parse.terminated (g.expr true))) (tuple args)
    es rest) : g.trailer? e (tuple args ++ rest) = some (some (.call e es), rest) :=
  Takes.look (c := tuple args) (.isTrue rfl (.last h .pure))

theorem trailer?_dot (he : e.isRange = false) (h : Takes (g.dotted e) (word m ++ c) e' rest) :
    g.trailer? e (op "." ++ (word m ++ c ++ rest)) = some (some e', rest) := by
  refine Takes.look (c := op "." ++ (word m ++ c)) (.no rfl (.isTrue ?_ ?_))
  · show (!e.isRange) = true
    rw [he]
    rfl
  · exact .bind rfl (.last h .pure)

theorem trailer?_propagate (he : e.isRange = false) :
    g.trailer? e (op "?" ++ rest) = some (some (.propagate e), rest) := by
  refine Takes.look (c := op "?") (.no rfl (.no rfl (.no rfl (.isTrue ?_ ?_))))
  · show (!e.isRange) = true
    rw [he]
    rfl
  · exact .last rfl .pure

theorem takes_member (hm : isIdentifier m = true) : Takes Parse.member (word m) m rest :=
  if_pos hm

theorem no_await (hm : isIdentifier m = true) :
    startsWord "await" (word m ++ rest) = false :=
  startsWord_of_isIdentifier hm (by decide)

theorem takes_dotted_method (hm : isIdentifier m = true)
    (h : Takes (Parse.within .paren (Parse.terminated (g.expr true))) (tuple args) es rest) :
    Takes (g.dotted e) (word m ++ tuple args) (.methodCall e m none es) rest := by
  refine .skip (.no_word? (no_await hm)) (.look ?_)
  refine .bind (takes_member hm) (.skip (.whenAhead_none rfl) (.look ?_))
  exact .isTrue rfl (.last h .pure)

theorem takes_dotted_field (hm : isIdentifier m = true) (hcolons : startsOp "::" rest = false)
    (hparen : startsGroup .paren rest = false) :
    Takes (g.dotted e) (word m) (.field e m) rest := by
  refine .skip (.no_word? (no_await hm)) (.look ?_)
  refine .last (takes_member hm) (.skip (.whenAhead_none ?_) (.look ?_))
  · exact (Bool.and_comm _ _).trans (by rw [List.nil_append, hcolons]; rfl)
  · exact .no (by rw [List.nil_append, hparen]; rfl) .pure

/-- A method with its type arguments. -/
theorem takes_dotted_turbofish {c : Code} {tyArgs : List GenericArg} (hm : isIdentifier m = true)
    (htypes : Takes g.angleArgs c tyArgs (tuple args ++ rest))
    (h : Takes (Parse.within .paren (Parse.terminated (g.expr true))) (tuple args) es rest) :
    Takes (g.dotted e) (word m ++ (op "::" ++ c ++ tuple args))
      (.methodCall e m (some tyArgs) es) rest := by
  refine .skip (.no_word? (no_await hm)) (.look ?_)
  refine .bind (takes_member hm) (.bind (.whenAhead rfl (.bind rfl htypes)) (.look ?_))
  exact .isTrue rfl (.last h .pure)

/-! What is applied to a term makes a term. -/

theorem countAll_tuple (args : List Code) :
    Token.countAll (tuple args) = Token.countAll (Tokens.commaSeparated args) + 1 :=
  rfl

theorem ReadsTerm.call (hf : ReadsCallee c f) (h : ReadsArgs args es) :
    ReadsTerm (Code.call c args) (.call f es) where
  isRange := rfl
  leads {n records rest} hn _ _ := by
    rw [Code.call, countAll_append, countAll_tuple] at hn
    obtain ⟨m, rfl⟩ : ∃ m, n = m + 1 := ⟨n - 1, by omega⟩
    rw [Code.call, List.append_assoc]
    exact (hf (by omega)).trans (trailers_step (trailer?_call (h.takes_within (by omega))))

theorem ReadsTerm.method (hc : ReadsTerm c e) (hm : isIdentifier m = true)
    (h : ReadsArgs args es) : ReadsTerm (Code.method c m args) (.methodCall e m none es) where
  isRange := rfl
  leads {n records rest} hn _ _ := by
    have hcode : Code.method c m args = c ++ (op "." ++ (word m ++ Code.tuple args)) := by
      rw [Code.method, Code.call, List.append_assoc]
    rw [hcode, countAll_append, countAll_append, countAll_append, countAll_tuple] at hn
    obtain ⟨k, rfl⟩ : ∃ k, n = k + 1 := ⟨n - 1, by omega⟩
    rw [hcode, List.append_assoc, List.append_assoc]
    exact (hc.leads (by omega) rfl rfl).trans (trailers_step
      (trailer?_dot hc.isRange (takes_dotted_method hm (h.takes_within (by omega)))))

theorem ReadsTerm.field (hc : ReadsTerm c e) (hm : isIdentifier m = true) :
    ReadsTerm (Code.field c m) (.field e m) where
  isRange := rfl
  leads {n records rest} hn hrest hparen := by
    have hcode : Code.field c m = c ++ (op "." ++ (word m ++ [])) := by
      rw [Code.field, List.append_assoc, List.append_nil]
    rw [hcode, countAll_append] at hn
    rw [hcode, List.append_assoc, List.append_assoc]
    refine (hc.leads (by omega) rfl rfl).trans (trailers_step
      (trailer?_dot hc.isRange ?_))
    unfold endsTerm at hrest
    simp only [Bool.and_eq_true, Bool.not_eq_true'] at hrest
    rw [List.append_nil]
    exact takes_dotted_field hm hrest.1.1.1 hparen

theorem ReadsTerm.propagate (hc : ReadsTerm c e) : ReadsTerm (Code.propagate c) (.propagate e) where
  isRange := rfl
  leads {n records rest} hn hrest hparen := by
    rw [Code.propagate, countAll_append] at hn
    rw [Code.propagate, List.append_assoc]
    exact (hc.leads (by omega) rfl rfl).trans (trailers_step (trailer?_propagate hc.isRange))

/-- A method with its type argument. -/
theorem ReadsTerm.turbofish {tyCode : Code} {ty : Ty} (hc : ReadsTerm c e)
    (hm : isIdentifier m = true) (hty : ReadsTy tyCode ty) (h : ReadsArgs args es) :
    ReadsTerm (c ++ op "." ++ Code.call (word m ++ op "::" ++ op "<" ++ tyCode ++ op ">") args)
      (.methodCall e m (some [.type ty]) es) where
  isRange := rfl
  leads {n records rest} hn _ _ := by
    have hcode : c ++ op "." ++ Code.call (word m ++ op "::" ++ op "<" ++ tyCode ++ op ">") args =
        c ++ (op "." ++ (word m ++ (op "::" ++ (op "<" ++ (Tokens.commaSeparated [tyCode] ++
          op ">")) ++ Code.tuple args))) := by
      simp only [Code.call, List.append_assoc, commaSeparated_singleton]
    rw [hcode] at hn ⊢
    have hop : 1 ≤ Token.countAll (op "<") := by decide
    simp only [countAll_append, countAll_tuple] at hn
    obtain ⟨k, rfl⟩ : ∃ k, n = k + 1 := ⟨n - 1, by omega⟩
    have htypes : Takes (grammar (k + 1)).angleArgs (op "<" ++ (Tokens.commaSeparated [tyCode] ++
        op ">")) [.type ty] (Code.tuple args ++ rest) :=
      takes_angleArgs (.cons hty .nil) (by omega)
    rw [List.append_assoc, List.append_assoc]
    exact (hc.leads (by omega) rfl rfl).trans (trailers_step (trailer?_dot hc.isRange
      (takes_dotted_turbofish hm htypes (h.takes_within (by omega)))))

end Members

/-! ### Template calls and lookups -/

section Callees

variable {leading : Bool} {first : String} {names : List String} {d : Delim} {inner : Code}

theorem plain?_bare :
    (Syntax.Path.mk none 0 leading ((first :: names).map .plain)).plain? =
      some ⟨leading, first :: names⟩ := by
  have hnames : ∀ names : List String,
      (names.map Syntax.Segment.plain).mapM plainName = some names := by
    intro names
    induction names with
    | nil => rfl
    | cons n names ih => rw [List.map_cons, List.mapM_cons, ih]; rfl
  rw [Syntax.Path.plain?, hnames]
  rfl

/-- The call of a template by a path of bare names. -/
theorem ReadsTerm.invoke (hfirst : isPathName first = true)
    (hnames : ∀ n ∈ names, isPathName n = true) :
    ReadsTerm (Code.invoke (barePath leading first names) [.group d inner])
      (.invocation ⟨⟨leading, first :: names⟩, d, inner⟩) where
  isRange := rfl
  leads {n records rest} hn _ _ := by
    have hcode : Code.invoke (barePath leading first names) [.group d inner] =
        barePath leading first names ++ (op "!" ++ [.group d inner]) := by
      rw [Code.invoke, List.append_assoc]
    rw [hcode]
    have hexpr : Takes (grammar n).exprPath (barePath leading first names)
        (.mk none 0 leading ((first :: names).map .plain)) (op "!" ++ [.group d inner] ++ rest) :=
      .skip (.no_op? (not_startsOp_barePath (by decide))) (takes_barePath hfirst hnames rfl)
    have hcall : Takes (callOf? (.mk none 0 leading ((first :: names).map .plain)))
        (op "!" ++ [.group d inner]) (some ⟨⟨leading, first :: names⟩, d, inner⟩) rest := by
      unfold callOf?
      rw [plain?_bare]
      exact .whenAhead rfl (.bind rfl (.last rfl .pure))
    have hpath : Takes ((grammar n).pathExpr records)
        (barePath leading first names ++ (op "!" ++ [.group d inner]))
        (.invocation ⟨⟨leading, first :: names⟩, d, inner⟩) rest :=
      .bind hexpr (.last hcall .pure)
    refine leads_of_atom (fun o ho => ?_) (Eq.trans ?_ hpath)
    · rw [List.append_assoc]
      exact not_startsOp_barePath (by revert ho o; decide)
    · cases leading with
      | true => exact atom_colons
      | false =>
        refine atom_name (path names ++ (op "!" ++ [.group d inner]) ++ rest) hfirst ?_
        cases names with
        | nil => rfl
        | cons n names => rfl

/-- A function of a trait, named together with the type that has it. -/
theorem ReadsCallee.lookup {c arg : Code} {ty argTy : Ty} (h : ReadsTy c ty)
    (harg : ReadsTy arg argTy) {trait function : String} (htrait : isIdentifier trait = true)
    (hfunction : isIdentifier function = true) :
    ReadsCallee (op "<" ++ c ++ word "as" ++ generic (word trait) [arg] ++ op ">" ++ op "::" ++
        word function)
      (.path (.mk (some ty) 1 false [.angle trait [.type argTy], .plain function])) := by
  intro n records args rest hn
  have hcode : op "<" ++ c ++ word "as" ++ generic (word trait) [arg] ++ op ">" ++ op "::" ++
      word function = op "<" ++ (c ++ (word "as" ++ (word trait ++ (op "<" ++
        (Tokens.commaSeparated [arg] ++ op ">"))) ++ (op ">" ++ (op "::" ++ word function)))) := by
    simp only [generic, List.append_assoc]
  rw [hcode] at hn ⊢
  have hop : 1 ≤ Token.countAll (op "<") := by decide
  simp only [countAll_append] at hn
  obtain ⟨m, rfl⟩ : ∃ m, n = m + 1 := ⟨n - 1, by omega⟩
  have hbare (r : Code) : Takes ((grammar (m + 1)).barePath false)
      (word trait ++ (op "<" ++ (Tokens.commaSeparated [arg] ++ op ">")))
      (.mk none 0 false [.angle trait [.type argTy]]) (op ">" ++ r) :=
    .skip (.no_op? startsOp_ident) (.last (takes_segment_angle htrait (.cons harg .nil) (by omega))
      (.last (Row.takes_manyWhile (.stop rfl)) .pure))
  have hfirst : Takes ((grammar (m + 1)).segment true) (word function) (.plain function)
      (.group .paren args :: rest) :=
    takes_segment (isPathName_of_isIdentifier hfunction) rfl
  have htrait' (r : Code) : Takes (Parse.whenAhead (startsWord "as") (do
      Parse.word "as"
      (grammar (m + 1)).barePath false))
      (word "as" ++ (word trait ++ (op "<" ++ (Tokens.commaSeparated [arg] ++ op ">"))))
      (some (.mk none 0 false [.angle trait [.type argTy]])) (op ">" ++ r) :=
    .whenAhead rfl (.bind rfl (hbare r))
  have hpath : Takes (grammar (m + 1)).exprPath (op "<" ++ (c ++ (word "as" ++ (word trait ++
      (op "<" ++ (Tokens.commaSeparated [arg] ++ op ">"))) ++ (op ">" ++ (op "::" ++ word function)))))
      (.mk (some ty) 1 false [.angle trait [.type argTy], .plain function])
      (.group .paren args :: rest) := by
    refine .bind rfl (.isTrue rfl (.bind (h.takes true (by omega) rfl) (.bind
      (htrait' _) (.bind rfl (.bind rfl (.last hfirst ?_))))))
    exact .last (Row.takes_manyWhile (.stop rfl)) .pure
  have hexpr : Takes ((grammar (m + 1)).pathExpr records) _ _ _ := takes_pathExpr hpath rfl
  refine leads_of_atom (fun o ho => ?_) (Eq.trans ?_ hexpr)
  · simp only [List.mem_cons, List.not_mem_nil, or_false] at ho
    rcases ho with rfl | rfl | rfl | rfl | rfl <;> rfl
  · rfl

end Callees

end TypedRoutes.Emission
