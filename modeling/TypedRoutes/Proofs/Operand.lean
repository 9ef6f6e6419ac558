import TypedRoutes.Proofs.Readers
import TypedRoutes.Syntax.Grouping

/-!
# Operands

* `Expr.Applied`, `Expr.Extended` : an expression with calls, members and the like behind it, and
  with operators behind it;
* `trailers_applied`, `climb_extended`, `operandFrom_extended` : that is what readers make of one;
* `Expr.isLoose` : an operator that binds no tighter than a comparison extends an expression;
* `Expr.hasRecord` : a record stands in an expression outside of delimiters;
* `Expr.IsOperand` : what can stand behind a comparison, also where no record may begin;
* `operand_compare` : nothing else is read there.
-/

namespace TypedRoutes.Syntax

open Parse

/-! ## Expressions that go on -/

/-- An expression with calls, members, positions and question marks behind it. -/
inductive Expr.Applied (e : Expr) : Expr → Prop
  | refl : Applied e e
  | call {f : Expr} (args : List Expr) : Applied e f → Applied e (.call f args)
  | methodCall {f : Expr} (m : String) (turbofish : Option (List GenericArg)) (args : List Expr) :
    Applied e f → Applied e (.methodCall f m turbofish args)
  | field {f : Expr} (m : String) : Applied e f → Applied e (.field f m)
  | index {f : Expr} (position : Expr) : Applied e f → Applied e (.index f position)
  | propagate {f : Expr} : Applied e f → Applied e (.propagate f)
  | await {f : Expr} : Applied e f → Applied e (.await f)

/-- An expression with operators behind it whose precedences satisfy `B`, and operands behind those
that satisfy `Q`. -/
inductive Expr.Extended (B : Prec → Prop) (Q : Expr → Prop) (e : Expr) : Expr → Prop
  | refl : Extended B Q e e
  | binary {l r : Expr} {o : String} : Extended B Q e l → B (opPrec o) → Q r →
    Extended B Q e (.binary l o r)
  | assign {l r : Expr} : Extended B Q e l → B .assign → Q r → Extended B Q e (.assign l r)
  | range {l : Expr} (closed : Bool) {stop : Option Expr} : Extended B Q e l → B .range →
    (∀ r, stop = some r → Q r) → Extended B Q e (.range (some l) closed stop)
  | cast {l : Expr} (ty : Ty) : Extended B Q e l → Extended B Q e (.cast l ty)

namespace Expr

variable {e e' e'' : Expr} {B B' : Prec → Prop} {Q : Expr → Prop}

theorem Applied.trans (h : Applied e e') (h' : Applied e' e'') : Applied e e'' := by
  induction h' with
  | refl => exact h
  | call args _ ih => exact .call args ih
  | methodCall m turbofish args _ ih => exact .methodCall m turbofish args ih
  | field m _ ih => exact .field m ih
  | index position _ ih => exact .index position ih
  | propagate _ ih => exact .propagate ih
  | await _ ih => exact .await ih

theorem Extended.trans (h : Extended B Q e e') (h' : Extended B Q e' e'') : Extended B Q e e'' := by
  induction h' with
  | refl => exact h
  | binary _ hB hQ ih => exact .binary ih hB hQ
  | assign _ hB hQ ih => exact .assign ih hB hQ
  | range closed _ hB hQ ih => exact .range closed ih hB hQ
  | cast ty _ ih => exact .cast ty ih

theorem Extended.mono (hB : ∀ p, B p → B' p) (h : Extended B Q e e') : Extended B' Q e e' := by
  induction h with
  | refl => exact .refl
  | binary _ hp hQ ih => exact .binary ih (hB _ hp) hQ
  | assign _ hp hQ ih => exact .assign ih (hB _ hp) hQ
  | range closed _ hp hQ ih => exact .range closed ih (hB _ hp) hQ
  | cast ty _ ih => exact .cast ty ih

end Expr

/-- A binary operator has the precedence that it is read with. -/
theorem opPrec_of_binaryOp? {ts : List Token} {o : String} {p : Prec}
    (h : binaryOp? ts = some (o, p)) : opPrec o = p := by
  have hall : ∀ entry ∈ binaryOps, opPrec entry.1 = entry.2 := by decide
  exact hall _ (List.mem_of_find?_eq_some h)

namespace Grammar

variable {g : Grammar} {records : Bool} {e : Expr}

/-! ## What readers append -/

theorem dotted_applied : Yields (Expr.Applied e) (g.dotted e) := by
  unfold dotted
  refine .bind fun _ => .ite (.pure (.await .refl)) (.bind fun named => .bind fun m =>
    .bind fun turbofish => .bind fun _ => .ite (.bind fun args => ?_) (.pure (.field m .refl)))
  exact .pure (.methodCall m turbofish args .refl)

theorem afterDot_applied : Yields (Expr.Applied e) (g.afterDot e) := by
  intro ts r h
  unfold afterDot at h
  split at h
  · split at h
    · split at h
      · cases h
        exact .field _ (.field _ .refl)
      · exact .trans (.field _ .refl) (dotted_applied _ _ h)
      · cases h
    · exact dotted_applied _ _ h
  · exact dotted_applied _ _ h

theorem trailer?_applied :
    Yields (fun e'? => ∀ e', e'? = some e' → e.Applied e') (g.trailer? e) := by
  unfold trailer?
  refine .bind fun ts => .ite (.bind fun args => .pure ?call) (.ite (.bind fun _ =>
    .bindOf afterDot_applied fun e' he' => .pure ?dot) (.ite (.bind fun position => .pure ?index)
    (.ite (.bind fun _ => .pure ?propagate) (.pure ?none))))
  case call =>
    rintro e' ⟨⟩
    exact .call args .refl
  case dot =>
    rintro e' ⟨⟩
    exact he'
  case index =>
    rintro e' ⟨⟩
    exact .index position .refl
  case propagate =>
    rintro e' ⟨⟩
    exact .propagate .refl
  case none =>
    rintro e' ⟨⟩

theorem trailersFrom_applied (n : Nat) : Yields (Expr.Applied e) (g.trailersFrom e n) := by
  induction n generalizing e with
  | zero => exact .pure .refl
  | succ n ih =>
    unfold trailersFrom
    refine .bindOf trailer?_applied fun e'? h => ?_
    cases e'? with
    | some e' => exact (ih (e := e')).mono fun _ => (h e' rfl).trans
    | none => exact .pure .refl

theorem trailers_applied : Yields (Expr.Applied e) (g.trailers e) := by
  unfold trailers
  exact .bind fun n => trailersFrom_applied (n + 1)

section Operators

variable {Q : Expr → Prop} (hQ : ∀ p, Yields Q (g.operand records p))

include hQ

theorem rangeFrom_yields {start : Option Expr} :
    Yields (fun e => ∃ closed stop, e = .range start closed stop ∧ ∀ r, stop = some r → Q r)
      (g.rangeFrom records start) := by
  have htail (closed : Bool) :
      Yields (fun e => ∃ closed stop, e = .range start closed stop ∧ ∀ r, stop = some r → Q r)
        (do return Expr.range start closed (some (← g.operand records Prec.range))) :=
    .bindOf (hQ _) fun r hr => .pure ⟨closed, some r, rfl, by rintro _ ⟨⟩; exact hr⟩
  unfold rangeFrom
  exact .bind fun _ => .ite (htail true) (.bind fun _ => .ite .fail (.bind fun _ => .bind fun _ =>
    .ite (.pure ⟨false, none, rfl, by rintro _ ⟨⟩⟩) (htail false)))

theorem climbFrom_extended (base : Prec) (n : Nat) :
    Yields (Expr.Extended (fun p => base.rank ≤ p.rank) Q e) (g.climbFrom records base n e) := by
  induction n generalizing e with
  | zero => exact .pure .refl
  | succ n ih =>
    have hgo {e' : Expr} (h : Expr.Extended (fun p => base.rank ≤ p.rank) Q e e') :
        Yields (Expr.Extended (fun p => base.rank ≤ p.rank) Q e) (g.climbFrom records base n e') :=
      (ih (e := e')).mono fun _ => h.trans
    unfold climbFrom
    refine .bind fun ts => .ite (.pure .refl) ?_
    cases hop : binaryOp? ts with
    | some op =>
      obtain ⟨o, p⟩ := op
      refine .iteOf (fun _ => .pure .refl) fun hbase => .ite .fail (.bind fun _ =>
        .bindOf (hQ p) fun r hr => hgo (.binary .refl ?_ hr))
      rw [opPrec_of_binaryOp? hop]
      exact Nat.le_of_not_lt hbase
    | none =>
      refine .iteOf (fun hassign => .bind fun _ => .bindOf (hQ _) fun r hr =>
          hgo (.assign .refl hassign.1 hr)) fun _ =>
        .iteOf (fun hrange => .bindOf (rangeFrom_yields hQ) ?_) fun _ =>
        .ite (.bind fun _ => .bind fun ty => .bind fun _ => .ite .fail (hgo (.cast ty .refl)))
          (.pure .refl)
      rintro _ ⟨closed, stop, rfl, hstop⟩
      exact hgo (.range closed .refl hrange.1 hstop)

theorem climb_extended (base : Prec) :
    Yields (Expr.Extended (fun p => base.rank ≤ p.rank) Q e) (g.climb records base e) := by
  unfold climb
  exact .bind fun n => climbFrom_extended hQ base (n + 1)

/-- Behind an operator of precedence `p` others extend its operand if they bind more tightly, or if
both assign. -/
theorem operandFrom_extended (p : Prec) (n : Nat) :
    Yields (Expr.Extended (fun q => p.rank < q.rank ∨ p = .assign) Q e)
      (g.operandFrom records p n e) := by
  induction n generalizing e with
  | zero => exact .pure .refl
  | succ n ih =>
    unfold operandFrom
    refine .bind fun ts => .iteOf (fun hnext => .bind fun before =>
      .bindOf (climb_extended hQ _) fun e' he' => ?_) fun _ => .pure .refl
    have he : Expr.Extended (fun q => p.rank < q.rank ∨ p = .assign) Q e e' := by
      refine he'.mono fun q hq => ?_
      rcases hnext with hlt | ⟨-, rfl⟩
      · exact .inl (Nat.lt_of_lt_of_le hlt hq)
      · exact .inr rfl
    exact .bind fun _ => .ite (.pure he) ((ih (e := e')).mono fun _ => he.trans)

end Operators

end Grammar

/-! ## Kinds of expressions -/

/-- Whether an operator that binds no tighter than a comparison extends the first operand. -/
def Expr.isLoose : Expr → Bool
  | .assign .. | .range (some _) .. => true
  | .binary l o _ => decide ((opPrec o).rank ≤ Prec.compare.rank) || l.isLoose
  | .cast e _ => e.isLoose
  | _ => false

/-- Whether a record stands in an expression outside of delimiters and conditions. -/
def Expr.hasRecord : Expr → Bool
  | .record .. => true
  | .call e _ | .methodCall e .. | .field e _ | .index e _ | .propagate e | .await e
  | .unary _ e | .reference _ e | .address _ e | .cast e _ | .closure _ _ _ _ e | .bind _ e
  | .attributed _ e | .range (some e) _ none | .range none _ (some e) => e.hasRecord
  | .binary l _ r | .assign l r | .range (some l) _ (some r) => l.hasRecord || r.hasRecord
  | _ => false

/-- An expression has a record only where one may begin. -/
def Expr.Fits (records : Bool) (e : Expr) : Prop :=
  records = false → e.hasRecord = false

/-- An expression can stand behind a comparison. -/
structure Expr.IsOperand (records : Bool) (e : Expr) : Prop where
  tight : e.isLoose = false
  fits : e.Fits records

/-- A form that one of the words for control begins, or one that has no layout. -/
def Expr.isForm : Expr → Bool
  | .cond .. | .whileLoop .. | .endless .. | .forLoop .. | .select .. | .jump ..
  | .unwritable _ => true
  | _ => false

namespace Expr

variable {records : Bool} {e e' : Expr}

theorem isOperand_of_isForm (h : e.isForm = true) : e.IsOperand records := by
  cases e <;> first | exact ⟨rfl, fun _ => rfl⟩ | cases h

theorem IsOperand.applied (he : e.IsOperand records) (h : Applied e e') :
    e'.IsOperand records := by
  induction h with
  | refl => exact he
  | call _ _ ih => exact ⟨rfl, ih.fits⟩
  | methodCall _ _ _ _ ih => exact ⟨rfl, ih.fits⟩
  | field _ _ ih => exact ⟨rfl, ih.fits⟩
  | index _ _ ih => exact ⟨rfl, ih.fits⟩
  | propagate _ ih => exact ⟨rfl, ih.fits⟩
  | await _ ih => exact ⟨rfl, ih.fits⟩

theorem Fits.extended {B : Prec → Prop} (he : e.Fits records)
    (h : Extended B (Expr.Fits records) e e') : e'.Fits records := by
  induction h with
  | refl => exact he
  | binary _ _ hr ih => exact fun hno => Bool.or_eq_false_iff.2 ⟨ih hno, hr hno⟩
  | assign _ _ hr ih => exact fun hno => Bool.or_eq_false_iff.2 ⟨ih hno, hr hno⟩
  | @range l closed stop _ _ hr ih =>
    intro hno
    cases stop with
    | none => exact ih hno
    | some r => exact Bool.or_eq_false_iff.2 ⟨ih hno, hr r rfl hno⟩
  | cast _ _ ih => exact ih

theorem isLoose_extended {B : Prec → Prop} {Q : Expr → Prop} (he : e.isLoose = false)
    (hB : ∀ p, B p → Prec.compare.rank < p.rank) (h : Extended B Q e e') :
    e'.isLoose = false := by
  induction h with
  | refl => exact he
  | binary _ hp _ ih =>
    exact Bool.or_eq_false_iff.2 ⟨decide_eq_false (Nat.not_le_of_lt (hB _ hp)), ih⟩
  | assign _ hp => exact absurd (hB _ hp) (by decide)
  | range _ _ hp => exact absurd (hB _ hp) (by decide)
  | cast _ _ ih => exact ih

theorem hasRecord_withAttrs (attrs : List Attr) (e : Expr) :
    (e.withAttrs attrs).hasRecord = e.hasRecord := by
  unfold withAttrs
  split <;> rfl

theorem IsOperand.withAttrs (attrs : List Attr) (he : e.IsOperand records) :
    (e.withAttrs attrs).IsOperand records where
  tight := by
    unfold Expr.withAttrs
    split
    · exact he.tight
    · rfl
    · rfl
  fits hno := by
    rw [hasRecord_withAttrs]
    exact he.fits hno

end Expr

namespace Grammar

variable {g : Grammar} {records : Bool}

/-- Records stand only where they may begin. -/
class Fits (g : Grammar) : Prop where
  unary (records : Bool) : Yields (Expr.IsOperand records) (g.unary records)
  operand (records : Bool) (p : Prec) : Yields (Expr.Fits records) (g.operand records p)
  expr (records : Bool) : Yields (Expr.Fits records) (g.expr records)

/-! ### Forms that begin with a word or a bracket -/

/-- A form that has no operator and no record outside of its delimiters. -/
theorem closed {e : Expr} (hloose : e.isLoose = false) (hrecord : e.hasRecord = false) :
    Yields (Expr.IsOperand records) (pure e : Parse Expr) :=
  .pure ⟨hloose, fun _ => hrecord⟩

theorem conditional_isForm (n : Nat) : Yields (Expr.isForm · = true) (g.conditional n) := by
  cases n with
  | zero => exact .fail
  | succ n =>
    unfold conditional
    exact .bind fun _ => .bind fun _ => .bind fun _ => .bind fun _ => .ite
      (.bind fun _ => .ite (.bind fun _ => .pure rfl) (.bind fun _ => .pure rfl)) (.pure rfl)

theorem loop_isForm (l : Option String) : Yields (Expr.isForm · = true) (g.loop l) := by
  unfold loop
  exact .bind fun _ => .ite (.bind fun _ => .bind fun _ => .pure rfl) (.bind fun _ =>
    .ite (.bind fun _ => .pure rfl) (.bind fun _ => .bind fun _ => .bind fun _ => .bind fun _ =>
      .bind fun _ => .pure rfl))

theorem selection_isForm : Yields (Expr.isForm · = true) g.selection := by
  unfold selection
  exact .bind fun _ => .bind fun _ => .within (.bind fun _ => .bind fun _ => .pure rfl)

theorem unwritten_isForm (p : Parse Unit) : Yields (Expr.isForm · = true) (unwritten p) := by
  unfold unwritten
  exact .bind fun _ => .pure rfl

theorem jumpExpr_isForm : Yields (Expr.isForm · = true) (g.jumpExpr records) := by
  unfold jumpExpr
  exact .bind fun _ => .ite (.bind fun _ => .pure rfl) (.bind fun _ => .ite
    (.bind fun _ => .ite .fail (.bind fun _ => .bind fun _ => .pure rfl)) (.bind fun _ => .ite
      (.bind fun _ => .pure rfl) (.bind fun _ => .ite (unwritten_isForm _)
        (.bind fun _ => .bind fun _ => .pure rfl))))

theorem parenExpr_isOperand : Yields (Expr.IsOperand records) g.parenExpr := by
  unfold parenExpr
  refine .within (.bind fun items => ?_)
  dsimp only
  split <;> exact closed rfl rfl

theorem arrayExpr_isOperand : Yields (Expr.IsOperand records) g.arrayExpr := by
  unfold arrayExpr
  exact .within (.bind fun _ => .ite (closed rfl rfl) (.bind fun _ => .bind fun _ =>
    .ite (.bind fun _ => closed rfl rfl) (.bind fun _ => .ite (.bind fun _ => closed rfl rfl)
      (closed rfl rfl))))

theorem recordBody_isOperand (p : Path) (done : List FieldValue) (n : Nat) :
    Yields (Expr.IsOperand true) (g.recordBody p done n) := by
  have hrecord (fields : List FieldValue) (rest : Option Expr) :
      (Expr.record p fields rest).IsOperand true :=
    ⟨rfl, fun hno => nomatch hno⟩
  induction n generalizing done with
  | zero => exact .fail
  | succ n ih =>
    unfold recordBody
    exact .bind fun _ => .ite (.pure (hrecord _ _)) (.bind fun _ => .ite
      (.bind fun _ => .pure (hrecord _ _)) (.bind fun _ => .bind fun _ => .ite
        (.pure (hrecord _ _)) (.bind fun _ => ih _)))

theorem pathExpr_isOperand : Yields (Expr.IsOperand records) (g.pathExpr records) := by
  unfold pathExpr
  refine .bind fun p => .bind fun call? => ?_
  cases call? with
  | some call => exact closed rfl rfl
  | none =>
    refine .bind fun follows => .iteOf (fun hrecord => ?_) fun _ => closed rfl rfl
    obtain rfl : records = true := (Bool.and_eq_true_iff.1 hrecord).1
    exact .within (.bind fun _ => recordBody_isOperand _ _ _)

variable [Fits g]

theorem closure_yields :
    Yields (fun e => ∃ binder qualifiers inputs output body,
      e = .closure binder qualifiers inputs output body ∧ body.Fits records)
      (g.closure records) := by
  unfold closure
  exact .bind fun _ => .bind fun _ => .bind fun _ => .bind fun _ => .bind fun _ => .bind fun _ =>
    .ite (.bind fun _ => .bind fun _ => .pure ⟨_, _, _, _, _, rfl, fun _ => rfl⟩)
      (.bindOf (Fits.expr records) fun _ he => .pure ⟨_, _, _, _, _, rfl, he⟩)

theorem atom_isOperand : Yields (Expr.IsOperand records) (g.atom records) := by
  have hbind (pat : Pat) : Yields (Expr.IsOperand records)
      (do return Expr.bind pat (← g.climb records Prec.compare (← g.unary records))) :=
    .bindOf (Fits.unary records) fun _ he => .bindOf (climb_extended (Fits.operand records) _)
      fun e' he' => .pure ⟨rfl, (he.fits.extended he' : e'.Fits records)⟩
  have hrange : Yields (Expr.IsOperand records) (g.rangeFrom records none) := by
    refine (rangeFrom_yields (Fits.operand records)).mono ?_
    rintro _ ⟨closed, _ | r, rfl, hr⟩
    · exact ⟨rfl, fun _ => rfl⟩
    · exact ⟨rfl, hr r rfl⟩
  have hclosure : Yields (Expr.IsOperand records) (g.closure records) := by
    refine closure_yields.mono ?_
    rintro _ ⟨_, _, _, _, body, rfl, hbody⟩
    exact ⟨rfl, hbody⟩
  have hform {p : Parse Expr} (h : Yields (Expr.isForm · = true) p) :
      Yields (Expr.IsOperand records) p :=
    h.mono fun _ => Expr.isOperand_of_isForm
  unfold atom
  refine .bind fun ts => ?_
  dsimp only
  exact .ite (.bind fun _ => closed rfl rfl) <|
    .ite (.bind fun _ => .bind fun _ => .bind fun _ => closed rfl rfl) <|
    .ite (.bind fun _ => .bind fun _ => closed rfl rfl) <|
    .ite hclosure <|
    .ite (hform (unwritten_isForm _)) <|
    .ite pathExpr_isOperand <|
    .ite parenExpr_isOperand <|
    .ite (hform jumpExpr_isForm) <|
    .ite arrayExpr_isOperand <|
    .bind fun _ => .ite (.bind fun pat => .bind fun _ => hbind pat) <|
    .ite (hform (conditional_isForm _)) <|
    .ite (hform (loop_isForm _)) <|
    .ite (hform selection_isForm) <|
    .bind fun _ => .ite (.bind fun _ => closed rfl rfl) <|
    .bind fun _ => .ite (.bind fun _ => closed rfl rfl) <|
    .ite (.bind fun _ => closed rfl rfl) <|
    .ite hrange <|
    .bind fun _ => .ite (closed rfl rfl) <|
    .ite (.bind fun _ => .bind fun _ => .ite (.bind fun _ => closed rfl rfl)
      (hform (loop_isForm _))) .fail

/-! ### Operands -/

theorem readUnary_isOperand : Yields (Expr.IsOperand records) (g.readUnary records) := by
  unfold readUnary
  refine .bind fun attrs => .bind fun ts => .bind fun isRef => .ite ?_ ?_
  · have hrest (isRaw isMut : Bool) : Yields (Expr.IsOperand records) (do
        let operand ← g.unary records
        return (if isRaw then Expr.address isMut operand
          else Expr.reference isMut operand).withAttrs attrs) := by
      refine .bindOf (Fits.unary records) fun e he => .pure (.withAttrs attrs ?_)
      cases isRaw <;> exact ⟨rfl, he.fits⟩
    refine .bind fun isRaw => ?_
    dsimp only
    exact .ite
      (.bind fun _ => .bind fun _ => .ite (.bind fun _ => hrest _ _) (hrest _ _))
      (.bind fun _ => .ite (.bind fun _ => hrest _ _) (hrest _ _))
  · cases ["*", "!", "-"].find? (startsOp · ts) with
    | some o =>
      exact .bind fun _ => .bindOf (Fits.unary records) fun e he =>
        .pure (.withAttrs attrs ⟨rfl, he.fits⟩)
    | none =>
      refine .bindOf atom_isOperand fun e he => .bindOf trailers_applied fun e' he' => .ite .fail
        (.pure (.withAttrs attrs (he.applied he')))

theorem readOperand_fits (p : Prec) : Yields (Expr.Fits records) (g.readOperand records p) := by
  unfold readOperand
  exact .bindOf readUnary_isOperand fun e he => .bind fun n =>
    (operandFrom_extended (Fits.operand records) p (n + 1)).mono fun _ => he.fits.extended

theorem readExpr_fits : Yields (Expr.Fits records) (g.readExpr records) := by
  unfold readExpr
  exact .bindOf readUnary_isOperand fun e he =>
    (climb_extended (Fits.operand records) .lowest).mono fun _ => he.fits.extended

theorem readOperand_compare : Yields (Expr.IsOperand records) (g.readOperand records .compare) := by
  unfold readOperand
  refine .bindOf readUnary_isOperand fun e he => .bind fun n =>
    (operandFrom_extended (Fits.operand records) .compare (n + 1)).mono fun e' he' => ?_
  have hrank (q : Prec) (hq : Prec.compare.rank < q.rank ∨ Prec.compare = .assign) :
      Prec.compare.rank < q.rank :=
    hq.resolve_right (by decide)
  exact ⟨Expr.isLoose_extended he.tight hrank he', he.fits.extended he'⟩

instance : Fits g.next where
  unary _ := readUnary_isOperand
  operand _ := readOperand_fits
  expr _ := readExpr_fits

instance : Fits .empty where
  unary _ := .fail
  operand _ _ := .fail
  expr _ := .fail

omit [Fits g] in
instance (n : Nat) : Fits (grammar n) := by
  induction n with
  | zero => exact inferInstanceAs (Fits .empty)
  | succ n ih => exact inferInstanceAs (Fits (grammar n).next)

omit [Fits g] in
/-- What is read behind a comparison can stand there. -/
theorem operand_compare (n : Nat) :
    Yields (Expr.IsOperand records) ((grammar n).operand records .compare) := by
  cases n with
  | zero => exact .fail
  | succ n => exact readOperand_compare

end Grammar

end TypedRoutes.Syntax
