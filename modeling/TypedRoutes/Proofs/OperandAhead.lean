import TypedRoutes.Proofs.Operand
import TypedRoutes.Proofs.TypesAhead

/-!
# Operands in front of a block

* `Expr.isSimple` : an expression of literals, paths, calls and what stands in delimiters;
* `Alike` : what one reader reads of some tokens, if it is simple, another one reads with a block
  behind them;
* `Grammar.atom_alike`, `Grammar.readUnary_alike`, `Grammar.climbFrom_alike`,
  `Grammar.readOperand_alike` : the readers of operands read alike where a record may begin and, in
  front of a block, where none may.

The forms that are not simple may take the block for a part of them. The proofs follow the readers:
what a reader chooses by what stands ahead it chooses alike with the block behind, except for lists
that are no simple expressions (`isCut`).
-/

set_option synthInstance.maxSize 20000

namespace TypedRoutes.Syntax

open Parse

/-! ## Simple expressions -/

/-- An expression of literals, paths, template calls and what stands in delimiters, with operators
and calls, members and positions applied to them. -/
def Expr.isSimple : Expr → Bool
  | .literal _ | .path _ | .invocation _ | .array _ | .repeated .. | .tuple _ | .paren _ | .infer
  | .block none _ | .keywordBlock .. => true
  | .call e _ | .methodCall e .. | .field e _ | .index e _ | .propagate e | .await e | .unary _ e
  | .reference _ e | .address _ e | .cast e _ | .attributed _ e => e.isSimple
  | .binary l _ r | .assign l r => l.isSimple && r.isSimple
  | _ => false

namespace Expr

variable {e e' : Expr}

theorem Applied.not_simple (h : Applied e e') (he : e.isSimple = false) : e'.isSimple = false := by
  induction h with
  | refl => exact he
  | call _ _ ih | methodCall _ _ _ _ ih | field _ _ ih | index _ _ ih | propagate _ ih
  | await _ ih => exact ih

theorem Extended.not_simple {B : Prec → Prop} {Q : Expr → Prop} (h : Extended B Q e e')
    (he : e.isSimple = false) : e'.isSimple = false := by
  induction h with
  | refl => exact he
  | binary _ _ _ ih | assign _ _ _ ih => exact Bool.and_eq_false_iff.2 (.inl ih)
  | range => rfl
  | cast _ _ ih => exact ih

theorem isSimple_withAttrs (attrs : List Attr) (e : Expr) :
    (e.withAttrs attrs).isSimple = e.isSimple := by
  unfold withAttrs
  split <;> rfl

end Expr

/-! ## Readers that read alike -/

/-- What `p` reads of some tokens, if it is simple, `q` reads with a block behind them. -/
def Alike (inner behind ts : List Token) (p q : Parse Expr) : Prop :=
  ∀ e r, p ts = some (e, r) → e.isSimple = true →
    q (ts ++ .group .brace inner :: behind) = some (e, r ++ .group .brace inner :: behind) ∧
      r.length ≤ ts.length

namespace Alike

variable {inner behind ts : List Token} {p q p' q' : Parse Expr} {α : Type} {s : Parse α}

theorem of_carries [hp : Carries false p] : Alike inner behind ts p p :=
  fun _ _ h _ => ⟨hp.reads h (absurd · Bool.false_ne_true), hp.shrinks h⟩

theorem dismiss (h : Yields (fun e => e.isSimple = false) p) : Alike inner behind ts p q := by
  intro e r hread he
  rw [h _ _ hread] at he
  cases he

theorem fail : Alike inner behind ts Parse.fail q :=
  fun _ _ h => nomatch h

theorem ite {c : Prop} [Decidable c] (hp : Alike inner behind ts p q)
    (hp' : Alike inner behind ts p' q') :
    Alike inner behind ts (if c then p else p') (if c then q else q') := by
  split
  · exact hp
  · exact hp'

theorem bind {f f' : α → Parse Expr} [hs : Carries false s]
    (hf : ∀ a ts', ts'.length ≤ ts.length → Alike inner behind ts' (f a) (f' a)) :
    Alike inner behind ts (s >>= f) (s >>= f') := by
  intro e r h he
  obtain ⟨a, ts', ha, h⟩ := bind_eq_some.1 h
  have hle := hs.shrinks ha
  obtain ⟨hread, hle'⟩ := hf a ts' hle e r h he
  exact ⟨bind_eq_some.2 ⟨a, _, hs.reads ha (absurd · Bool.false_ne_true), hread⟩, Nat.le_trans hle' hle⟩

theorem bindShorter {f f' : α → Parse Expr} [hs : Carries false s] [hshort : Consumes s]
    (hf : ∀ a ts', ts'.length < ts.length → Alike inner behind ts' (f a) (f' a)) :
    Alike inner behind ts (s >>= f) (s >>= f') := by
  intro e r h he
  obtain ⟨a, ts', ha, h⟩ := bind_eq_some.1 h
  have hlt := hshort.shorter ha
  obtain ⟨hread, hle⟩ := hf a ts' hlt e r h he
  exact ⟨bind_eq_some.2 ⟨a, _, hs.reads ha (absurd · Bool.false_ne_true), hread⟩, by omega⟩

/-- What is read first is simple if what becomes of it is. -/
theorem bindOn {f f' : Expr → Parse Expr} (hp : Alike inner behind ts p q)
    (hf : ∀ e ts', ts'.length ≤ ts.length → Alike inner behind ts' (f e) (f' e))
    (hno : ∀ e, e.isSimple = false → Yields (fun e' => e'.isSimple = false) (f e)) :
    Alike inner behind ts (p >>= f) (q >>= f') := by
  intro e r h he
  obtain ⟨a, ts', ha, h⟩ := bind_eq_some.1 h
  have hsimple : a.isSimple = true := by
    cases ha' : a.isSimple with
    | true => rfl
    | false => rw [hno a ha' _ _ h] at he; cases he
  obtain ⟨hread, hle⟩ := hp a ts' ha hsimple
  obtain ⟨hread', hle'⟩ := hf a ts' hle e r h he
  exact ⟨bind_eq_some.2 ⟨a, _, hread, hread'⟩, Nat.le_trans hle' hle⟩

theorem look {f f' : List Token → Parse Expr}
    (h : Alike inner behind ts (f ts) (f' (ts ++ .group .brace inner :: behind))) :
    Alike inner behind ts (ahead id >>= f) (ahead id >>= f') :=
  h

theorem count {f f' : Nat → Parse Expr}
    (h : Alike inner behind ts (f ts.length) (f' (ts.length + (behind.length + 1)))) :
    Alike inner behind ts (remaining >>= f) (remaining >>= f') := by
  intro e r hread he
  obtain ⟨hread', hle⟩ := h e r hread he
  refine ⟨?_, hle⟩
  rw [← hread', bind_apply]
  simp [remaining, ahead]

end Alike

namespace Grammar

variable {g : Grammar} [Grammar.Carries g] {more : Bool} {inner behind ts : List Token} {e : Expr}

/-! ## Trailers -/

instance (e : Expr) : Parse.Carries more (g.dotted e) := by
  unfold dotted
  infer_instance

/-- The components that a literal behind a dot names. -/
def splitMember (g : Grammar) (e : Expr) (t : String) : Parse Expr :=
  match splitIndex t with
  | some [a, b] => pure (.field (.field e a) b)
  | some [a] => g.dotted (.field e a)
  | _ => fail

instance (t : String) : Parse.Carries more (g.splitMember e t) := by
  unfold splitMember
  split <;> infer_instance

omit [Grammar.Carries g] in
theorem afterDot_literal (t : String) (rest : List Token) :
    g.afterDot e (.literal t :: rest) =
      if t.toList.contains '.' then g.splitMember e t rest
      else g.dotted e (.literal t :: rest) := by
  unfold afterDot splitMember
  dsimp only
  split
  · generalize splitIndex t = parts
    rcases parts with _ | _ | ⟨a, _ | ⟨b, _ | _⟩⟩ <;> rfl
  · rfl

instance : Parse.Carries more (g.afterDot e) where
  reads {inner behind ts r e'} h hr := by
    rcases ts with _ | ⟨_ | _ | t | _ | _, rest⟩
    case cons.literal =>
      rw [List.cons_append, afterDot_literal]
      rw [afterDot_literal] at h
      split at h
      · next hdot =>
        rw [if_pos hdot]
        exact Carries.reads h hr
      · next hdot =>
        rw [if_neg hdot]
        exact Carries.reads h hr
    all_goals exact Carries.reads (p := g.dotted e) h hr
  shrinks {ts r e'} h := by
    rcases ts with _ | ⟨_ | _ | t | _ | _, rest⟩
    case cons.literal =>
      rw [afterDot_literal] at h
      split at h
      · exact Nat.le_succ_of_le (Carries.shrinks more h)
      · exact Carries.shrinks more h
    all_goals exact Carries.shrinks (p := g.dotted e) more h

instance : Parse.Carries more (g.trailer? e) := by
  unfold trailer?
  refine Follows.carries fun inner behind k => .look fun ts _ => ?_
  have hparen : startsGroup .paren (ts ++ .group .brace inner :: behind) = startsGroup .paren ts :=
    startsGroup_append (by decide)
  have hbracket : startsGroup .bracket (ts ++ .group .brace inner :: behind) = startsGroup .bracket ts :=
    startsGroup_append (by decide)
  simp only [startsOp_append, hparen, hbracket]
  exact .of_carries

/-- A trailer takes a token. -/
theorem trailer?_shorter {ts r : List Token} {e' : Expr} (h : g.trailer? e ts = some (some e', r)) :
    r.length < ts.length := by
  unfold trailer? at h
  obtain ⟨ts', _, hahead, h⟩ := bind_eq_some.1 h
  cases hahead
  have hshort {p : Parse (Option Expr)} [hp : Consumes p] (h : p ts = some (some e', r)) :
      r.length < ts.length :=
    hp.shorter h
  split at h
  · exact hshort h
  · split at h
    · exact hshort h
    · split at h
      · exact hshort h
      · split at h
        · exact hshort h
        · cases h

theorem trailersFrom_follows {n m : Nat} (hm : n < m) :
    Follows more inner behind n (g.trailersFrom e n) (g.trailersFrom e m) := by
  induction n generalizing m e with
  | zero => exact .none
  | succ n ih =>
    obtain ⟨m, rfl⟩ := Nat.exists_eq_succ_of_ne_zero (Nat.ne_zero_of_lt hm)
    refine .bindTaking Option.isSome (fun ts e'? r h htook => ?_) (fun e'? htook => ?_)
      fun e'? htook => ?_
    · obtain ⟨e', rfl⟩ := Option.isSome_iff_exists.1 htook
      exact trailer?_shorter h
    · obtain ⟨e', rfl⟩ := Option.isSome_iff_exists.1 htook
      exact ih (by omega)
    · obtain rfl := Option.isNone_iff_eq_none.1 (by simpa using htook)
      exact .of_carries

instance : Parse.Carries more (g.trailers e) :=
  Follows.ofFuel fun _ _ _ _ => trailersFrom_follows

/-! ## Atoms -/

/-- An operand is read alike in front of a block, if it is simple. -/
class Stands (g : Grammar) : Prop where
  unary (inner behind ts : List Token) : Alike inner behind ts (g.unary true) (g.unary false)
  operand (inner behind ts : List Token) (p : Prec) :
    Alike inner behind ts (g.operand true p) (g.operand false p)

omit [Grammar.Carries g] in
theorem recordBody_isSimple (p : Path) (done : List FieldValue) (n : Nat) :
    Yields (fun e => e.isSimple = false) (g.recordBody p done n) := by
  induction n generalizing done with
  | zero => exact .fail
  | succ n ih =>
    unfold recordBody
    exact .bind fun _ => .ite (.pure rfl) (.bind fun _ => .ite (.bind fun _ => .pure rfl)
      (.bind fun _ => .bind fun _ => .ite (.pure rfl) (.bind fun _ => ih _)))

theorem pathExpr_alike : Alike inner behind ts (g.pathExpr true) (g.pathExpr false) := by
  unfold pathExpr
  refine .bind fun p ts' _ => .bind fun call? ts'' _ => ?_
  cases call? with
  | some call => exact .of_carries
  | none =>
    intro e r h he
    obtain ⟨follows, _, hahead, h⟩ := bind_eq_some.1 h
    cases hahead
    split at h
    · have hrecord : Yields (fun e => e.isSimple = false)
          (within .brace do g.recordBody p [] ((← remaining) + 1)) :=
        .within (.bind fun _ => recordBody_isSimple _ _ _)
      rw [hrecord _ _ h] at he
      cases he
    · cases h
      exact ⟨rfl, Nat.le_refl _⟩

instance : Steady more startsGenerics where
  steady {_ _ ts} _ := by
    unfold startsGenerics
    dsimp only
    rw [startsOp_append]
    refine and_congr_of fun hts => ?_
    obtain ⟨joint, ts, rfl⟩ := startsChars_one.1 hts
    cases ts with
    | nil => rfl
    | cons t ts =>
      simp only [List.cons_append, List.drop_succ_cons, List.drop_zero, startsOp_append]
      cases t <;> rfl

section Drop

variable {text : String} (hts : ts ≠ [])

include hts

omit [Grammar.Carries g] in
theorem steady_drop {c : List Token → Bool} [hc : Steady true fun ts => c (ts.drop 1)] :
    c ((ts ++ Token.group .brace inner :: behind).drop 1) = c (ts.drop 1) :=
  hc.steady fun _ => hts

theorem startsOp_drop_append :
    startsOp text ((ts ++ Token.group .brace inner :: behind).drop 1) = startsOp text (ts.drop 1) :=
  steady_drop hts

theorem startsWord_drop_append :
    startsWord text ((ts ++ Token.group .brace inner :: behind).drop 1) =
      startsWord text (ts.drop 1) :=
  steady_drop hts

theorem startsGenerics_drop_append :
    startsGenerics ((ts ++ Token.group .brace inner :: behind).drop 1) = startsGenerics (ts.drop 1) :=
  steady_drop hts

end Drop

instance : Parse.Carries more g.block := by
  unfold block
  infer_instance

instance : Parse.Carries more g.body := by
  unfold body
  infer_instance

instance : Parse.Carries more g.parenExpr := by
  unfold parenExpr
  infer_instance

instance : Parse.Carries more g.arrayExpr := by
  unfold arrayExpr
  infer_instance

omit [Grammar.Carries g] in
theorem closure_isSimple [Fits g] {records : Bool} :
    Yields (fun e => e.isSimple = false) (g.closure records) := by
  refine closure_yields.mono ?_
  rintro _ ⟨_, _, _, _, _, rfl, -⟩
  rfl

omit [Grammar.Carries g] in
theorem rangeFrom_isSimple {records : Bool} {start : Option Expr} :
    Yields (fun e => e.isSimple = false) (g.rangeFrom records start) := by
  refine (rangeFrom_yields fun _ => .trivial).mono ?_
  rintro _ ⟨_, _, rfl, -⟩
  rfl

theorem isSimple_of_isForm (h : e.isForm = true) : e.isSimple = false := by
  cases e <;> first | rfl | cases h

/-- Lists that a block behind them makes something else of: none, or words in front of a block. -/
def isCut : List Token → Bool
  | [] | [.ident "async"] | [.ident "async", .ident "move"] | [.ident "try"]
  | [.ident "const"] => true
  | _ => false

omit [Grammar.Carries g] in
theorem not_simple_of_isCut [Fits g] (hcut : isCut ts = true) {e : Expr} {r : List Token}
    (h : g.atom true ts = some (e, r)) : e.isSimple = false := by
  unfold isCut at hcut
  split at hcut
  case h_1 | h_2 | h_4 => cases h
  case h_3 =>
    have hread : g.closure true [.ident "async", .ident "move"] = some (e, r) := h
    exact closure_isSimple _ _ hread
  case h_5 =>
    have hread : g.closure true [.ident "const"] = some (e, r) := h
    exact closure_isSimple _ _ hread
  case h_6 => cases hcut

section Cut

variable (hcut : isCut ts = false)
include hcut

omit [Grammar.Carries g] in
theorem startsGroup_append_of_not_isCut :
    startsGroup .brace (ts ++ Token.group .brace inner :: behind) = startsGroup .brace ts := by
  cases ts with
  | nil => cases hcut
  | cons t ts => cases t <;> rfl

theorem startsGroup_behind_word {w : String} (hw : isCut [.ident w] = true)
    (h : startsWord w ts = true) :
    startsGroup .brace ((ts ++ Token.group .brace inner :: behind).drop 1) =
      startsGroup .brace (ts.drop 1) := by
  obtain ⟨rest, rfl⟩ := startsWord_iff.1 h
  cases rest with
  | nil =>
    rw [hw] at hcut
    cases hcut
  | cons t rest => cases t <;> rfl

theorem startsGroup_behind_words (h : startsWord "async" ts = true)
    (h' : startsWord "move" (ts.drop 1) = true) :
    startsGroup .brace ((ts ++ Token.group .brace inner :: behind).drop 2) =
      startsGroup .brace (ts.drop 2) := by
  obtain ⟨rest, rfl⟩ := startsWord_iff.1 h
  obtain ⟨rest', rfl⟩ := startsWord_iff.1 h'
  cases rest' with
  | nil => cases hcut
  | cons t rest => cases t <;> rfl

theorem startsAsyncBlock_append :
    (startsWord "async" ts && (startsGroup .brace ((ts ++ Token.group .brace inner :: behind).drop 1) ||
      startsWord "move" (ts.drop 1) &&
        startsGroup .brace ((ts ++ Token.group .brace inner :: behind).drop 2))) =
      (startsWord "async" ts && (startsGroup .brace (ts.drop 1) ||
        startsWord "move" (ts.drop 1) && startsGroup .brace (ts.drop 2))) := by
  refine and_congr_of fun h => ?_
  rw [startsGroup_behind_word hcut rfl h]
  exact congrArg _ (and_congr_of fun h' => startsGroup_behind_words hcut h h')

theorem startsTryBlock_append :
    (startsWord "try" ts && startsGroup .brace ((ts ++ Token.group .brace inner :: behind).drop 1)) =
      (startsWord "try" ts && startsGroup .brace (ts.drop 1)) :=
  and_congr_of (startsGroup_behind_word hcut rfl)

theorem startsConst_append :
    (startsWord "const" ts && !startsGroup .brace ((ts ++ Token.group .brace inner :: behind).drop 1)) =
      (startsWord "const" ts && !startsGroup .brace (ts.drop 1)) :=
  and_congr_of fun h => congrArg not (startsGroup_behind_word hcut rfl h)

end Cut

theorem atom_alike [Fits g] : Alike inner behind ts (g.atom true) (g.atom false) := by
  cases hcut : isCut ts with
  | true =>
    intro e r h he
    rw [not_simple_of_isCut hcut h] at he
    cases he
  | false =>
    have hparen : startsGroup .paren (ts ++ .group .brace inner :: behind) = startsGroup .paren ts :=
      startsGroup_append (by decide)
    have hbracket : startsGroup .bracket (ts ++ .group .brace inner :: behind) = startsGroup .bracket ts :=
      startsGroup_append (by decide)
    have hform {p q : Parse Expr} {ts : List Token} (h : Yields (Expr.isForm · = true) p) :
        Alike inner behind ts p q :=
      .dismiss (h.mono fun _ => isSimple_of_isForm)
    have hts : ts ≠ [] := by
      rintro rfl
      cases hcut
    unfold atom
    refine .look ?_
    dsimp only
    simp only [startsOp_append, startsWord_append, startsIdent_append, startsLifetime_append,
      startsLit_append, startsOp_drop_append hts, startsWord_drop_append hts,
      startsGenerics_drop_append hts,
      hparen, hbracket, startsAsyncBlock_append hcut, startsTryBlock_append hcut,
      startsConst_append hcut, startsGroup_append_of_not_isCut hcut]
    exact .ite .of_carries <|
      .ite .of_carries <|
      .ite .of_carries <|
      .ite (.dismiss closure_isSimple) <|
      .ite (hform (unwritten_isForm _)) <|
      .ite pathExpr_alike <|
      .ite .of_carries <|
      .ite (hform jumpExpr_isForm) <|
      .ite .of_carries <|
      .bind fun _ _ _ => .ite (.dismiss (.bind fun _ => .bind fun _ => .bind fun _ =>
        .bind fun _ => .pure rfl)) <|
      .ite (hform (conditional_isForm _)) <|
      .ite (hform (loop_isForm _)) <|
      .ite (hform selection_isForm) <|
      .bind fun _ _ _ => .ite .of_carries <|
      .bind fun _ _ _ => .ite .of_carries <|
      .ite .of_carries <|
      .ite (.dismiss rangeFrom_isSimple) <|
      .bind fun _ _ _ => .ite .of_carries <|
      .ite (.dismiss (.bind fun _ => .bind fun _ => .ite (.bind fun _ => .pure rfl)
        ((loop_isForm _).mono fun _ => isSimple_of_isForm))) .fail

/-! ## Operands -/

theorem readUnary_alike [Fits g] [Stands g] :
    Alike inner behind ts (g.readUnary true) (g.readUnary false) := by
  unfold readUnary
  refine .bind fun attrs ts _ => .look (.bind fun isRef ts' _ => .ite ?_ ?_)
  · have hrest (isRaw isMut : Bool) (ts : List Token) : Alike inner behind ts
        (do
          let operand ← g.unary true
          return (if isRaw then Expr.address isMut operand
            else Expr.reference isMut operand).withAttrs attrs)
        (do
          let operand ← g.unary false
          return (if isRaw then Expr.address isMut operand
            else Expr.reference isMut operand).withAttrs attrs) := by
      refine .bindOn (Stands.unary inner behind ts) (fun e ts' _ => .of_carries) fun e he => .pure ?_
      rw [Expr.isSimple_withAttrs]
      cases isRaw <;> exact he
    refine .bind fun isRaw _ _ => ?_
    dsimp only
    exact .ite
      (.bind fun _ _ _ => .bind fun _ _ _ => .ite (.bind fun _ _ _ => hrest _ _ _) (hrest _ _ _))
      (.bind fun _ _ _ => .ite (.bind fun _ _ _ => hrest _ _ _) (hrest _ _ _))
  · simp only [startsOp_append]
    cases ["*", "!", "-"].find? (startsOp · ts) with
    | some o =>
      refine .bind fun _ ts'' _ => .bindOn (Stands.unary inner behind ts'') (fun _ _ _ => .of_carries)
        fun e he => .pure ?_
      rw [Expr.isSimple_withAttrs]
      exact he
    | none =>
      refine .bindOn atom_alike (fun e ts'' _ => .bind fun e' _ _ => .of_carries) fun e he =>
        .bindOf trailers_applied fun e' he' => .ite .fail (.pure ?_)
      rw [Expr.isSimple_withAttrs]
      exact he'.not_simple he

instance : Steady more startsAfterCast := by
  unfold startsAfterCast
  infer_instance

omit [Grammar.Carries g] in
theorem climbFrom_isSimple {records : Bool} {base : Prec} {n : Nat} (he : e.isSimple = false) :
    Yields (fun e' => e'.isSimple = false) (g.climbFrom records base n e) :=
  (climbFrom_extended (fun _ => .trivial) base n).mono fun _ h => h.not_simple he

theorem binaryOp?_append : binaryOp? (ts ++ .group .brace inner :: behind) = binaryOp? ts := by
  unfold binaryOp?
  simp only [startsOp_append]

theorem startsAssign_append : startsAssign (ts ++ .group .brace inner :: behind) = startsAssign ts := by
  unfold startsAssign
  simp only [startsOp_append]

theorem nextPrec_append : nextPrec (ts ++ .group .brace inner :: behind) = nextPrec ts := by
  unfold nextPrec
  simp only [binaryOp?_append, startsAssign_append, startsOp_append, startsWord_append]

section Climb

variable [Stands g]

theorem climbFrom_alike {base : Prec} {n m : Nat} (hn : ts.length < n) (hm : ts.length < m) :
    Alike inner behind ts (g.climbFrom true base n e) (g.climbFrom false base m e) := by
  obtain ⟨m, rfl⟩ := Nat.exists_eq_succ_of_ne_zero (Nat.ne_zero_of_lt hm)
  induction n generalizing ts e m with
  | zero => omega
  | succ n ih =>
    -- An operator takes a token, so that both bounds are enough for what is left.
    have hgo {e' : Expr} {ts' : List Token} (h : ts'.length < ts.length) :
        Alike inner behind ts' (g.climbFrom true base n e') (g.climbFrom false base m e') := by
      obtain ⟨m, rfl⟩ := Nat.exists_eq_succ_of_ne_zero (n := m) (by omega)
      exact ih (by omega) m (by omega)
    unfold climbFrom
    refine .look (.ite .of_carries ?_)
    rw [binaryOp?_append]
    cases hop : binaryOp? ts with
    | some op =>
      obtain ⟨o, p⟩ := op
      refine .ite .of_carries (.ite .fail (.bindShorter fun _ ts' hlt =>
        .bindOn (Stands.operand inner behind ts' p) (fun r ts'' hle => hgo (Nat.lt_of_le_of_lt hle hlt))
          fun r hr => climbFrom_isSimple ?_))
      exact Bool.and_eq_false_imp.2 fun _ => hr
    | none =>
      simp only [startsAssign_append, startsOp_append, startsWord_append]
      refine .ite (.bindShorter fun _ ts' hlt => .bindOn (Stands.operand inner behind ts' _)
          (fun r ts'' hle => hgo (Nat.lt_of_le_of_lt hle hlt)) fun r hr => climbFrom_isSimple ?_)
        (.ite (.dismiss ?_) (.ite (.bindShorter fun _ ts' hlt => .bind fun ty ts'' hle =>
          .bind fun _ ts₃ hle' => .ite .fail (hgo (by omega))) .of_carries))
      · exact Bool.and_eq_false_imp.2 fun _ => hr
      · exact .bindOf rangeFrom_isSimple fun e he => climbFrom_isSimple he

theorem climb_alike {base : Prec} : Alike inner behind ts (g.climb true base e) (g.climb false base e) :=
  climbFrom_alike (Nat.lt_succ_self _) (by rw [List.length_append]; omega)

omit [Grammar.Carries g] [Stands g] in
theorem operandFrom_isSimple {records : Bool} {p : Prec} {n : Nat} (he : e.isSimple = false) :
    Yields (fun e' => e'.isSimple = false) (g.operandFrom records p n e) :=
  (operandFrom_extended (fun _ => .trivial) p n).mono fun _ h => h.not_simple he

theorem operandFrom_alike {p : Prec} {n m : Nat} (hn : ts.length < n) (hm : ts.length < m) :
    Alike inner behind ts (g.operandFrom true p n e) (g.operandFrom false p m e) := by
  obtain ⟨m, rfl⟩ := Nat.exists_eq_succ_of_ne_zero (Nat.ne_zero_of_lt hm)
  induction n generalizing ts e m with
  | zero => omega
  | succ n ih =>
    unfold operandFrom
    refine .look ?_
    simp only [nextPrec_append]
    refine .ite (.count (.bindOn climb_alike (fun e₁ ts₁ hle => .count ?_) fun e₁ he₁ => ?_))
      .of_carries
    · simp only [Nat.add_right_cancel_iff]
      by_cases heq : ts₁.length = ts.length
      · simp only [if_pos heq]
        exact .of_carries
      · simp only [if_neg heq]
        obtain ⟨m, rfl⟩ := Nat.exists_eq_succ_of_ne_zero (n := m) (by omega)
        exact ih (by omega) m (by omega)
    · exact .bind fun _ => .ite (.pure he₁) (operandFrom_isSimple he₁)

theorem readOperand_alike [Fits g] (p : Prec) :
    Alike inner behind ts (g.readOperand true p) (g.readOperand false p) := by
  unfold readOperand
  refine .bindOn readUnary_alike (fun e ts' _ => ?_) fun e he =>
    .bind fun n => operandFrom_isSimple he
  exact operandFrom_alike (Nat.lt_succ_self _) (by rw [List.length_append]; omega)

instance [Fits g] : Stands g.next where
  unary _ _ _ := readUnary_alike
  operand _ _ _ := readOperand_alike

instance : Stands .empty where
  unary _ _ _ := .fail
  operand _ _ _ _ := .fail

instance (n : Nat) : Stands (grammar n) := by
  induction n with
  | zero => exact inferInstanceAs (Stands .empty)
  | succ n ih => exact inferInstanceAs (Stands (grammar n).next)

end Climb

end Grammar

end TypedRoutes.Syntax
