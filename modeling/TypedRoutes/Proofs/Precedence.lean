import TypedRoutes.Proofs.OperandAhead

/-!
# Operators that bind tightly

* `Grammar.extend` : the operator in front, with the operand behind it, applied to an expression;
* `Grammar.climbFrom_succ` : climbing applies one operator after another;
* `Grammar.extend_cases`, `Grammar.climbFrom_tight` : what one operator makes of an expression;
* `Grammar.climbFrom_split` : climbing can stop at operators that bind less tightly and go on;
* `Grammar.readOperand_of_readExpr` : what is read as an expression is read behind a comparison, if
  it is simple and its operators bind more tightly.
-/

namespace TypedRoutes.Syntax

open Parse

/-! ## Simple and loose expressions -/

namespace Expr

variable {e e' : Expr}

theorem isSimple_bare (e : Expr) : e.bare.isSimple = e.isSimple := by
  fun_induction bare e with
  | case1 _ e ih => exact ih
  | case2 => rfl

theorem isSimple_of_isRange (h : e.isRange = true) : e.isSimple = false := by
  rw [← isSimple_bare]
  unfold isRange at h
  split at h
  · next hbare =>
    rw [hbare]
    rfl
  · cases h

theorem Extended.isLoose {B : Prec → Prop} {Q : Expr → Prop} (h : Extended B Q e e')
    (he : e.isLoose = true) : e'.isLoose = true := by
  induction h with
  | refl => exact he
  | binary _ _ _ ih => exact Bool.or_eq_true_iff.2 (.inr ih)
  | assign | range => rfl
  | cast _ _ ih => exact ih

end Expr

/-! ## What stands in front -/

section Ahead

variable {ts : List Token}

theorem startsWord_of_startsOp {o w : String} (h : startsOp o ts = true) :
    startsWord w ts = false := by
  cases ts with
  | nil => rfl
  | cons t ts =>
    cases t with
    | ident t =>
      rw [startsOp_ident] at h
      cases h
    | _ => rfl

theorem dots_of_startsAssign (h : startsAssign ts = true) : startsOp ".." ts = false := by
  unfold startsAssign at h
  simp only [Bool.and_eq_true] at h
  obtain ⟨joint, rest, rfl⟩ := startsChars_one.1 h.1.1
  rfl

theorem startsWord_of_startsAssign {w : String} (h : startsAssign ts = true) :
    startsWord w ts = false := by
  unfold startsAssign at h
  simp only [Bool.and_eq_true] at h
  exact startsWord_of_startsOp h.1.1

theorem lowest_ne_of_binaryOp? {o : String} {p : Prec} (h : binaryOp? ts = some (o, p)) :
    p ≠ .lowest := by
  have hall : ∀ entry ∈ binaryOps, entry.2 ≠ .lowest := by decide
  exact hall _ (List.mem_of_find?_eq_some h)

theorem rank_nextPrec (ts : List Token) : (nextPrec ts).rank ≤ Prec.cast.rank := by
  unfold nextPrec
  split
  · next hop =>
    have hall : ∀ entry ∈ binaryOps, entry.2.rank ≤ Prec.cast.rank := by decide
    exact hall _ (List.mem_of_find?_eq_some hop)
  · repeat' split
    all_goals decide

end Ahead

namespace Grammar

variable {g : Grammar} {records : Bool} {q : Prec} {n m : Nat} {u e : Expr} {ts r : List Token}

/-! ## One operator -/

/-- The operator in front, with the operand behind it, applied to an expression. -/
def extend (g : Grammar) (records : Bool) (u : Expr) : Parse Expr := do
  let ts ← ahead id
  match binaryOp? ts with
  | some (o, p) =>
    if p = .compare ∧ u.isComparison then fail
    op o
    return .binary u o (← g.operand records p)
  | none =>
    if startsAssign ts then
      op "="
      return .assign u (← g.operand records .assign)
    else if startsOp ".." ts then g.rangeFrom records (some u)
    else
      word "as"
      let ty ← g.ty false
      if ← ahead startsAfterCast then fail
      return .cast u ty

theorem climbFrom_loose {base : Prec} (hu : u.isLoose = true) :
    Yields (fun e => e.isLoose = true) (g.climbFrom records base n u) :=
  (climbFrom_extended (fun _ => .trivial) base n).mono fun _ h => h.isLoose hu

/-- Climbing applies one operator after another while they bind tightly enough. -/
theorem climbFrom_succ (hq : q.rank ≤ Prec.cast.rank) :
    g.climbFrom records q (n + 1) u ts =
      if u.isRange ∨ nextPrec ts = .lowest ∨ (nextPrec ts).rank < q.rank then some (u, ts)
      else (g.extend records u >>= g.climbFrom records q n) ts := by
  unfold climbFrom nextPrec extend
  by_cases hrange : u.isRange = true
  · simp [bind_apply, ahead, hrange, pure_apply]
  cases hop : binaryOp? ts with
  | some op =>
    obtain ⟨o, p⟩ := op
    have hlowest := lowest_ne_of_binaryOp? hop
    by_cases hp : p.rank < q.rank
    · simp [bind_apply, ahead, hrange, hop, hp, pure_apply]
    by_cases hc : p = .compare ∧ u.isComparison
    · obtain ⟨rfl, hc⟩ := hc
      simp [bind_apply, ahead, hrange, hop, hp, hc, Parse.fail]
    · simp [bind_apply, ahead, hrange, hop, hp, hc, hlowest, map_apply, Option.bind_assoc,
        Option.bind_map, Function.comp_def]
  | none =>
    by_cases hassign : startsAssign ts = true
    · have hdots := dots_of_startsAssign hassign
      have hword : startsWord "as" ts = false := startsWord_of_startsAssign hassign
      by_cases hp : Prec.assign.rank < q.rank
      · simp [bind_apply, ahead, hrange, hop, hassign, hdots, hword, hp, Nat.not_le_of_lt hp,
          pure_apply]
      · simp [bind_apply, ahead, hrange, hop, hassign, hp, Nat.le_of_not_lt hp, map_apply,
          Option.bind_assoc, Option.bind_map, Function.comp_def]
    by_cases hdots : startsOp ".." ts = true
    · have hword : startsWord "as" ts = false := startsWord_of_startsOp hdots
      by_cases hp : Prec.range.rank < q.rank
      · simp [bind_apply, ahead, hrange, hop, hassign, hdots, hword, hp, Nat.not_le_of_lt hp,
          pure_apply]
      · simp [bind_apply, ahead, hrange, hop, hassign, hdots, hp, Nat.le_of_not_lt hp]
    by_cases hword : startsWord "as" ts = true
    · simp only [hrange, Bool.false_eq_true, ↓reduceIte, bind_apply, ahead, id_eq,
        Option.bind_some, hop, hassign, and_false, hdots, hword, reduceCtorEq,
        Nat.not_lt_of_le hq, or_self, bind_pure_comp, Option.bind_assoc]
      refine congrArg _ (funext fun _ => congrArg _ (funext fun _ => ?_))
      split <;> rfl
    · simp [bind_apply, ahead, hrange, hop, hassign, hdots, hword, pure_apply]

/-- What an operator makes of an expression: an operation or a cast, unless it is looser than a
comparison. -/
theorem extend_cases (h : g.extend records u ts = some (e, r)) :
    (∃ o p ts' v, binaryOp? ts = some (o, p) ∧ Parse.op o ts = some ((), ts') ∧
      g.operand records p ts' = some (v, r) ∧ e = .binary u o v) ∨
    (∃ ts' ty, nextPrec ts = .cast ∧ word "as" ts = some ((), ts') ∧
      g.ty false ts' = some (ty, r) ∧ e = .cast u ty) ∨
    (∃ v, e = .assign u v) ∨ ∃ closed stop, e = .range (some u) closed stop := by
  unfold extend at h
  rw [bind_apply] at h
  simp only [ahead, id, Option.bind_some] at h
  generalize hop : binaryOp? ts = found at h
  rcases found with _ | ⟨o, p⟩
  case some =>
    dsimp only at h
    split at h
    · cases h
    · obtain ⟨_, ts', ho, h⟩ := bind_eq_some.1 h
      obtain ⟨v, r', hv, h⟩ := bind_eq_some.1 h
      cases h
      exact .inl ⟨o, p, ts', v, rfl, ho, hv, rfl⟩
  case none =>
    dsimp only at h
    split at h
    · obtain ⟨_, _, -, h⟩ := bind_eq_some.1 h
      obtain ⟨v, r', -, h⟩ := bind_eq_some.1 h
      cases h
      exact .inr (.inr (.inl ⟨v, rfl⟩))
    · next hassign =>
      split at h
      · obtain ⟨closed, stop, he, -⟩ := rangeFrom_yields (fun _ => .trivial) _ _ h
        exact .inr (.inr (.inr ⟨closed, stop, he⟩))
      · next hdots =>
        obtain ⟨_, ts', hword, h⟩ := bind_eq_some.1 h
        obtain ⟨ty, r', hty, h⟩ := bind_eq_some.1 h
        obtain ⟨after, _, hahead, h⟩ := bind_eq_some.1 h
        cases hahead
        split at h
        · cases h
        · cases h
          refine .inr (.inl ⟨ts', ty, ?_, hword, hty, rfl⟩)
          have hstarts : startsWord "as" ts = true := by
            unfold word at hword
            split at hword
            · assumption
            · cases hword
          simp [nextPrec, hop, hassign, hdots, hstarts]

/-- An operator in a simple expression that is not loose binds more tightly than a comparison, and
takes a token. -/
theorem extend_tight [Grammar.Carries g] [Stands g] (h : g.extend true u ts = some (e, r))
    (hsimple : e.isSimple = true) (htight : e.isLoose = false) :
    Prec.compare.rank < (nextPrec ts).rank ∧ r.length < ts.length := by
  obtain ⟨o, p, ts', v, hop, ho, hv, rfl⟩ | ⟨ts', ty, hnext, hword, hty, rfl⟩ | ⟨v, rfl⟩ |
    ⟨closed, stop, rfl⟩ := extend_cases h
  · have hprec : nextPrec ts = opPrec o := by
      rw [opPrec_of_binaryOp? hop, nextPrec, hop]
    have hv := (Stands.operand [] [] ts' p v r hv (Bool.and_eq_true_iff.1 hsimple).2).2
    rw [hprec]
    exact ⟨Nat.lt_of_not_le (of_decide_eq_false (Bool.or_eq_false_iff.1 htight).1),
      Nat.lt_of_le_of_lt hv (Consumes.shorter ho)⟩
  · rw [hnext]
    exact ⟨by decide, Nat.lt_of_le_of_lt (Carries.shrinks true hty) (Consumes.shorter hword)⟩
  · cases htight
  · cases htight

/-! ## Operands of a comparison -/

section Tight

variable [Grammar.Carries g] [Stands g] {k : Nat} (hsimple : e.isSimple = true)
  (htight : e.isLoose = false)

include hsimple htight

/-- Where an expression that is simple and not loose is read, either nothing follows the operand or
an operator that binds more tightly than a comparison does. -/
theorem climbFrom_tight (h : g.climbFrom true .lowest (n + 1) u ts = some (e, r)) :
    (nextPrec ts = .lowest ∧ u = e ∧ ts = r) ∨
    (Prec.compare.rank < (nextPrec ts).rank ∧ ∃ u' ts', ts'.length < ts.length ∧
      g.climbFrom true .lowest n u' ts' = some (e, r) ∧
      ∀ q m, q.rank ≤ (nextPrec ts).rank →
        g.climbFrom true q (m + 1) u ts = g.climbFrom true q m u' ts') := by
  rw [climbFrom_succ (Nat.zero_le _)] at h
  split at h
  · next hstop =>
    obtain ⟨rfl, rfl⟩ := Prod.mk.inj (Option.some.inj h)
    obtain hrange | hlowest | hrank := hstop
    · rw [Expr.isSimple_of_isRange hrange] at hsimple
      cases hsimple
    · exact .inl ⟨hlowest, rfl, rfl⟩
    · exact absurd hrank (Nat.not_lt_zero _)
  · next hgo =>
    obtain ⟨u', ts', hextend, h⟩ := bind_eq_some.1 h
    have hsimple' : u'.isSimple = true := by
      cases hu' : u'.isSimple with
      | true => rfl
      | false =>
        have hno := climbFrom_isSimple hu' _ _ h
        exact hno.symm.trans hsimple
    have htight' : u'.isLoose = false := by
      cases hu' : u'.isLoose with
      | false => rfl
      | true =>
        have hno := climbFrom_loose hu' _ _ h
        exact hno.symm.trans htight
    obtain ⟨hrank, hlt⟩ := extend_tight hextend hsimple' htight'
    refine .inr ⟨hrank, u', ts', hlt, h, fun q m hq => ?_⟩
    have hstep : ¬(u.isRange = true ∨ nextPrec ts = .lowest ∨ (nextPrec ts).rank < q.rank) := by
      rintro (hrange | hlowest | hlow)
      · exact hgo (.inl hrange)
      · exact hgo (.inr (.inl hlowest))
      · omega
    rw [climbFrom_succ (Nat.le_trans hq (rank_nextPrec ts)), if_neg hstep, bind_apply, hextend,
      Option.bind_some]

/-- Climbing can stop at operators that bind less tightly and go on from there. -/
theorem climbFrom_split (hq : q.rank ≤ Prec.cast.rank) (hpos : 0 < q.rank) (hk : ts.length < k)
    (hm : ts.length < m) (h : g.climbFrom true .lowest k u ts = some (e, r)) :
    ∃ u' ts' k', g.climbFrom true q m u ts = some (u', ts') ∧ ts'.length ≤ ts.length ∧
      ts'.length < k' ∧ g.climbFrom true .lowest k' u' ts' = some (e, r) := by
  induction k generalizing u ts m with
  | zero => omega
  | succ k ih =>
    obtain ⟨m, rfl⟩ := Nat.exists_eq_succ_of_ne_zero (Nat.ne_zero_of_lt hm)
    by_cases hrank : (nextPrec ts).rank < q.rank
    · exact ⟨u, ts, k + 1, by rw [climbFrom_succ hq, if_pos (.inr (.inr hrank))], Nat.le_refl _, hk,
        h⟩
    · obtain ⟨hnext, -, -⟩ | ⟨-, u', ts', hlt, h', hgo⟩ := climbFrom_tight hsimple htight h
      · rw [hnext] at hrank
        exact absurd hpos hrank
      · obtain ⟨u₂, ts₂, k₂, hread, hle, hk₂, hrest⟩ := ih (m := m) (by omega) (by omega) h'
        exact ⟨u₂, ts₂, k₂, (hgo q m (Nat.le_of_not_lt hrank)).trans hread, by omega, hk₂, hrest⟩

/-- Behind a comparison is read whatever is simple and not loose. -/
theorem operandFrom_compare (hn : ts.length < n) (hk : ts.length < k)
    (h : g.climbFrom true .lowest k u ts = some (e, r)) :
    g.operandFrom true .compare n u ts = some (e, r) := by
  induction n generalizing u ts k with
  | zero => omega
  | succ n ih =>
    obtain ⟨k, rfl⟩ := Nat.exists_eq_succ_of_ne_zero (Nat.ne_zero_of_lt hk)
    unfold operandFrom
    rw [bind_apply]
    simp only [ahead, id, Option.bind_some]
    obtain ⟨hnext, rfl, rfl⟩ | ⟨hnext, u', ts', hlt, h', hgo⟩ := climbFrom_tight hsimple htight h
    · rw [hnext]
      rfl
    · -- One climb takes all operators that bind as tightly as the next; fewer tokens are left.
      obtain ⟨u₂, ts₂, k₂, hread, hle, hk₂, hrest⟩ := climbFrom_split hsimple htight
        (m := ts.length) (rank_nextPrec ts) (by omega) (by omega) hlt h'
      have hclimb : g.climb true (nextPrec ts) u ts = some (u₂, ts₂) :=
        (hgo (nextPrec ts) ts.length (Nat.le_refl _)).trans hread
      have hrest : g.operandFrom true .compare n u₂ ts₂ = some (e, r) := ih (by omega) hk₂ hrest
      rw [if_pos (.inl hnext)]
      simp only [bind_apply, remaining, ahead, Option.bind_some, hclimb]
      rw [if_neg (by omega)]
      exact hrest

theorem readOperand_of_readExpr (h : g.readExpr true ts = some (e, r)) :
    g.readOperand true .compare ts = some (e, r) := by
  obtain ⟨u, ts', hu, h⟩ := bind_eq_some.1 h
  exact bind_eq_some.2 ⟨u, ts', hu, operandFrom_compare hsimple htight (Nat.lt_succ_self _)
    (Nat.lt_succ_self _) h⟩

end Tight

end Grammar

end TypedRoutes.Syntax
