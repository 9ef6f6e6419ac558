import TypedRoutes.Proofs.Readers

/-!
# Levels of the grammar

* `Grammar.Extends` : a grammar reads whatever another one reads, and reads it alike;
* `Grammar.Regular` : what tells a receiver from another parameter;
* `grammar_extends` : more levels read whatever fewer levels read.

Each reader of the grammar keeps the order of two grammars, since what it does next depends on the
tokens alone and not on what a reader below it fails to read. The only one that reads something else
where a reader fails is the one of a function's parameters.
-/

set_option synthInstance.maxSize 20000

namespace TypedRoutes.Syntax

open Parse

/-- A grammar reads whatever another one reads, and reads it alike. -/
class Grammar.Extends (g g' : Grammar) : Prop where
  expr (records : Bool) : Parse.Extends (g.expr records) (g'.expr records)
  unary (records : Bool) : Parse.Extends (g.unary records) (g'.unary records)
  operand (records : Bool) (p : Prec) : Parse.Extends (g.operand records p) (g'.operand records p)
  statementExpr : Parse.Extends g.statementExpr g'.statementExpr
  ty (plus : Bool) : Parse.Extends (g.ty plus) (g'.ty plus)
  bound (rules : BoundRules) : Parse.Extends (g.bound rules) (g'.bound rules)
  param : Parse.Extends g.param g'.param
  pat : Parse.Extends g.pat g'.pat
  pats : Parse.Extends g.pats g'.pats
  stmts (innerAttrs : Bool) : Parse.Extends (g.stmts innerAttrs) (g'.stmts innerAttrs)
  item : Parse.Extends g.item g'.item

attribute [instance] Grammar.Extends.expr Grammar.Extends.unary Grammar.Extends.operand
  Grammar.Extends.statementExpr Grammar.Extends.ty Grammar.Extends.bound Grammar.Extends.param
  Grammar.Extends.pat Grammar.Extends.pats Grammar.Extends.stmts Grammar.Extends.item

namespace Grammar

variable {g g' : Grammar} [Grammar.Extends g g']

instance : Parse.Extends g.attrContent g'.attrContent := by
  unfold attrContent
  infer_instance

instance (isInner : Bool) : Parse.Extends (g.attr isInner) (g'.attr isInner) := by
  unfold attr
  dsimp only
  infer_instance

instance : Parse.Extends g.outerAttrs g'.outerAttrs := by
  unfold outerAttrs
  infer_instance

instance : Parse.Extends g.innerAttrs g'.innerAttrs := by
  unfold innerAttrs
  infer_instance

instance : Parse.Extends g.constArg g'.constArg := by
  unfold constArg
  infer_instance

instance (more : List Token → Bool) : Parse.Extends (g.plainBounds more) (g'.plainBounds more) := by
  unfold plainBounds
  infer_instance

instance : Parse.Extends g.readParam g'.readParam := by
  unfold readParam
  dsimp only
  infer_instance

instance : Parse.Extends g.binder? g'.binder? := by
  unfold binder?
  infer_instance

instance : Parse.Extends g.genericArg g'.genericArg := by
  unfold genericArg
  refine .andThen inferInstance fun _ => ?_
  split
  · infer_instance
  · refine .andThen inferInstance fun _ => ?_
    split
    · infer_instance
    · refine .andThen inferInstance fun ty => ?_
      cases ty.assocName? <;> infer_instance

instance : Parse.Extends g.angleArgs g'.angleArgs := by
  unfold angleArgs
  infer_instance

instance (inExpr : Bool) : Parse.Extends (g.segment inExpr) (g'.segment inExpr) := by
  unfold segment
  dsimp only
  infer_instance

instance (inExpr : Bool) : Parse.Extends (g.barePath inExpr) (g'.barePath inExpr) := by
  unfold barePath
  infer_instance

instance (inExpr : Bool) : Parse.Extends (g.qualifiedPath inExpr) (g'.qualifiedPath inExpr) := by
  unfold qualifiedPath
  infer_instance

instance : Parse.Extends g.exprPath g'.exprPath := by
  unfold exprPath
  infer_instance

instance (plus : Bool) : Parse.Extends (g.output? plus) (g'.output? plus) := by
  unfold output?
  infer_instance

instance : Parse.Extends g.boundPath g'.boundPath := by
  unfold boundPath
  refine .andThen inferInstance fun p => ?_
  cases p
  refine .andThen inferInstance fun follows => ?_
  split <;> infer_instance

instance (rules : BoundRules) : Parse.Extends (g.traitBound rules) (g'.traitBound rules) := by
  unfold traitBound
  dsimp only
  infer_instance

instance (rules : BoundRules) : Parse.Extends (g.readBound rules) (g'.readBound rules) := by
  unfold readBound
  dsimp only
  infer_instance

instance (rules : BoundRules) (plus : Bool) :
    Parse.Extends (g.typeBounds rules plus) (g'.typeBounds rules plus) := by
  unfold typeBounds
  dsimp only
  infer_instance

instance (plus : Bool) : Parse.Extends (g.objectBounds plus) (g'.objectBounds plus) := by
  unfold objectBounds
  infer_instance

instance : Parse.Extends g.furtherBounds g'.furtherBounds := by
  unfold furtherBounds
  infer_instance

instance (attrs : List Attr) (isFirst : Bool) :
    Parse.Extends (g.pointerInput attrs isFirst) (g'.pointerInput attrs isFirst) := by
  unfold pointerInput
  dsimp only
  infer_instance

instance (isFirst : Bool) (n : Nat) :
    Parse.Extends (g.pointerInputs isFirst n) (g'.pointerInputs isFirst n) := by
  induction n generalizing isFirst with
  | zero => exact .refl _
  | succ n ih =>
    unfold pointerInputs
    dsimp only
    infer_instance

instance (binder : Binder) : Parse.Extends (g.fnType binder) (g'.fnType binder) := by
  unfold fnType
  infer_instance

instance : Parse.Extends g.parenInside g'.parenInside := by
  unfold parenInside
  refine .andThen inferInstance fun _ => ?_
  infer_instance

instance (plus : Bool) : Parse.Extends (g.parenTy plus) (g'.parenTy plus) := by
  unfold parenTy
  refine .andThen inferInstance fun relaxed => ?_
  split
  · refine .andThen inferInstance fun bound => ?_
    cases bound <;> infer_instance
  · refine .andThen inferInstance fun isWhole => .andThen inferInstance fun ty => ?_
    cases ty.asBound? <;> infer_instance

instance (binder : Binder) (plus : Bool) :
    Parse.Extends (g.pathTy binder plus) (g'.pathTy binder plus) := by
  unfold pathTy
  refine .andThen inferInstance fun p => ?_
  cases p
  dsimp only
  split
  · infer_instance
  · refine .andThen inferInstance fun call? => ?_
    cases call? <;> infer_instance

instance (plus : Bool) : Parse.Extends (g.readTy plus) (g'.readTy plus) := by
  unfold readTy
  dsimp only
  infer_instance

/-! ## Patterns -/

instance : Parse.Extends g.readPats g'.readPats := by
  unfold readPats
  infer_instance

instance : Parse.Extends g.patBound g'.patBound := by
  unfold patBound
  infer_instance

instance (start : Option Pat) : Parse.Extends (g.patRange start) (g'.patRange start) := by
  unfold patRange
  infer_instance

instance (attrs : List Attr) : Parse.Extends (g.fieldPat attrs) (g'.fieldPat attrs) := by
  unfold fieldPat
  dsimp only
  infer_instance

instance (n : Nat) : Parse.Extends (g.fieldPats n) (g'.fieldPats n) := by
  induction n with
  | zero => exact .refl _
  | succ n ih =>
    unfold fieldPats
    dsimp only
    infer_instance

instance : Parse.Extends g.pathPat g'.pathPat := by
  unfold pathPat
  refine .andThen inferInstance fun p => .andThen inferInstance fun call? => ?_
  cases call? <;> infer_instance

instance : Parse.Extends g.readPat g'.readPat := by
  unfold readPat
  dsimp only
  infer_instance

/-! ## Expressions -/

instance (records : Bool) (start : Option Expr) :
    Parse.Extends (g.rangeFrom records start) (g'.rangeFrom records start) := by
  unfold rangeFrom
  infer_instance

instance (records : Bool) (base : Prec) (n : Nat) (lhs : Expr) :
    Parse.Extends (g.climbFrom records base n lhs) (g'.climbFrom records base n lhs) := by
  induction n generalizing lhs with
  | zero => exact .refl _
  | succ n ih =>
    unfold climbFrom
    refine .andThen inferInstance fun ts => ?_
    dsimp only
    cases binaryOp? ts <;> infer_instance

instance (records : Bool) (base : Prec) (lhs : Expr) :
    Parse.Extends (g.climb records base lhs) (g'.climb records base lhs) := by
  unfold climb
  infer_instance

instance (records : Bool) (p : Prec) (n : Nat) (rhs : Expr) :
    Parse.Extends (g.operandFrom records p n rhs) (g'.operandFrom records p n rhs) := by
  induction n generalizing rhs with
  | zero => exact .refl _
  | succ n ih =>
    unfold operandFrom
    dsimp only
    infer_instance

instance : Parse.Extends g.block g'.block := by
  unfold block
  infer_instance

instance : Parse.Extends g.body g'.body := by
  unfold body
  infer_instance

instance (n : Nat) : Parse.Extends (g.conditional n) (g'.conditional n) := by
  induction n with
  | zero => exact .refl _
  | succ n ih =>
    unfold conditional
    infer_instance

instance (l : Option String) : Parse.Extends (g.loop l) (g'.loop l) := by
  unfold loop
  infer_instance

instance : Parse.Extends g.arm g'.arm := by
  unfold arm
  dsimp only
  infer_instance

instance : Parse.Extends g.selection g'.selection := by
  unfold selection
  infer_instance

instance : Parse.Extends g.closureInput g'.closureInput := by
  unfold closureInput
  dsimp only
  infer_instance

instance (records : Bool) : Parse.Extends (g.closure records) (g'.closure records) := by
  unfold closure
  infer_instance

instance : Parse.Extends g.fieldValue g'.fieldValue := by
  unfold fieldValue
  infer_instance

instance (p : Path) (done : List FieldValue) (n : Nat) :
    Parse.Extends (g.recordBody p done n) (g'.recordBody p done n) := by
  induction n generalizing done with
  | zero => exact .refl _
  | succ n ih =>
    unfold recordBody
    infer_instance

instance (records : Bool) : Parse.Extends (g.pathExpr records) (g'.pathExpr records) := by
  unfold pathExpr
  refine .andThen inferInstance fun p => .andThen inferInstance fun call? => ?_
  cases call? <;> infer_instance

instance : Parse.Extends g.parenExpr g'.parenExpr := by
  unfold parenExpr
  infer_instance

instance : Parse.Extends g.arrayExpr g'.arrayExpr := by
  unfold arrayExpr
  infer_instance

instance (records : Bool) : Parse.Extends (g.jumpExpr records) (g'.jumpExpr records) := by
  unfold jumpExpr unwritten
  dsimp only
  infer_instance

instance (records : Bool) : Parse.Extends (g.atom records) (g'.atom records) := by
  unfold atom
  dsimp only
  infer_instance

instance (e : Expr) : Parse.Extends (g.dotted e) (g'.dotted e) := by
  unfold dotted
  infer_instance

instance (e : Expr) : Parse.Extends (g.afterDot e) (g'.afterDot e) where
  reads {ts r} h := by
    unfold afterDot at h ⊢
    split at h
    · next t rest =>
      split at h
      · next hdot =>
        rw [if_pos hdot]
        split at h
        · next a b => exact h
        · next a => exact Parse.Extends.reads h
        · cases h
      · next hdot => rw [if_neg hdot]; exact Parse.Extends.reads h
    · exact Parse.Extends.reads h

instance (e : Expr) : Parse.Extends (g.trailer? e) (g'.trailer? e) := by
  unfold trailer?
  infer_instance

instance (e : Expr) (n : Nat) : Parse.Extends (g.trailersFrom e n) (g'.trailersFrom e n) := by
  induction n generalizing e with
  | zero => exact .refl _
  | succ n ih =>
    unfold trailersFrom
    refine .andThen inferInstance fun more? => ?_
    cases more? <;> infer_instance

instance (e : Expr) : Parse.Extends (g.trailers e) (g'.trailers e) := by
  unfold trailers
  infer_instance

instance (records : Bool) : Parse.Extends (g.readUnary records) (g'.readUnary records) := by
  unfold readUnary
  refine .andThen inferInstance fun attrs => .andThen inferInstance fun ts =>
    .andThen inferInstance fun isRef => ?_
  split
  · dsimp only
    infer_instance
  · cases ["*", "!", "-"].find? (startsOp · ts) <;> infer_instance

instance (records : Bool) (p : Prec) :
    Parse.Extends (g.readOperand records p) (g'.readOperand records p) := by
  unfold readOperand
  infer_instance

instance (records : Bool) : Parse.Extends (g.readExpr records) (g'.readExpr records) := by
  unfold readExpr
  infer_instance

instance : Parse.Extends g.readStatementExpr g'.readStatementExpr := by
  unfold readStatementExpr
  dsimp only
  infer_instance

/-! ## Items -/

instance : Parse.Extends g.genericParams g'.genericParams := by
  unfold genericParams
  infer_instance

instance : Parse.Extends g.predicate g'.predicate := by
  unfold predicate
  infer_instance

instance (n : Nat) : Parse.Extends (g.predicates n) (g'.predicates n) := by
  induction n with
  | zero => exact .refl _
  | succ n ih =>
    unfold predicates
    infer_instance

instance : Parse.Extends g.conditions g'.conditions := by
  unfold conditions
  dsimp only
  infer_instance

instance (attrs : List Attr) : Parse.Extends (g.receiver attrs) (g'.receiver attrs) := by
  unfold receiver
  dsimp only
  infer_instance

/-! ### Receivers -/

/-- The value itself stands in front, perhaps as one that changes. -/
inductive StartsSelf (rest : List Token) : List Token → Prop
  | plain : StartsSelf rest (.ident "self" :: rest)
  | mutable : StartsSelf rest (.ident "mut" :: .ident "self" :: rest)

/-- The value itself in front of what is no path. -/
def selfWord : Parse Bool := do
  let isMut ← word? "mut"
  word "self"
  expect fun ts => !startsOp "::" ts
  return isMut

/-- The type of a receiver that is no reference. -/
def receiverType (g : Grammar) : Parse (Option Ty) :=
  whenAhead (startsOp ":") (do op ":"; g.ty true)

omit [Grammar.Extends g g'] in
theorem receiver_of_ref {attrs : List Attr} {ts : List Token} (h : startsOp "&" ts = true) :
    g.receiver attrs ts = g'.receiver attrs ts := by
  simp only [receiver, bind_apply, op?, h, if_pos, Option.bind_some]

omit [Grammar.Extends g g'] in
theorem receiver_of_not_ref {attrs : List Attr} {ts : List Token} (h : ¬startsOp "&" ts = true) :
    g.receiver attrs ts = (do
      let isMut ← selfWord
      return .receiver attrs false none isMut (← g.receiverType) : Parse FnInput) ts := by
  unfold receiver selfWord receiverType
  rw [bind_apply, op?, if_neg h]
  simp only [Option.bind_some, Bool.false_eq_true, if_false, pure_bind, bind_assoc]

theorem startsSelf_of_selfWord {ts rest : List Token} {isMut : Bool}
    (h : selfWord ts = some (isMut, rest)) : StartsSelf rest ts ∧ startsOp "::" rest = false := by
  unfold selfWord at h
  obtain ⟨isMut', ts₁, hmut, h⟩ := bind_eq_some.1 h
  obtain ⟨_, ts₂, hself, h⟩ := bind_eq_some.1 h
  obtain ⟨_, ts₃, hcolons, h⟩ := bind_eq_some.1 h
  obtain ⟨rfl, rfl⟩ := Prod.mk.inj (pure_eq_some.1 h)
  unfold word at hself
  unfold expect at hcolons
  split at hself
  · next hstarts =>
    obtain ⟨rest', rfl⟩ := startsWord_iff.1 hstarts
    cases hself
    split at hcolons
    · next hne =>
      cases hcolons
      refine ⟨?_, by simpa using hne⟩
      unfold word? at hmut
      split at hmut
      · next hstarts' =>
        obtain ⟨rest'', rfl⟩ := startsWord_iff.1 hstarts'
        cases hmut
        exact .mutable
      · cases hmut
        exact .plain
    · cases hcolons
  · cases hself

/-- What tells a receiver with a type from another parameter. -/
class Regular (g : Grammar) : Prop where
  /-- No type begins with dots. -/
  ty_dots {plus : Bool} {ts : List Token} (h : startsOp "..." ts = true) : g.ty plus ts = none
  /-- In front of a colon the value itself is a pattern and no more. -/
  pat_self {ts rest : List Token} {r : Pat × List Token} (h : StartsSelf rest ts)
    (hcolon : startsOp ":" rest = true) (hcolons : startsOp "::" rest = false)
    (hr : g.pat ts = some r) : r.2 = rest

/-- A parameter of a function that is no receiver. -/
def typedInput (g : Grammar) (attrs : List Attr) : Parse FnInput := do
  let ts ← ahead id
  if startsIdent ts && startsOp "<" (ts.drop 1) then return .typed attrs .wild (← g.ty true)
  else
    let pat ← g.pat
    op ":"
    if ← op? "..." then return .rest attrs (some pat)
    else return .typed attrs pat (← g.ty true)

omit [Grammar.Extends g g'] in
theorem fnInput_eq (attrs : List Attr) (ts : List Token) :
    g.fnInput attrs ts = (g.receiver attrs ts).or (g.typedInput attrs ts) := by
  unfold fnInput
  cases g.receiver attrs ts <;> rfl

instance (attrs : List Attr) : Parse.Extends (g.typedInput attrs) (g'.typedInput attrs) := by
  unfold typedInput
  infer_instance

omit [Grammar.Extends g g'] in
theorem receiverType_apply (ts : List Token) :
    g.receiverType ts = if startsOp ":" ts then
      (g.ty true (ts.drop 1)).map fun r => (some r.1, r.2) else some (none, ts) := by
  unfold receiverType
  rw [whenAhead_apply]
  split
  · next h =>
    rw [bind_apply, op, if_pos h]
    rfl
  · rfl

omit [Grammar.Extends g g'] in
/-- A receiver that one grammar reads and the other does not has a type that the other does not
read. -/
theorem exists_startsSelf {attrs : List Attr} {ts : List Token} {r : FnInput × List Token}
    (hr : g'.receiver attrs ts = some r) (hnone : g.receiver attrs ts = none) :
    ∃ rest, StartsSelf rest ts ∧ startsOp ":" rest = true ∧ startsOp "::" rest = false ∧
      g.ty true (rest.drop 1) = none ∧ (g'.ty true (rest.drop 1)).isSome := by
  by_cases href : startsOp "&" ts = true
  · rw [receiver_of_ref href, hr] at hnone
    cases hnone
  · rw [receiver_of_not_ref href] at hr hnone
    obtain ⟨isMut, rest, hself, hr⟩ := bind_eq_some.1 hr
    obtain ⟨ty?, rest', hty', -⟩ := bind_eq_some.1 hr
    obtain ⟨hstarts, hcolons⟩ := startsSelf_of_selfWord hself
    rw [bind_apply, hself, Option.bind_some, bind_apply, Option.bind_eq_none_iff] at hnone
    have hty : g.receiverType rest = none :=
      Option.eq_none_iff_forall_not_mem.2 fun r h => nomatch hnone r h
    rw [receiverType_apply] at hty hty'
    split at hty
    · next hcolon =>
      rw [if_pos hcolon] at hty'
      obtain ⟨r', hr', -⟩ := Option.map_eq_some_iff.1 hty'
      exact ⟨rest, hstarts, hcolon, hcolons, Option.map_eq_none_iff.1 hty, by rw [hr']; rfl⟩
    · cases hty

omit [Grammar.Extends g g'] in
/-- Where a receiver lacks just its type, no other parameter stands either. -/
theorem typedInput_of_receiver [Regular g] [Regular g'] {attrs : List Attr} {ts : List Token}
    {r : FnInput × List Token} (hr : g'.receiver attrs ts = some r)
    (hnone : g.receiver attrs ts = none) : g.typedInput attrs ts = none := by
  obtain ⟨rest, hself, hcolon, hcolons, hty, hty'⟩ := exists_startsSelf hr hnone
  have hname : startsIdent ts = false := by
    cases hself
    · exact show isIdentifier "self" = false by decide
    · exact show isIdentifier "mut" = false by decide
  have hdots : startsOp "..." (rest.drop 1) = false := by
    rw [Bool.eq_false_iff]
    intro h
    rw [Regular.ty_dots h] at hty'
    cases hty'
  rw [Option.eq_none_iff_forall_not_mem]
  intro r' hr'
  unfold typedInput at hr'
  rw [Option.mem_def, bind_apply, ahead, Option.bind_some] at hr'
  simp only [id, hname, Bool.false_and, Bool.false_eq_true, if_false] at hr'
  obtain ⟨pat, rest', hpat, hr'⟩ := bind_eq_some.1 hr'
  obtain rfl : rest' = rest := Regular.pat_self hself hcolon hcolons hpat
  rw [bind_apply, op, if_pos hcolon, Option.bind_some, bind_apply, op?] at hr'
  rw [show (":" : String).length = 1 from rfl, hdots, if_neg Bool.false_ne_true] at hr'
  rw [Option.bind_some, if_neg Bool.false_ne_true, bind_apply, hty] at hr'
  cases hr'

instance (attrs : List Attr) [Regular g] [Regular g'] :
    Parse.Extends (g.fnInput attrs) (g'.fnInput attrs) where
  reads {ts r} h := by
    rw [fnInput_eq] at h ⊢
    cases hreceiver : g.receiver attrs ts with
    | some r' =>
      rw [hreceiver] at h
      have hr : g'.receiver attrs ts = some r' := Parse.Extends.reads hreceiver
      rw [hr]
      exact h
    | none =>
      rw [hreceiver, Option.none_or] at h
      have hr' : g'.typedInput attrs ts = some r := Parse.Extends.reads h
      cases hreceiver' : g'.receiver attrs ts with
      | none => rw [Option.none_or]; exact hr'
      | some r' =>
        rw [typedInput_of_receiver hreceiver' hreceiver] at h
        cases h

section

variable [Regular g] [Regular g']

instance (isFirst : Bool) (n : Nat) :
    Parse.Extends (g.fnInputs isFirst n) (g'.fnInputs isFirst n) := by
  induction n generalizing isFirst with
  | zero => exact .refl _
  | succ n ih =>
    unfold fnInputs
    dsimp only
    infer_instance

instance : Parse.Extends g.signature g'.signature := by
  unfold signature
  infer_instance

instance {p q : Parse Item} [Parse.Extends p q] : Parse.Extends (g.members p) (g'.members q) := by
  unfold members
  infer_instance

instance (attrs : List Attr) (vis : Visibility) (isDefault valueless : Bool) :
    Parse.Extends (g.constantAfter attrs vis isDefault valueless)
      (g'.constantAfter attrs vis isDefault valueless) := by
  unfold constantAfter
  dsimp only
  infer_instance

instance (before after : Bool) :
    Parse.Extends (g.typeForm before after) (g'.typeForm before after) := by
  unfold typeForm
  dsimp only
  infer_instance

instance (n : Nat) : Parse.Extends (g.namedField n) (g'.namedField n) := by
  induction n with
  | zero => exact .refl _
  | succ n ih =>
    unfold namedField
    dsimp only
    infer_instance

instance : Parse.Extends g.namedFields g'.namedFields := by
  unfold namedFields
  infer_instance

instance : Parse.Extends g.unnamedFields g'.unnamedFields := by
  unfold unnamedFields
  infer_instance

instance (attrs : List Attr) (vis : Visibility) :
    Parse.Extends (g.structure attrs vis) (g'.structure attrs vis) := by
  unfold Grammar.structure
  dsimp only
  infer_instance

instance (attrs : List Attr) (vis : Visibility) :
    Parse.Extends (g.union attrs vis) (g'.union attrs vis) := by
  unfold Grammar.union
  infer_instance

instance : Parse.Extends g.variant g'.variant := by
  unfold variant
  dsimp only
  infer_instance

instance (attrs : List Attr) (vis : Visibility) :
    Parse.Extends (g.enumeration attrs vis) (g'.enumeration attrs vis) := by
  unfold enumeration
  infer_instance

instance (attrs : List Attr) (vis : Visibility) (isDefault : Bool) :
    Parse.Extends (g.functionItem attrs vis isDefault) (g'.functionItem attrs vis isDefault) := by
  unfold functionItem
  infer_instance

instance : Parse.Extends g.implMember g'.implMember := by
  unfold implMember
  dsimp only
  infer_instance

instance : Parse.Extends g.traitMember g'.traitMember := by
  unfold traitMember
  dsimp only
  infer_instance

instance {α : Type} {p q : Parse α} [hp : Parse.Extends p q] :
    Parse.Extends (foreignMember.dropSafe p) (foreignMember.dropSafe q) where
  reads h := hp.reads h

instance : Parse.Extends g.foreignMember g'.foreignMember := by
  unfold foreignMember
  dsimp only
  infer_instance

instance (attrs : List Attr) (vis : Visibility) :
    Parse.Extends (g.implementation attrs vis) (g'.implementation attrs vis) := by
  unfold implementation
  dsimp only
  infer_instance

instance (attrs : List Attr) (vis : Visibility) :
    Parse.Extends (g.trait attrs vis) (g'.trait attrs vis) := by
  unfold Grammar.trait
  dsimp only
  infer_instance

instance (attrs : List Attr) (vis : Visibility) :
    Parse.Extends (g.module attrs vis) (g'.module attrs vis) := by
  unfold Grammar.module
  dsimp only
  infer_instance

instance (attrs : List Attr) (vis : Visibility) :
    Parse.Extends (g.foreign attrs vis) (g'.foreign attrs vis) := by
  unfold foreign
  refine .andThen inferInstance fun isUnsafe => .andThen inferInstance fun abi? => ?_
  cases abi? <;> infer_instance

instance (attrs : List Attr) (vis : Visibility) :
    Parse.Extends (g.staticItem attrs vis) (g'.staticItem attrs vis) := by
  unfold staticItem
  infer_instance

instance (attrs : List Attr) : Parse.Extends (g.itemAfter attrs) (g'.itemAfter attrs) := by
  unfold itemAfter
  dsimp only
  infer_instance

instance : Parse.Extends g.readItem g'.readItem := by
  unfold readItem
  infer_instance

/-! ## Statements -/

instance (attrs : List Attr) : Parse.Extends (g.bindStmt attrs) (g'.bindStmt attrs) := by
  unfold bindStmt
  dsimp only
  infer_instance

instance : Parse.Extends g.stmt g'.stmt := by
  unfold stmt
  dsimp only
  infer_instance

instance (n : Nat) : Parse.Extends (g.stmtsFrom n) (g'.stmtsFrom n) := by
  induction n with
  | zero => exact .refl _
  | succ n ih =>
    unfold stmtsFrom
    infer_instance

instance (innerAttrs : Bool) :
    Parse.Extends (g.readStmts innerAttrs) (g'.readStmts innerAttrs) := by
  unfold readStmts
  dsimp only
  infer_instance

end


/-! ## Levels -/

instance : Regular .empty where
  ty_dots _ := rfl
  pat_self _ _ _ hr := by cases hr

omit [Grammar.Extends g g'] in
theorem readTy_dots {plus : Bool} {ts : List Token} (h : startsOp "..." ts = true) :
    g.readTy plus ts = none := by
  obtain ⟨joint, rest, rfl⟩ := startsOp_dots.1 h
  simp [readTy, binder?, whenAhead_apply, bind_apply, ahead, startsWord, startsIdent, startsGroup,
    startsOp, startsChars, word?, op?, startsLifetime]
  rfl

omit [Grammar.Extends g g'] in
theorem readPat_self {ts rest : List Token} {r : Pat × List Token} (hself : StartsSelf rest ts)
    (hcolon : startsOp ":" rest = true) (hcolons : startsOp "::" rest = false)
    (hr : g.readPat ts = some r) : r.2 = rest := by
  obtain ⟨joint, rest', rfl⟩ := startsOp_colon.1 hcolon
  have hat : startsOp "@" (.punct ':' joint :: rest') = false := rfl
  cases hself with
  | plain =>
    simp [readPat, bind_apply, map_apply, ahead, startsOp_ident, startsWord, startsIdent,
      isIdentifier, reservedWords, hcolons, hat, word?, startsLit, name, whenAhead_apply] at hr
    rw [← hr]
  | mutable =>
    simp [readPat, bind_apply, map_apply, ahead, startsOp_ident, startsWord, startsIdent,
      isIdentifier, reservedWords, hat, word?, startsLit, name, whenAhead_apply] at hr
    rw [← hr]

instance : Regular g.next where
  ty_dots := readTy_dots
  pat_self := readPat_self

instance (n : Nat) : Regular (grammar n) := by
  cases n <;> unfold grammar <;> infer_instance

instance : Grammar.Extends .empty g where
  expr _ := .fail
  unary _ := .fail
  operand _ _ := .fail
  statementExpr := .fail
  ty _ := .fail
  bound _ := .fail
  param := .fail
  pat := .fail
  pats := .fail
  stmts _ := .fail
  item := .fail

instance [Regular g] [Regular g'] : g.next.Extends g'.next where
  expr _ := by unfold next; infer_instance
  unary _ := by unfold next; infer_instance
  operand _ _ := by unfold next; infer_instance
  statementExpr := by unfold next; infer_instance
  ty _ := by unfold next; infer_instance
  bound _ := by unfold next; infer_instance
  param := by unfold next; infer_instance
  pat := by unfold next; infer_instance
  pats := by unfold next; infer_instance
  stmts _ := by unfold next; infer_instance
  item := by unfold next; infer_instance

omit [Grammar.Extends g g'] in
/-- More levels read whatever fewer levels read, and read it alike. -/
theorem grammar_extends {n m : Nat} (h : n ≤ m) : (grammar n).Extends (grammar m) := by
  induction n generalizing m with
  | zero => exact inferInstanceAs (Grammar.Extends .empty _)
  | succ n ih =>
    obtain ⟨m, rfl⟩ := Nat.exists_eq_add_of_le' h
    have := ih (Nat.le_of_succ_le_succ h)
    unfold grammar
    infer_instance

end Grammar
end TypedRoutes.Syntax
