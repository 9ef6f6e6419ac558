import TypedRoutes.Syntax.Parser.Expr

/-!
# Parentheses around operands

* `Context` : what stands around an expression;
* `Expr.prec` : how tightly an expression holds together;
* `Context.before`, `Context.beforeMember`, `Context.behind` : what stands around the operands of an
  expression that stands in a context;
* `Expr.scan` : what becomes of the operator behind an expression that has no parentheses;
* `Expr.grouped`, `Stmt.groupedEach` : an expression, or statements, with parentheses around each
  operand that would be read differently without them.

A tree can be read from tokens in which an operand needs no parentheses because it cannot go on
where it ends, such as a closure in front of a question mark. It gets them here, so that its tokens
are read as the same tree whatever stands around them.
-/

namespace TypedRoutes.Syntax

/-! ## Kinds of expressions -/

def Expr.isAttributed : Expr → Bool
  | .attributed .. => true
  | _ => false

/-- How tightly a binary operator binds. -/
def opPrec (op : String) : Prec :=
  (binaryOps.lookup op).getD .lowest

/-- How tightly an expression holds together. -/
def Expr.prec (e : Expr) : Prec :=
  let whole : Prec := if e.isAttributed then .unary else .atomic
  match e.bare with
  | .closure _ _ _ none _ => .lowest
  | .jump _ _ (some _) => .lowest
  | .jump "continue" _ none => whole
  | .jump _ _ none => .atomic
  | .assign .. => .assign
  | .range .. => .range
  | .binary _ o _ => opPrec o
  | .bind .. => .bind
  | .cast .. => .cast
  | .unary .. | .reference .. | .address .. => .unary
  | .unwritable _ => .atomic
  | _ => whole

/-- Whether an expression begins with a label. -/
def Expr.beginsWithLabel : Expr → Bool
  | .block l _ | .forLoop l .. | .endless l _ | .whileLoop l .. => l.isSome
  | .assign l _ | .binary l _ _ | .cast l _ | .range (some l) _ _ => l.beginsWithLabel
  | .await e | .call e _ | .field e _ | .index e _ | .methodCall e .. | .propagate e =>
    e.beginsWithLabel
  | .attributed _ e => e.beginsWithLabel
  | _ => false

/-- A word that leaves a function, or hands out a value, without one. -/
def Expr.isBareExit (e : Expr) : Bool :=
  match e.bare with
  | .jump w _ none => w = "return" || w = "yield"
  | _ => false

/-- An expression without end: a brace behind it would belong to it where records may begin. -/
def Expr.takesBrace (e : Expr) : Bool :=
  match e.bare with
  | .jump "break" _ none | .path _ | .range _ _ none => true
  | _ => false

/-- A block with nothing in front of it and no attribute inside. -/
def Expr.isPlainBlock : Expr → Bool
  | .block none (.innerAttr _ :: _) => false
  | .block none _ => true
  | _ => false

def Expr.isRecord (e : Expr) : Bool :=
  match e.bare with
  | .record .. => true
  | _ => false

def Expr.isBind (e : Expr) : Bool :=
  match e.bare with
  | .bind .. => true
  | _ => false

/-- An operation whose attributes stand in front of parentheses. -/
def Expr.isOperation (e : Expr) : Bool :=
  match e.bare with
  | .assign .. | .binary .. | .cast .. | .range .. => true
  | _ => false

/-! ## Contexts -/

/-- What stands around an expression. -/
structure Context where
  /-- How tightly the operator in front binds. -/
  previous : Prec := .lowest
  /-- How tightly the operator behind it binds. -/
  next : Prec := .lowest
  isStmt : Bool := false
  /-- It stands first in a statement without being all of it. -/
  beginsStmt : Bool := false
  isArm : Bool := false
  beginsArm : Bool := false
  /-- A block follows sometime, so that no record may begin. -/
  inCondition : Bool := false
  /-- That block follows directly. -/
  endsCondition : Bool := false
  /-- It stands first in an operand that might be missing. -/
  beginsOptional : Bool := false
  /-- The operator behind it might be read as the beginning of an operand. -/
  nextBegins : Bool := false
  /-- Something of the same expression follows. -/
  continues : Bool := false
  /-- It goes without the block that holds nothing else. -/
  unwraps : Bool := false
  deriving DecidableEq, Repr, Inhabited

namespace Context

/-- Nothing stands around the expression but delimiters. -/
def free : Context := {}

def stmt : Context := { isStmt := true }

def arm : Context := { isArm := true }

def condition : Context := { inCondition := true, endsCondition := true }

/-- The context of what stands in front of an operator. -/
def before (c : Context) (nextBegins : Bool) (next : Prec) : Context :=
  { c with
    next, nextBegins
    isStmt := false
    beginsStmt := c.isStmt || c.beginsStmt
    isArm := false
    beginsArm := c.isArm || c.beginsArm
    endsCondition := false
    continues := true
    unwraps := false }

/-- The context of what stands in front of a member or a question mark. It may be a block, also
where a statement or an arm begins. -/
def beforeMember (c : Context) : Context :=
  { c with
    next := .atomic
    nextBegins := false
    isStmt := c.isStmt || c.beginsStmt
    beginsStmt := false
    isArm := c.isArm || c.beginsArm
    beginsArm := false
    endsCondition := false
    continues := true
    unwraps := false }

/-- The context of what stands behind an operator. `records` says whether a record may begin there
in any case, and `optional` whether the operand might be missing. -/
def behind (c : Context) (records optional : Bool) (previous : Prec) : Context :=
  { c with
    previous
    isStmt := false
    beginsStmt := false
    isArm := false
    beginsArm := false
    inCondition := c.inCondition && !records
    beginsOptional := c.inCondition && optional
    unwraps := false }

/-- Whether an expression stands in parentheses here whatever its operators are. -/
def encloses (c : Context) (e : Expr) : Bool :=
  (c.beginsStmt && !e.needsSemi) || ((c.isStmt || c.beginsStmt) && e.isBind) ||
    (c.beginsArm && e.endsArm) || (c.inCondition && e.isRecord) ||
    (c.endsCondition && (e.isBareExit || (!c.inCondition && e.takesBrace))) ||
    (c.beginsOptional && e.isPlainBlock)

/-- How tightly an expression holds together here. -/
def prec (c : Context) (e : Expr) : Prec :=
  match e.bare with
  | .jump "continue" _ none => e.prec
  | .jump _ _ none => if c.nextBegins then .lowest else if c.continues then e.prec else .unary
  | .jump .. | .closure .. | .bind .. | .range none _ _ => if c.continues then e.prec else .unary
  | _ => e.prec

/-- Whether the operator in front of an expression leaves its first operand to it. -/
def leavesFirst (c : Context) (e : Expr) : Bool :=
  match e.bare with
  | .assign .. => c.previous.rank ≤ Prec.assign.rank
  | .binary _ o _ =>
    if opPrec o = .assign then c.previous.rank ≤ Prec.assign.rank
    else c.previous.rank < (opPrec o).rank
  | .cast .. => c.previous.rank < Prec.cast.rank
  | .range (some _) _ _ => c.previous.rank < Prec.assign.rank
  | _ => true

end Context

/-! ## What follows an operand -/

/-- What becomes of the operator behind an expression that has no parentheses. -/
inductive Follow
  /-- It cannot be read there. -/
  | refused
  /-- It is left to what stands around the expression. -/
  | passed
  /-- It becomes part of the expression. -/
  | taken
  deriving DecidableEq, Repr

/-- What an operand behind an operator of precedence `p` does to an operator of precedence
`next`. -/
def Prec.follow (p next : Prec) : Follow :=
  let tighter :=
    if p = .assign ∨ p = .compare then p.rank ≤ next.rank else p.rank < next.rank
  if tighter ∨ next = .lowest then .taken else .passed

/-- How tightly the last operand of something holds together, where `follow` tells what becomes of
the operator behind it. -/
def Context.lastPrec (c : Context) (e : Expr) (follow : Unit → Follow) : Prec :=
  let p := c.prec e
  let loose :=
    if [.assign, .bind, .unary].contains c.previous then p.rank < c.previous.rank
    else p.rank ≤ c.previous.rank
  let open_ := [.range, .or, .and].contains c.next || !c.nextBegins
  if loose && open_ && follow () ≠ .taken && c.leavesFirst e then .unary else p

/-- What becomes of the operator behind an operand that is no operation itself and stands behind an
operator of precedence `p`. -/
def Context.followAtom (c : Context) (p : Prec) : Follow :=
  if p = .range ∧ (c.next = .assign ∨ c.next = .range) then .refused
  else if p = .bind ∧ c.next.rank < Prec.bind.rank then .refused
  else p.follow c.next

/-- What becomes of the operator behind an expression. The expression stands behind an operator of
precedence `p`; `inner` says that a range does not end with it, and `settled` that an operator
which does not follow it directly is taken. -/
def Expr.scan (c : Context) (p : Prec) (inner settled : Bool) (e : Expr) : Follow :=
  let follow := p.follow c.next
  let isTight := c.next = .atomic
  if c.encloses e then follow
  else
    match e with
    | .assign _ r =>
      if settled && !isTight then .taken
      else
        match r.scan (c.behind false false .assign) .assign (inner || !isTight) true with
        | .refused => if isTight then .refused else .passed
        | _ => .taken
    | .binary _ o r =>
      let q := opPrec o
      let cr := c.behind false false q
      if (settled && !isTight) || (q = .compare && c.next = .compare) then .taken
      else
        match r.scan cr q (inner || !isTight) (follow = .taken) with
        | .taken => .taken
        | .passed => follow
        | .refused =>
          if q ≠ .assign ∧ (cr.lastPrec r fun _ => r.scan cr q true false).rank ≤ q.rank then
            follow
          else if isTight then .refused else .passed
    | .unary _ r | .reference _ r | .address _ r =>
      let cr := c.behind false false .unary
      if settled && !isTight then .taken
      else
        match r.scan cr p (inner || !isTight) (follow = .taken) with
        | .taken => .taken
        | .passed => follow
        | .refused =>
          if (cr.lastPrec r fun _ => r.scan cr .unary true false).rank < Prec.unary.rank then follow
          else if isTight then .refused else .passed
    | .range _ _ (some r) =>
      let cr := c.behind false true .range
      let level := c.next = .assign || c.next = .range
      if inner then .taken
      else
        let last := r.scan cr .range inner (!level)
        if last = .taken || (last = .passed && !level) then .taken
        else if (cr.lastPrec r fun _ => r.scan cr .range true false).rank ≤ Prec.range.rank then
          .taken
        else .refused
    | .range _ _ none => if c.nextBegins then .taken else .refused
    | .jump w l (some r) =>
      if settled || (w = "break" && l.isNone && r.beginsWithLabel) then .taken
      else
        match r.scan (c.behind true (w = "break") .lowest) .lowest true true with
        | .refused => .passed
        | _ => .taken
    | .jump "continue" _ none => c.followAtom p
    | .jump _ _ none => if c.next = .assign ∧ p.rank > Prec.assign.rank then .refused else .taken
    | .closure .. => .taken
    | .bind _ r =>
      let cr := c.behind false false .bind
      let isLoose := c.next.rank < Prec.bind.rank
      if settled then .taken
      else
        match r.scan cr .bind true (!isLoose) with
        | .taken => .taken
        | .passed => if isLoose then .passed else .taken
        | .refused =>
          if isLoose then .passed
          else if (cr.lastPrec r fun _ => r.scan cr .bind true false).rank < Prec.bind.rank then
            .taken
          else .passed
    | .attributed _ r =>
      match r.bare with
      | .unary .. | .reference .. | .address .. | .jump .. | .closure .. | .bind .. =>
        r.scan c p inner settled
      | _ => c.followAtom p
    | _ => c.followAtom p

/-- How tightly the first operand of something holds together. -/
def Context.firstPrec (c : Context) (e : Expr) : Prec :=
  if (!c.nextBegins || c.next = .range) && e.scan c .lowest false false = .passed &&
      c.leavesFirst e then .atomic
  else c.prec e

/-- How tightly the last operand of something holds together. -/
def Context.operandPrec (c : Context) (e : Expr) : Prec :=
  c.lastPrec e fun _ => e.scan c c.previous true false

/-! ## Parentheses -/

/-- The operators that might be read as the beginning of an operand. -/
def beginningOps : List String :=
  ["-", "*", "&&", "||", "&", "|", "<<", "<"]

namespace Context

/-- Whether what stands in front of an operator of precedence `p` gets parentheses. -/
def groupsLeft (c : Context) (p : Prec) (e : Expr) : Bool :=
  let q := c.firstPrec e
  match p with
  | .assign | .range => q.rank ≤ Prec.range.rank
  | .compare => q.rank ≤ p.rank
  | _ => q.rank < p.rank

/-- Whether what stands behind an operator of precedence `p` gets parentheses. -/
def groupsRight (c : Context) (p : Prec) (e : Expr) : Bool :=
  match p with
  | .assign | .lowest => false
  | .unary | .bind => (c.operandPrec e).rank < p.rank
  | _ => (c.operandPrec e).rank ≤ p.rank

/-- Whether the function in a call gets parentheses. A member is the name of a method without. -/
def groupsCallee (c : Context) : Expr → Bool
  | .field _ m => (Literal.index? m).isNone
  | e => c.groupsLeft .atomic e

/-- The context of an expression that gets parentheses if `enclosed`. -/
def inside (c : Context) (enclosed : Bool) : Context :=
  if enclosed then free else c

end Context

/-- An expression in parentheses if it needs them. -/
def Expr.parenIf (needed : Bool) (e : Expr) : Expr :=
  if needed then .paren e else e

mutual

/-- An expression with parentheses around the operands that need them. With `unwrap` a closure whose
body is a block around one expression goes without the block. -/
def Expr.grouped (unwrap : Bool) (around : Context) : Expr → Expr
  | .block none [.expr inner false] =>
    if around.unwraps then inner.grouped unwrap around
    else
      let block := .block none [.expr (inner.grouped unwrap .stmt) false]
      Expr.parenIf (around.encloses block) block
  | e =>
    let enclosed := around.encloses e
    let c := around.inside enclosed
    Expr.parenIf enclosed <|
      match e with
      | .array items => .array (Expr.groupedEach unwrap items)
      | .repeated item length =>
        .repeated (item.grouped unwrap .free) (length.grouped unwrap .free)
      | .tuple items => .tuple (Expr.groupedEach unwrap items)
      | .paren inner => .paren (inner.grouped unwrap .free)
      | .record p fields base =>
        .record p (FieldValue.groupedEach unwrap fields)
          (match base with | some b => some (b.grouped unwrap .free) | none => none)
      | .call callee args =>
        let cl := c.before true .atomic
        let own := cl.groupsCallee callee
        .call (Expr.parenIf own (callee.grouped unwrap (cl.inside own)))
          (Expr.groupedEach unwrap args)
      | .methodCall receiver method turbofish args =>
        let own := c.beforeMember.groupsLeft .atomic receiver
        .methodCall (Expr.parenIf own (receiver.grouped unwrap (c.beforeMember.inside own))) method
          turbofish (Expr.groupedEach unwrap args)
      | .field base member =>
        let own := c.beforeMember.groupsLeft .atomic base
        .field (Expr.parenIf own (base.grouped unwrap (c.beforeMember.inside own))) member
      | .index base position =>
        let cl := c.before true .atomic
        let own := cl.groupsLeft .atomic base
        .index (Expr.parenIf own (base.grouped unwrap (cl.inside own)))
          (position.grouped unwrap .free)
      | .propagate base =>
        let own := c.beforeMember.groupsLeft .atomic base
        .propagate (Expr.parenIf own (base.grouped unwrap (c.beforeMember.inside own)))
      | .await base =>
        let own := c.beforeMember.groupsLeft .atomic base
        .await (Expr.parenIf own (base.grouped unwrap (c.beforeMember.inside own)))
      | .unary op operand =>
        let cr := c.behind false false .unary
        let own := cr.groupsRight .unary operand
        .unary op (Expr.parenIf own (operand.grouped unwrap (cr.inside own)))
      | .reference isMut operand =>
        let cr := c.behind false false .unary
        let own := cr.groupsRight .unary operand
        .reference isMut (Expr.parenIf own (operand.grouped unwrap (cr.inside own)))
      | .address isMut operand =>
        let cr := c.behind false false .unary
        let own := cr.groupsRight .unary operand
        .address isMut (Expr.parenIf own (operand.grouped unwrap (cr.inside own)))
      | .binary left op right =>
        let p := opPrec op
        let cl := c.before (beginningOps.contains op) p
        let ownLeft := cl.groupsLeft p left
        let cr := c.behind false false p
        let ownRight := cr.groupsRight p right
        .binary (Expr.parenIf ownLeft (left.grouped unwrap (cl.inside ownLeft))) op
          (Expr.parenIf ownRight (right.grouped unwrap (cr.inside ownRight)))
      | .assign left right =>
        let cl := c.before false .assign
        let own := cl.groupsLeft .assign left
        .assign (Expr.parenIf own (left.grouped unwrap (cl.inside own)))
          (right.grouped unwrap (c.behind false false .assign))
      | .cast operand ty =>
        let cl := c.before false .cast
        let own := cl.groupsLeft .cast operand
        .cast (Expr.parenIf own (operand.grouped unwrap (cl.inside own))) ty
      | .range start closed stop =>
        let cl := c.before true .range
        let cr := c.behind false true .range
        .range
          (match start with
            | some a =>
              let own := cl.groupsLeft .range a
              some (Expr.parenIf own (a.grouped unwrap (cl.inside own)))
            | none => none)
          closed
          (match stop with
            | some b =>
              let own := cr.groupsRight .range b
              some (Expr.parenIf own (b.grouped unwrap (cr.inside own)))
            | none => none)
      | .block label body => .block label (Stmt.groupedEach unwrap body)
      | .keywordBlock keywords body => .keywordBlock keywords (Stmt.groupedEach unwrap body)
      | .cond test thenBody otherwise =>
        .cond (test.grouped unwrap .condition) (Stmt.groupedEach unwrap thenBody)
          (match otherwise with | some e => some (e.grouped unwrap .free) | none => none)
      | .whileLoop label test body =>
        .whileLoop label (test.grouped unwrap .condition) (Stmt.groupedEach unwrap body)
      | .endless label body => .endless label (Stmt.groupedEach unwrap body)
      | .forLoop label pat source body =>
        .forLoop label pat (source.grouped unwrap .condition) (Stmt.groupedEach unwrap body)
      | .select scrutinee innerAttrs arms =>
        .select (scrutinee.grouped unwrap .condition) innerAttrs (Arm.groupedEach unwrap arms)
      | .closure binder qualifiers inputs output body =>
        let cr := c.behind false false .lowest
        .closure binder qualifiers inputs output
          (body.grouped unwrap { cr with unwraps := unwrap && output.isNone })
      | .bind pat value =>
        let cr := c.behind false false .bind
        let own := cr.groupsRight .bind value
        .bind pat (Expr.parenIf own (value.grouped unwrap (cr.inside own)))
      | .jump keyword label operand =>
        .jump keyword label
          (match operand with
            | some r =>
              let own := keyword = "break" && label.isNone && r.beginsWithLabel
              some (Expr.parenIf own
                (r.grouped unwrap ((c.behind true (keyword = "break") .lowest).inside own)))
            | none => none)
      | .attributed attrs inner =>
        .attributed attrs <|
          if inner.isOperation then .paren (inner.grouped unwrap .free)
          else inner.grouped unwrap
            { c with beginsOptional := c.beginsOptional && !inner.isPlainBlock, unwraps := false }
      | e => e

def Expr.groupedEach (unwrap : Bool) : List Expr → List Expr
  | [] => []
  | e :: rest => e.grouped unwrap .free :: Expr.groupedEach unwrap rest

def FieldValue.grouped (unwrap : Bool) : FieldValue → FieldValue
  | .mk attrs member value =>
    .mk attrs member (match value with | some e => some (e.grouped unwrap .free) | none => none)

def FieldValue.groupedEach (unwrap : Bool) : List FieldValue → List FieldValue
  | [] => []
  | f :: rest => f.grouped unwrap :: FieldValue.groupedEach unwrap rest

def Arm.grouped (unwrap : Bool) : Arm → Arm
  | .mk attrs pat guard body =>
    .mk attrs pat (match guard with | some e => some (e.grouped unwrap .free) | none => none)
      (body.grouped unwrap .arm)

def Arm.groupedEach (unwrap : Bool) : List Arm → List Arm
  | [] => []
  | a :: rest => a.grouped unwrap :: Arm.groupedEach unwrap rest

def Stmt.grouped (unwrap : Bool) : Stmt → Stmt
  | .bind attrs pat value otherwise hasOtherwise =>
    .bind attrs pat (match value with | some e => some (e.grouped unwrap .free) | none => none)
      (Stmt.groupedEach unwrap otherwise) hasOtherwise
  | .expr e semi => .expr (e.grouped unwrap .stmt) semi
  | a => a

def Stmt.groupedEach (unwrap : Bool) : List Stmt → List Stmt
  | [] => []
  | a :: rest => a.grouped unwrap :: Stmt.groupedEach unwrap rest

end

end TypedRoutes.Syntax
