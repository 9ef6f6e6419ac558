import TypedRoutes.Syntax.Parser.Pattern

/-!
# Reading expressions

* `binaryOp?` : the operator in front of a token list, with its precedence;
* `Grammar.climb`, `Grammar.readOperand` : operators by precedence;
* `Grammar.atom`, `Grammar.trailers`, `Grammar.readUnary` : the operand of an operator and what is
  applied to it;
* `Grammar.readExpr` : an expression;
* `Grammar.readStatementExpr` : an expression at the start of a statement, where one that ends with
  a block is complete.

The flag `records` says whether a record may begin here. It may not where a block follows the
expression.
-/

namespace TypedRoutes.Syntax

open Parse

/-! ## Operators -/

/-- The binary operators, longer ones before their beginnings. -/
def binaryOps : List (String × Prec) :=
  [("+=", .assign), ("-=", .assign), ("*=", .assign), ("/=", .assign), ("%=", .assign),
   ("^=", .assign), ("&=", .assign), ("|=", .assign), ("<<=", .assign), (">>=", .assign),
   ("&&", .and), ("||", .or), ("<<", .shift), (">>", .shift), ("==", .compare), ("<=", .compare),
   ("!=", .compare), (">=", .compare), ("+", .sum), ("-", .sum), ("*", .product), ("/", .product),
   ("%", .product), ("^", .bitXor), ("&", .bitAnd), ("|", .bitOr), ("<", .compare), (">", .compare)]

/-- The binary operator in front. -/
def binaryOp? (ts : List Token) : Option (String × Prec) :=
  binaryOps.find? fun (o, _) => startsOp o ts

/-- Whether an assignment sign stands in front. -/
def startsAssign (ts : List Token) : Bool :=
  startsOp "=" ts && !startsOp "==" ts && !startsOp "=>" ts

/-- The precedence of whatever continues an expression. -/
def nextPrec (ts : List Token) : Prec :=
  match binaryOp? ts with
  | some (_, p) => p
  | none =>
    if startsAssign ts then .assign
    else if startsOp ".." ts then .range
    else if startsWord "as" ts then .cast
    else .lowest

/-- Whether an expression can begin here. -/
def startsExpr (ts : List Token) : Bool :=
  (startsName ts && !startsWord "as" ts) || startsGroup .paren ts || startsGroup .bracket ts ||
    startsGroup .brace ts || startsLit ts || (startsOp "!" ts && !startsOp "!=" ts) ||
    (startsOp "-" ts && !startsOp "-=" ts && !startsOp "->" ts) ||
    (startsOp "*" ts && !startsOp "*=" ts) || (startsOp "|" ts && !startsOp "|=" ts) ||
    (startsOp "&" ts && !startsOp "&=" ts) || startsOp ".." ts ||
    (startsOp "<" ts && !startsOp "<=" ts && !startsOp "<<=" ts) || startsOp "::" ts ||
    startsLifetime ts || startsOp "#" ts

/-! ## Attributes of expressions -/

/-- An expression with attributes in front of those that it has. -/
def Expr.withAttrs : List Attr → Expr → Expr
  | [], e => e
  | attrs, .attributed more e => .attributed (attrs ++ more) e
  | attrs, e => .attributed attrs e

/-- The expression without its attributes. -/
def Expr.bare : Expr → Expr
  | .attributed _ e => e.bare
  | e => e

/-- Attach the attributes of a statement to its expression. They belong to what stands first in an
assignment, a binary operation or a cast. -/
def Expr.attach (attrs : List Attr) : Expr → Expr
  | .assign l r => .assign (l.attach attrs) r
  | .binary l o r => .binary (l.attach attrs) o r
  | .cast e ty => .cast (e.attach attrs) ty
  | e => e.withAttrs attrs

def Expr.isRange (e : Expr) : Bool :=
  match e.bare with
  | .range .. => true
  | _ => false

/-- Whether the last operator of an expression compares. -/
def Expr.isComparison (e : Expr) : Bool :=
  match e.bare with
  | .binary _ o _ => ["==", "<=", "!=", ">=", "<", ">"].contains o
  | _ => false

/-! ## Operators by precedence -/

/-- Whether a range without an upper end may stand before these tokens. -/
def endsRange (records : Bool) (ts : List Token) : Bool :=
  ts.isEmpty || startsOp "," ts || startsOp ";" ts || (startsOp "." ts && !startsOp ".." ts) ||
    startsOp "?" ts || startsOp "=>" ts || (!records && startsGroup .brace ts) ||
    startsOp "=" ts || startsOp "+" ts || startsOp "/" ts || startsOp "%" ts || startsOp "^" ts ||
    startsOp ">" ts || startsOp "<=" ts || startsOp "!=" ts || startsOp "-=" ts ||
    startsOp "*=" ts || startsOp "&=" ts || startsOp "|=" ts || startsOp "<<=" ts ||
    startsWord "as" ts

/-- The dots of a range and the operand behind them. -/
def Grammar.rangeFrom (g : Grammar) (records : Bool) (start : Option Expr) : Parse Expr := do
  if ← op? "..=" then return .range start true (some (← g.operand records .range))
  else if ← ahead (startsOp "...") then fail
  else
    op ".."
    if ← ahead (endsRange records) then return .range start false none
    else return .range start false (some (← g.operand records .range))

/-- What may not follow the type of a cast. -/
def startsAfterCast (ts : List Token) : Bool :=
  (startsOp "." ts && !startsOp ".." ts) || startsOp "?" ts || startsGroup .bracket ts ||
    startsGroup .paren ts

/-- Extend the operand `lhs` by operators that bind at least as tightly as `base`, at most `n` of
them. -/
def Grammar.climbFrom (g : Grammar) (records : Bool) (base : Prec) : Nat → Expr → Parse Expr
  | 0, lhs => pure lhs
  | n + 1, lhs => do
    let ts ← ahead id
    if lhs.isRange then return lhs
    match binaryOp? ts with
    | some (o, p) =>
      if p.rank < base.rank then return lhs
      if p = .compare ∧ lhs.isComparison then fail
      op o
      let rhs ← g.operand records p
      g.climbFrom records base n (.binary lhs o rhs)
    | none =>
      if base.rank ≤ Prec.assign.rank ∧ startsAssign ts then
        op "="
        let rhs ← g.operand records .assign
        g.climbFrom records base n (.assign lhs rhs)
      else if base.rank ≤ Prec.range.rank ∧ startsOp ".." ts then
        g.climbFrom records base n (← g.rangeFrom records (some lhs))
      else if startsWord "as" ts then
        word "as"
        let ty ← g.ty false
        if ← ahead startsAfterCast then fail
        g.climbFrom records base n (.cast lhs ty)
      else return lhs

def Grammar.climb (g : Grammar) (records : Bool) (base : Prec) (lhs : Expr) : Parse Expr := do
  g.climbFrom records base ((← remaining) + 1) lhs

/-- Let operators that bind more tightly than `p` extend an operand, at most `n` times. -/
def Grammar.operandFrom (g : Grammar) (records : Bool) (p : Prec) : Nat → Expr → Parse Expr
  | 0, rhs => pure rhs
  | n + 1, rhs => do
    let next := nextPrec (← ahead id)
    if next.rank > p.rank ∨ (next = p ∧ p = .assign) then
      let before ← remaining
      let rhs ← g.climb records next rhs
      if (← remaining) = before then return rhs
      g.operandFrom records p n rhs
    else return rhs

/-! ## Blocks and loops -/

/-- A block of statements in braces. -/
def Grammar.block (g : Grammar) : Parse (List Stmt) :=
  within .brace (g.stmts false)

/-- A block that may begin with inner attributes. -/
def Grammar.body (g : Grammar) : Parse (List Stmt) :=
  within .brace (g.stmts true)

/-- The label in front of a loop or block. -/
def label : Parse String := do
  let l ← lifetime
  op ":"
  return l

/-- A conditional and all its branches; at most `n` of them. -/
def Grammar.conditional (g : Grammar) : Nat → Parse Expr
  | 0 => fail
  | n + 1 => do
    word "if"
    let test ← g.expr false
    let thenBody ← g.block
    if ← word? "else" then
      if ← ahead (startsWord "if") then
        return .cond test thenBody (some (← g.conditional n))
      else return .cond test thenBody (some (.block none (← g.block)))
    else return .cond test thenBody none

/-- A loop, behind its label. -/
def Grammar.loop (g : Grammar) (l : Option String) : Parse Expr := do
  if ← word? "while" then
    let test ← g.expr false
    return .whileLoop l test (← g.body)
  else if ← word? "loop" then return .endless l (← g.body)
  else
    word "for"
    let pat ← g.pats
    word "in"
    let source ← g.expr false
    return .forLoop l pat source (← g.body)

/-- Whether an arm with this body goes without a comma. -/
def Expr.endsArm (e : Expr) : Bool :=
  match e.bare with
  | .cond .. | .select .. | .block .. | .whileLoop .. | .endless .. | .forLoop .. => true
  | .keywordBlock ks _ => ks.head? ≠ some "async"
  | _ => false

/-- Whether an expression needs a semicolon to be a statement before others. -/
def Expr.needsSemi (e : Expr) : Bool :=
  match e.bare with
  | .invocation inv => inv.delim ≠ .brace
  | _ => !e.endsArm

/-- An arm of a selection. -/
def Grammar.arm (g : Grammar) : Parse Arm := do
  let attrs ← g.outerAttrs
  let pat ← g.pats
  let guard ← whenAhead (startsWord "if") (do word "if"; g.expr true)
  op "=>"
  let body ← g.statementExpr
  if body.endsArm then
    let _ ← op? ","
  else if !(← ahead List.isEmpty) then op ","
  return .mk attrs pat guard body

/-- A selection by pattern. -/
def Grammar.selection (g : Grammar) : Parse Expr := do
  word "match"
  let scrutinee ← g.expr false
  within .brace do
    let inner ← g.innerAttrs
    let arms ← manyWhile (fun ts => !ts.isEmpty) g.arm
    return .select scrutinee inner arms

/-! ## Closures -/

def Pat.withAttrs (attrs : List Attr) (p : Pat) : Pat :=
  if attrs.isEmpty then p else .attributed attrs p

/-- A parameter of a closure. -/
def Grammar.closureInput (g : Grammar) : Parse Pat := do
  let attrs ← g.outerAttrs
  let pat ← g.pat
  let pat ← if ← op? ":" then pure (.typed pat (← g.ty true)) else pure pat
  return pat.withAttrs attrs

/-- A closure. -/
def Grammar.closure (g : Grammar) (records : Bool) : Parse Expr := do
  let binder ← g.binder?
  let qualifiers ← ["const", "static", "async", "move"].filterMapM fun w => do
    return if ← word? w then some w else none
  op "|"
  let (inputs, _) ← commaUntil (startsOp "|") g.closureInput
  op "|"
  if ← op? "->" then
    let output ← g.ty true
    return .closure binder qualifiers inputs (some output) (.block none (← g.block))
  else return .closure binder qualifiers inputs none (← g.expr records)

/-! ## Records, tuples and arrays -/

/-- A field of a record. -/
def Grammar.fieldValue (g : Grammar) : Parse FieldValue := do
  let attrs ← g.outerAttrs
  let numbered ← ahead (!startsName ·)
  let m ← member
  if numbered || (← ahead (startsOp ":")) then
    op ":"
    return .mk attrs m (some (← g.expr true))
  else return .mk attrs m none

/-- The inside of a record of type `p`: at most `n` fields and a base. Two dots without base say
nothing. -/
def Grammar.recordBody (g : Grammar) (p : Path) (done : List FieldValue) : Nat → Parse Expr
  | 0 => fail
  | n + 1 => do
    if ← ahead List.isEmpty then return .record p done.reverse none
    if ← op? ".." then
      return .record p done.reverse (← whenAhead (fun ts => !ts.isEmpty) (g.expr true))
    let f ← g.fieldValue
    if ← ahead List.isEmpty then return .record p (f :: done).reverse none
    op ","
    g.recordBody p (f :: done) n

/-- An expression that begins with a path. -/
def Grammar.pathExpr (g : Grammar) (records : Bool) : Parse Expr := do
  let p ← g.exprPath
  if let some call ← callOf? p then return .invocation call
  if records && (← ahead (startsGroup .brace)) then
    within .brace do g.recordBody p [] ((← remaining) + 1)
  else return .path p

/-- A parenthesized expression or a tuple. -/
def Grammar.parenExpr (g : Grammar) : Parse Expr :=
  within .paren do
    let (items, comma) ← commaUntil List.isEmpty (g.expr true)
    match items, comma with
    | [e], false => return .paren e
    | items, _ => return .tuple items

/-- An array, by its items or by one item and a length. -/
def Grammar.arrayExpr (g : Grammar) : Parse Expr :=
  within .bracket do
    if ← ahead List.isEmpty then return .array []
    let first ← g.expr true
    if ← op? ";" then return .repeated first (← g.expr true)
    else if ← op? "," then return .array (first :: (← terminated (g.expr true)))
    else return .array [first]

/-! ## Atoms -/

/-- The tokens of a form that has no layout. -/
def unwritten (p : Parse Unit) : Parse Expr := do
  return .unwritable (← taking p)

/-- One of the words that leave a block, loop or function, with what follows it. -/
def Grammar.jumpExpr (g : Grammar) (records : Bool) : Parse Expr := do
  if ← word? "continue" then return .jump "continue" (← lifetime?) none
  else if ← word? "break" then
    if ← ahead fun ts => startsLifetime ts && startsOp ":" (ts.drop 1) then fail
    let l ← lifetime?
    let operand ← whenAhead (fun ts => startsExpr ts && (records || !startsGroup .brace ts))
      (g.expr true)
    return .jump "break" l operand
  else if ← word? "return" then
    return .jump "return" none (← whenAhead startsExpr (g.expr true))
  else if ← ahead (startsWord "become") then
    unwritten do
      word "become"
      let _ ← g.expr true
  else
    word "yield"
    return .jump "yield" none (← whenAhead startsExpr (g.expr true))

/-- An operand before anything is applied to it. -/
def Grammar.atom (g : Grammar) (records : Bool) : Parse Expr := do
  let ts ← ahead id
  let next := ts.drop 1
  let third := ts.drop 2
  if startsLit ts then return .literal (← literal)
  else if startsWord "async" ts && (startsGroup .brace next ||
      (startsWord "move" next && startsGroup .brace third)) then
    word "async"
    let isMove ← word? "move"
    return .keywordBlock (if isMove then ["async", "move"] else ["async"]) (← g.block)
  else if startsWord "try" ts && startsGroup .brace next then
    word "try"
    return .keywordBlock ["try"] (← g.block)
  else if startsOp "|" ts || startsWord "move" ts ||
      (startsWord "for" ts && startsGenerics next) ||
      (startsWord "const" ts && !startsGroup .brace next) || startsWord "static" ts ||
      (startsWord "async" ts && (startsOp "|" next || startsWord "move" next)) then
    g.closure records
  else if startsWord "builtin" ts && startsOp "#" next then
    unwritten do
      word "builtin"
      op "#"
      let _ ← ident
      let _ ← inside .paren
  else if startsIdent ts || startsOp "::" ts || startsOp "<" ts ||
      ["self", "Self", "super", "crate"].any (startsWord · ts) ||
      (startsWord "try" ts && (startsOp "!" next || startsOp "::" next)) then
    g.pathExpr records
  else if startsGroup .paren ts then g.parenExpr
  else if ["break", "continue", "return", "become", "yield"].any (startsWord · ts) then
    g.jumpExpr records
  else if startsGroup .bracket ts then g.arrayExpr
  else if ← word? "let" then
    let pat ← g.pats
    op "="
    return .bind pat (← g.climb records .compare (← g.unary records))
  else if startsWord "if" ts then g.conditional ts.length
  else if startsWord "while" ts || startsWord "loop" ts || startsWord "for" ts then g.loop none
  else if startsWord "match" ts then g.selection
  else if ← word? "unsafe" then return .keywordBlock ["unsafe"] (← g.body)
  else if ← word? "const" then return .keywordBlock ["const"] (← g.body)
  else if startsGroup .brace ts then return .block none (← g.body)
  else if startsOp ".." ts then g.rangeFrom records none
  else if ← word? "_" then return .infer
  else if startsLifetime ts then
    let l ← label
    if ← ahead (startsGroup .brace) then return .block (some l) (← g.body) else g.loop (some l)
  else fail

/-! ## Trailers -/

/-- Numbers that were read as one decimal: the components of a tuple in a tuple, or one number and
a dot. -/
def splitIndex (text : String) : Option (List String) :=
  let parts := text.toList.splitOn '.'
  let numbers := if parts.getLast? = some [] then parts.dropLast else parts
  numbers.mapM fun ds => if ds.isEmpty then none else Literal.index? (String.ofList ds)

/-- What stands behind a dot: a member, a method call or a wait. -/
def Grammar.dotted (g : Grammar) (e : Expr) : Parse Expr := do
  if ← word? "await" then return .await e
  let named ← ahead startsName
  let m ← member
  let turbofish ← whenAhead (fun ts => named && startsOp "::" ts) do
    op "::"
    g.angleArgs
  if named && (turbofish.isSome || (← ahead (startsGroup .paren))) then
    return .methodCall e m turbofish (← within .paren (terminated (g.expr true)))
  else return .field e m

/-- Behind a dot: components of nested tuples that were read as one decimal, or else a member. -/
def Grammar.afterDot (g : Grammar) (e : Expr) : Parse Expr
  | .literal t :: rest =>
    if t.toList.contains '.' then
      match splitIndex t with
      | some [a, b] => some (.field (.field e a) b, rest)
      | some [a] => g.dotted (.field e a) rest
      | _ => none
    else g.dotted e (.literal t :: rest)
  | ts => g.dotted e ts

/-- Apply one call, member, position or question mark, if one follows. -/
def Grammar.trailer? (g : Grammar) (e : Expr) : Parse (Option Expr) := do
  let ts ← ahead id
  if startsGroup .paren ts then
    return some (.call e (← within .paren (terminated (g.expr true))))
  else if startsOp "." ts && !startsOp ".." ts && !e.isRange then
    op "."
    return some (← g.afterDot e)
  else if startsGroup .bracket ts then
    return some (.index e (← within .bracket (g.expr true)))
  else if startsOp "?" ts && !e.isRange then
    op "?"
    return some (.propagate e)
  else return none

/-- Apply all that follows an operand, at most `n` times. -/
def Grammar.trailersFrom (g : Grammar) (e : Expr) : Nat → Parse Expr
  | 0 => pure e
  | n + 1 => do
    match ← g.trailer? e with
    | some e => g.trailersFrom e n
    | none => return e

def Grammar.trailers (g : Grammar) (e : Expr) : Parse Expr := do
  g.trailersFrom e ((← remaining) + 1)

/-! ## Operands and expressions -/

/-- An operand with the operators in front of it. A range without lower end takes no attributes. -/
def Grammar.readUnary (g : Grammar) (records : Bool) : Parse Expr := do
  let attrs ← g.outerAttrs
  let ts ← ahead id
  if ← op? "&" then
    let isRaw ← ahead fun ts => startsWord "raw" ts &&
      (startsWord "mut" (ts.drop 1) || startsWord "const" (ts.drop 1))
    if isRaw then word "raw"
    let isMut ← word? "mut"
    if isRaw && !isMut then word "const"
    let operand ← g.unary records
    return (if isRaw then Expr.address isMut operand else .reference isMut operand).withAttrs attrs
  else
    match ["*", "!", "-"].find? (startsOp · ts) with
    | some o =>
      op o
      return (Expr.unary o.front (← g.unary records)).withAttrs attrs
    | none =>
      let e ← g.trailers (← g.atom records)
      if e.isRange && !attrs.isEmpty then fail else return e.withAttrs attrs

/-- The right operand of an operator of precedence `p`. -/
def Grammar.readOperand (g : Grammar) (records : Bool) (p : Prec) : Parse Expr := do
  let rhs ← g.readUnary records
  g.operandFrom records p ((← remaining) + 1) rhs

/-- An expression. -/
def Grammar.readExpr (g : Grammar) (records : Bool) : Parse Expr := do
  g.climb records .lowest (← g.readUnary records)

/-! ## Expressions that begin a statement -/

/-- Whether an expression here is complete with its block. -/
def startsBlockLike (ts : List Token) : Bool :=
  let next := ts.drop 1
  startsWord "if" ts || startsWord "while" ts ||
    (startsWord "for" ts && !startsGenerics next) || startsWord "loop" ts ||
    startsWord "match" ts || (startsWord "try" ts && startsGroup .brace next) ||
    startsWord "unsafe" ts || (startsWord "const" ts && startsGroup .brace next) ||
    startsGroup .brace ts || startsLifetime ts

/-- An expression that begins a statement or is the body of an arm. One that ends with a block goes
on only at a member or a question mark. Attributes belong to the operand that stands first. -/
def Grammar.readStatementExpr (g : Grammar) : Parse Expr := do
  let attrs ← g.outerAttrs
  let e ← if ← ahead startsBlockLike then g.atom true else g.readUnary true
  if !e.endsArm then g.climb true .lowest (e.withAttrs attrs)
  else if ← ahead fun ts => (startsOp "." ts && !startsOp ".." ts) || startsOp "?" ts then
    g.climb true .lowest ((← g.trailers e).withAttrs attrs)
  else return e.withAttrs attrs

end TypedRoutes.Syntax
