import TypedRoutes.Syntax.Parser.Item

/-!
# Reading statements

* `startsItem`, `startsNamedCall`, `startsBraceCall` : what tells statements apart;
* `Ty.endsWithBrace`, `Expr.endsWithBrace` : whether `else` could belong to what it follows;
* `Grammar.stmt` : a statement;
* `Grammar.readStmts` : the statements of a block.
-/

namespace TypedRoutes.Syntax

open Parse

/-! ## What stands ahead -/

/-- Whether an item stands here. -/
def startsItem (ts : List Token) : Bool :=
  let next := ts.drop 1
  let third := ts.drop 2
  startsWord "pub" ts || (startsWord "crate" ts && !startsOp "::" next) || startsWord "extern" ts ||
    startsWord "use" ts ||
    (startsWord "static" ts && (startsWord "mut" next || startsIdent next)) ||
    (startsWord "const" ts && !(startsGroup .brace next || startsWord "static" next ||
      (startsWord "async" next && !(startsWord "unsafe" third || startsWord "extern" third ||
        startsWord "fn" third)) || startsWord "move" next || startsOp "|" next)) ||
    (startsWord "unsafe" ts && !startsGroup .brace next) ||
    (startsWord "async" ts && (startsWord "unsafe" next || startsWord "extern" next ||
      startsWord "fn" next)) ||
    ["fn", "mod", "type", "struct", "enum", "trait", "impl", "macro"].any (startsWord · ts) ||
    (startsWord "union" ts && startsIdent next) ||
    (startsWord "auto" ts && startsWord "trait" next) ||
    (startsWord "default" ts && (startsWord "unsafe" next || startsWord "impl" next))

/-- What stands behind the plain path in front, if one does. -/
def afterPlainPath (ts : List Token) : List Token :=
  match plainPath ts with
  | some (_, rest) => rest
  | none => []

/-- Whether a template call with a name stands here. -/
def startsNamedCall (ts : List Token) : Bool :=
  let rest := afterPlainPath ts
  startsOp "!" rest && (startsIdent (rest.drop 1) || startsWord "try" (rest.drop 1))

/-- Whether a template is called here with braces, and the call is a statement of its own. -/
def startsBraceCall (ts : List Token) : Bool :=
  let rest := afterPlainPath ts
  let third := rest.drop 2
  startsOp "!" rest && startsGroup .brace (rest.drop 1) &&
    !((startsOp "." third && !startsOp ".." third) || startsOp "?" third)

/-! ## Braces at the end -/

/-- Whether tokens end with a group in braces. -/
def endsWithGroup (ts : List Token) : Bool :=
  match ts.getLast? with
  | some (.group .brace _) => true
  | _ => false

mutual

/-- Whether a type ends with a brace. -/
def Ty.endsWithBrace : Ty → Bool
  | .function _ _ _ _ _ (some t) => t.endsWithBrace
  | .existential bounds => Bound.lastEndsWithBrace bounds
  | .object bounds => Bound.lastEndsWithBrace bounds
  | .invocation call => call.delim = .brace
  | .path p => p.endsWithBrace
  | .pointer _ t => t.endsWithBrace
  | .reference _ _ t => t.endsWithBrace
  | .unwritable tokens => endsWithGroup tokens
  | _ => false

def Path.endsWithBrace : Path → Bool
  | .mk _ _ _ segments => Segment.lastEndsWithBrace segments

def Segment.endsWithBrace : Segment → Bool
  | .paren _ _ (some t) => t.endsWithBrace
  | _ => false

def Segment.lastEndsWithBrace : List Segment → Bool
  | [] => false
  | [s] => s.endsWithBrace
  | _ :: rest => Segment.lastEndsWithBrace rest

def Bound.endsWithBrace : Bound → Bool
  | .trait _ _ _ p => p.endsWithBrace
  | .unwritable tokens => endsWithGroup tokens
  | _ => false

def Bound.lastEndsWithBrace : List Bound → Bool
  | [] => false
  | [b] => b.endsWithBrace
  | _ :: rest => Bound.lastEndsWithBrace rest

end

/-- Whether an expression ends with a brace, so that `else` cannot follow it. -/
def Expr.endsWithBrace : Expr → Bool
  | .invocation inv => inv.delim = .brace
  | .block .. | .keywordBlock .. | .cond .. | .whileLoop .. | .endless .. | .forLoop .. | .select ..
  | .record .. => true
  | .reference _ e | .address _ e | .unary _ e | .binary _ _ e | .assign _ e | .bind _ e
  | .closure _ _ _ _ e | .jump _ _ (some e) | .range _ _ (some e) | .attributed _ e =>
    e.endsWithBrace
  | .cast _ ty => ty.endsWithBrace
  | .unwritable tokens => endsWithGroup tokens
  | _ => false

/-! ## Statements -/

/-- A variable binding, behind its attributes. -/
def Grammar.bindStmt (g : Grammar) (attrs : List Attr) : Parse Stmt := do
  word "let"
  let pat ← g.pat
  let pat ← if ← op? ":" then pure (.typed pat (← g.ty true)) else pure pat
  if ← op? "=" then
    let value ← g.expr true
    if !value.endsWithBrace && (← word? "else") then
      let otherwise ← g.block
      op ";"
      return .bind attrs pat (some value) otherwise true
    else
      op ";"
      return .bind attrs pat (some value) [] false
  else
    op ";"
    return .bind attrs pat none [] false

/-- A statement. -/
def Grammar.stmt (g : Grammar) : Parse Stmt := do
  let start ← ahead id
  let attrs ← g.outerAttrs
  let ts ← ahead id
  if !startsNamedCall ts && startsBraceCall ts then
    let p ← plainPath
    op "!"
    let (d, tokens) ← invocationBody
    return .invocation attrs ⟨p, d, tokens⟩ (← op? ";")
  else if startsWord "let" ts then g.bindStmt attrs
  else if startsItem ts || startsNamedCall ts then
    let _ ← g.itemAfter attrs
    return .item (start.take (start.length - (← remaining)))
  else
    let e := (← g.statementExpr).attach attrs
    let semi ← op? ";"
    match e with
    | .invocation call => return called [] call semi e
    | .attributed attrs (.invocation call) => return called attrs call semi e
    | e => return .expr e semi
where
  /-- The statement that calls a template. -/
  called (attrs : List Attr) (call : Invocation) (semi : Bool) (e : Expr) : Stmt :=
    if semi || call.delim = .brace then .invocation attrs call semi else .expr e false

/-- Whether a statement without semicolon must be the last one. -/
def Stmt.endsBlock : Stmt → Bool
  | .expr e false => e.needsSemi
  | .invocation _ call false => call.delim ≠ .brace
  | _ => false

/-- The statements up to the end, at most `n` of them. -/
def Grammar.stmtsFrom (g : Grammar) : Nat → Parse (List Stmt)
  | 0 => fail
  | n + 1 => do
    if ← ahead List.isEmpty then return []
    if ← op? ";" then return .empty :: (← g.stmtsFrom n)
    let s ← g.stmt
    if s.endsBlock then
      if ← ahead List.isEmpty then return [s] else fail
    else return s :: (← g.stmtsFrom n)

/-- The inside of a block, which may begin with attributes of the block. -/
def Grammar.readStmts (g : Grammar) (innerAttrs : Bool) : Parse (List Stmt) := do
  let inner ← if innerAttrs then g.innerAttrs else pure []
  let stmts ← g.stmtsFrom ((← remaining) + 1)
  return inner.map .innerAttr ++ stmts

end TypedRoutes.Syntax
