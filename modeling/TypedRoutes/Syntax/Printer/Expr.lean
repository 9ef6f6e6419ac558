import TypedRoutes.Syntax.Grouping
import TypedRoutes.Syntax.Printer.Pattern

/-!
# Writing expressions

* `Expr.docs` : an expression, as it is written where it stands;
* `Stmt.docsEach` : the statements of a block, each with a line end behind it;
* `bodyDocs` : statements in braces that begin lines of their own;
* `Style.value`, `Style.stmts` : an expression and statements as parts of items.

Members applied one after the other form a chain, which breaks before each dot. The body of a
selection's arm or of a closure gets braces where it begins a line of its own.

In a lexical document every arm ends with a comma, and statements end with a semicolon just where
they were read with one.
-/

namespace TypedRoutes.Syntax

open Layout

/-! ## Kinds of expressions -/

/-- A name so short that its first member stays in its line. -/
def Expr.isShortName : Expr → Bool
  | .path (.mk none _ false [.plain name]) => name.utf8ByteSize ≤ 4
  | _ => false

/-- Whether a single argument of this kind is written without line ends around it. -/
def Expr.isBlocklike : Expr → Bool
  | .array _ | .block .. | .closure .. | .record .. | .tuple _ | .keywordBlock .. => true
  | _ => false

/-- Whether an expression can be part of a chain. -/
def Expr.isChained : Expr → Bool
  | .await _ | .call .. | .field .. | .index .. | .methodCall .. | .propagate _ => true
  | _ => false

/-- Whether the brace behind an expression begins a line when the expression is broken. -/
def Expr.breaksBeforeBrace : Expr → Bool
  | .assign .. | .await _ | .binary .. | .cast .. | .field .. | .index .. | .methodCall .. => true
  | .jump _ _ (some e) => e.breaksBeforeBrace
  | .attributed _ e => e.breaksBeforeBrace
  | .call e _ => e.breaksBeforeBrace
  | .bind _ e => e.breaksBeforeBrace
  | .paren e => e.breaksBeforeBrace
  | .range _ _ (some e) => e.breaksBeforeBrace
  | .reference _ e => e.breaksBeforeBrace
  | .address _ e => e.breaksBeforeBrace
  | .propagate e => e.breaksBeforeBrace
  | .unary _ e => e.breaksBeforeBrace
  | _ => false

/-- Whether an expression reads as the same expression where a statement begins. -/
def Expr.beginsStmt : Expr → Bool
  | .attributed _ e => e.beginsStmt
  | .await e => e.beginsStmt
  | .field e _ => e.beginsStmt
  | .methodCall e _ _ _ => e.beginsStmt
  | .propagate e => e.beginsStmt
  | .assign l _ => l.needsSemi && l.beginsStmt
  | .binary l _ _ => l.needsSemi && l.beginsStmt
  | .call e _ => e.needsSemi && e.beginsStmt
  | .cast e _ => e.needsSemi && e.beginsStmt
  | .index e _ => e.needsSemi && e.beginsStmt
  | .range (some e) _ _ => e.needsSemi && e.beginsStmt
  | .bind .. => false
  | _ => true

/-- Whether a semicolon is put behind an expression that ends a block. -/
def Expr.takesSemi (e : Expr) : Bool :=
  match e.bare with
  | .assign .. => true
  | .binary _ o _ => o.endsWith "=" && !(["==", "!=", "<=", ">="].contains o)
  | .jump .. => true
  | _ => false

/-- Whether the semicolon behind an expression is dropped. -/
def Expr.dropsSemi : Expr → Bool
  | .attributed _ e => e.dropsSemi
  | .forLoop .. => true
  | .whileLoop .. => true
  | .cond _ _ none => true
  | .cond _ _ (some e) => e.dropsSemi
  | _ => false

/-- A literal that takes little space: a whole number, a character or a truth value. -/
def isSmallLiteral (t : String) : Bool :=
  match t.toList with
  | '\'' :: _ => true
  | 'b' :: '\'' :: _ => true
  | _ => t = "true" || t = "false" || Literal.isInteger t

/-- Whether the items of an array share lines. -/
def Expr.isSmall (e : Expr) : Bool :=
  match e.bare with
  | .literal t => isSmallLiteral t
  | _ => false

/-! ## Places -/

/-- Where an expression stands. -/
inductive ExprPlace
  /-- Inside something else. -/
  | inner
  /-- At the beginning of a statement. -/
  | lineStart
  /-- In front of a member; the whole chain may be at the beginning of a statement. -/
  | chain (lineStart : Bool)
  | armBody
  | closureBody
  | elseBranch
  deriving DecidableEq, Repr

namespace ExprPlace

/-- Whether what is written here is at the beginning of a statement. -/
def atLine : ExprPlace → Bool
  | .lineStart => true
  | .armBody => true
  | .chain b => b
  | _ => false

/-- The place of the function in a call that stands here. It is at the beginning of no statement. -/
def callee : ExprPlace → ExprPlace
  | .chain _ => .chain false
  | _ => .inner

/-- The place of what an index or a question mark is put to here. -/
def base : ExprPlace → ExprPlace
  | .chain b => .chain b
  | p => if p.atLine then .lineStart else .inner

/-- A chain of members. Only the outermost one is a group. -/
def link (p : ExprPlace) (inner : Docs) : Docs :=
  match p with
  | .chain _ => inner
  | _ => cbox step inner

/-- A body that is put in braces where it is broken. -/
def braced (opening : String) (semi : Bool) (closing noBreak : String) (inner : Docs) : Docs :=
  cbox step (brk { preBreak := opening } ++ inner ++
    brk { offset := -step, preBreak := if semi then ";" else "", postBreak := closing, noBreak })

/-- What stands around an expression in its place. -/
def frame (s : Style) (p : ExprPlace) (e : Expr) (inner : Docs) : Docs :=
  let bare := e.beginsStmt
  let opening := if bare then "\x7b" else "("
  let semi := bare && e.takesSemi
  match p with
  | .chain _ => if e.isChained then inner else cbox (-step) inner
  | .armBody =>
    if s.lexical then inner ++ text ","
    else never ++ braced opening semi (if bare then "\x7d" else "),")
      (if e.endsArm then "" else ",") inner
  | .closureBody =>
    match e with
    | .select .. | .call .. => inner
    | _ =>
      if e.isBlocklike then inner else braced opening semi (if bare then "\x7d" else ")") "" inner
  | _ => inner

end ExprPlace

/-! ## Parts of expressions -/

/-- The line may end before a member unless it is the first one of a short name. -/
def beforeMember (lineStart : Bool) (receiver : Expr) : Docs :=
  if lineStart && receiver.isShortName then [] else zero

/-- The arguments of a call in parentheses. -/
def argDocs (args : List Expr) (docs : List Docs) : Docs :=
  match args, docs with
  | [a], [d] =>
    if a.isBlocklike then text "(" ++ d ++ text ")" else enclosed "(" (commaDocs [d]) ")"
  | _, _ => enclosed "(" (commaDocs docs) ")"

/-- What a condition or a value to be matched is followed by, the brace behind it not included. -/
def conditionDocs (e : Expr) (docs : Docs) : Docs :=
  cbox 0 (docs ++ if e.breaksBeforeBrace then space else nbsp)

/-- Statements in braces that begin lines of their own. -/
def bodyDocs (stmts : Docs) : Docs :=
  text "\x7b" ++ never ++ cbox step (outdent (hardIfNonempty ++ stmts)) ++ text "\x7d"

/-- Statements in braces that stay in the line if they fit. -/
def smallBlock (stmts : List Stmt) (docs : Docs) : Docs :=
  text "\x7b" ++ (if stmts.isEmpty then [] else outdent (space ++ docs)) ++ text "\x7d"

def labelDocs : Option String → Docs
  | none => []
  | some l => text (l ++ ": ")

/-- The items of an array in brackets. -/
def arrayDocs (items : List Expr) (docs : List Docs) : Docs :=
  if items.isEmpty then text "[]"
  else if items.all Expr.isSmall then
    cbox step (outdent (text "[" ++ zero ++
      ibox 0 ((withLast docs).flatMap fun (d, isLast) =>
        d ++ if isLast then [] else text "," ++ space) ++
      trailingComma true) ++ text "]")
  else enclosed "[" (commaDocs docs) "]"

/-- The inputs of a closure between bars. -/
def closureInputs (s : Style) (inputs : List Pat) : Docs :=
  (if inputs.isEmpty then [] else zero) ++
    separated (text "," ++ space) (Pat.docsEach s inputs)

/-- Everything of a closure in front of its body. -/
def closureHead (s : Style) (binder : Binder) (qualifiers : List String)
    (inputs : List Pat) (output : Option Ty) : Docs :=
  binderDocs s binder ++ qualifiers.flatMap (wordIf true) ++
    match output with
    | none =>
      cbox step (outdent (text "|" ++ closureInputs s inputs ++ text "|" ++ space)) ++ never
    | some ty =>
      cbox step ((if inputs.isEmpty then text "|"
        else outdent (text "|" ++ closureInputs s inputs ++ trailingComma true)) ++ text "|") ++
        text " -> " ++ ty.docs s ++ nbsp ++ never

/-- A member, behind what it belongs to. -/
def memberDocs (lineStart : Bool) (receiver : Expr) (docs : Docs) (member : String) : Docs :=
  docs ++ beforeMember lineStart receiver ++ dotGap docs ++ text ("." ++ member)

/-! ## Expressions and statements -/

mutual

/-- An expression where it stands. -/
def Expr.docs (s : Style) (place : ExprPlace) (e : Expr) : Docs :=
  match place, e with
  | .armBody, .block none [.expr e false] => e.docs s .armBody
  | .armBody, .tuple [] => text "\x7b\x7d" ++ if s.lexical then text "," else []
  | .armBody, .block label stmts | .armBody, .attributed _ (.block label stmts) =>
    labelDocs label ++ bodyDocs (Stmt.docsEach s false stmts) ++
      if s.lexical then text "," else []
  | .closureBody, .block none [.expr e false] =>
    cbox step (smallBlock [.expr e false] (ibox 0 (e.docs s .lineStart) ++ space))
  | .elseBranch, .block _ stmts => smallBlock stmts (Stmt.docsEach s true stmts)
  | .elseBranch, .cond test thenBody otherwise =>
    text "if " ++ cbox (-step) (conditionDocs test (test.docs s .inner)) ++
      smallBlock thenBody (Stmt.docsEach s true thenBody) ++
      (match otherwise with
        | some e => text " else " ++ e.docs s .elseBranch
        | none => [])
  | _, .literal t => place.frame s e (text t)
  | _, .path p => place.frame s e (p.docs s .expr)
  | _, .invocation call => place.frame s e (call.docs s)
  | _, .array items => place.frame s e (arrayDocs items (Expr.docsEach s items))
  | _, .repeated item length =>
    place.frame s e
      (text "[" ++ item.docs s .inner ++ text "; " ++ length.docs s .inner ++ text "]")
  | _, .tuple items => place.frame s e (enclosed "(" (tupleDocs (Expr.docsEach s items)) ")")
  | _, .paren inner => place.frame s e (text "(" ++ inner.docs s .inner ++ text ")")
  | _, .record p fields base =>
    let rest :=
      match base with
      | some b => text ".." ++ b.docs s .inner ++ space
      | none => []
    place.frame s e
      (boxAtMost 34 step (outdent (ibox (-step) (p.docs s .expr) ++ text " \x7b" ++
        recordDocs (FieldValue.docsEach s fields) rest)) ++ text "\x7d")
  | _, .call callee args =>
    place.frame s e (callee.docs s place.callee ++ argDocs args (Expr.docsEach s args))
  | _, .methodCall receiver method turbofish args =>
    let generics :=
      match turbofish with
      | some gs => angleDocs .expr (GenericArg.docsEach s gs)
      | none => []
    let unindent := place.atLine && !(place matches .chain _) && receiver.isShortName
    place.frame s e (place.link
      (memberDocs place.atLine receiver (receiver.docs s (.chain place.atLine)) method ++
        generics ++ cbox (if unindent then -step else 0) (argDocs args (Expr.docsEach s args))))
  | _, .field base member =>
    place.frame s e (place.link
      (memberDocs place.atLine base (base.docs s (.chain place.atLine)) member))
  | _, .index base position =>
    place.frame s e (base.docs s place.base ++ text "[" ++ position.docs s .inner ++ text "]")
  | _, .propagate base => place.frame s e (base.docs s place.base ++ text "?")
  | _, .await base =>
    place.frame s e (place.link
      (memberDocs place.atLine base (base.docs s (.chain place.atLine)) "await"))
  | _, .unary op operand => place.frame s e (text op.toString ++ operand.docs s .inner)
  | _, .reference isMut operand =>
    place.frame s e (text (if isMut then "&mut " else "&") ++ operand.docs s .inner)
  | _, .address isMut operand =>
    place.frame s e (text (if isMut then "&raw mut " else "&raw const ") ++ operand.docs s .inner)
  | _, .binary left op right =>
    place.frame s e (ibox step (ibox (-step) (left.docs s .inner) ++ space ++
      text (op ++ " ") ++ right.docs s .inner))
  | _, .assign left right =>
    place.frame s e (ibox 0 (left.docs s .inner ++ text " = " ++ never ++ right.docs s .inner))
  | _, .cast operand ty =>
    place.frame s e (ibox step (ibox (-step) (operand.docs s .inner) ++ space ++
      text "as " ++ ty.docs s))
  | _, .range start closed stop =>
    place.frame s e
      (rangeDocs (match start with | some e => e.docs s .inner | none => []) closed
        (match stop with | some e => e.docs s .inner | none => []))
  | _, .block label body =>
    place.frame s e (labelDocs label ++ cbox step (smallBlock body (Stmt.docsEach s true body)))
  | _, .keywordBlock keywords body =>
    place.frame s e
      (keywords.flatMap (wordIf true) ++ cbox step (smallBlock body (Stmt.docsEach s true body)))
  | _, .cond test thenBody otherwise =>
    place.frame s e (cbox step (text "if " ++
      cbox (-step) (conditionDocs test (test.docs s .inner)) ++
      (match otherwise with
        | some e => smallBlock thenBody (Stmt.docsEach s true thenBody) ++ text " else " ++
          e.docs s .elseBranch
        | none =>
          if thenBody.isEmpty then text "\x7b\x7d"
          else text "\x7b" ++ outdent (hard ++ Stmt.docsEach s false thenBody) ++ text "\x7d")))
  | _, .whileLoop label test body =>
    place.frame s e (ibox 0 (labelDocs label ++ text "while " ++
      conditionDocs test (test.docs s .inner) ++ bodyDocs (Stmt.docsEach s false body)))
  | _, .endless label body =>
    place.frame s e (ibox 0 (labelDocs label ++ text "loop " ++
      bodyDocs (Stmt.docsEach s false body)))
  | _, .forLoop label pat source body =>
    place.frame s e (ibox 0 (labelDocs label ++ text "for " ++ pat.docs s ++ text " in " ++
      never ++ conditionDocs source (source.docs s .inner) ++
      bodyDocs (Stmt.docsEach s false body)))
  | _, .select scrutinee innerAttrs arms =>
    place.frame s e (ibox 0 (text "match " ++
      conditionDocs scrutinee (scrutinee.docs s .inner) ++
      bodyDocs (attrDocs s innerAttrs ++ Arm.docsEach s arms)))
  | _, .closure binder qualifiers inputs output body =>
    place.frame s e (ibox 0 (closureHead s binder qualifiers inputs output ++
      body.docs s (if output.isSome then .inner else .closureBody)))
  | _, .bind pat value =>
    place.frame s e (ibox 0 (text "let " ++ pat.docs s ++ text " = " ++ never ++
      value.docs s .inner))
  | _, .jump keyword label operand =>
    place.frame s e (text keyword ++
      (match label with | some l => text (" " ++ l) | none => []) ++
      (match operand with | some e => nbsp ++ e.docs s .inner | none => []))
  | _, .infer => place.frame s e (text "_")
  | _, .attributed attrs inner =>
    place.frame s e (attrDocs s attrs ++
      inner.docs s (if place.atLine then .lineStart else .inner))
  | _, .unwritable _ => missing

def Expr.docsEach (s : Style) : List Expr → List Docs
  | [] => []
  | e :: rest => e.docs s .inner :: Expr.docsEach s rest

def FieldValue.docs (s : Style) : FieldValue → Docs
  | .mk attrs member value =>
    attrDocs s attrs ++ text member ++
      (match value with
        | some e => text ": " ++ ibox 0 (e.docs s .inner)
        | none => [])

def FieldValue.docsEach (s : Style) : List FieldValue → List Docs
  | [] => []
  | f :: rest => f.docs s :: FieldValue.docsEach s rest

/-- An arm of a selection. -/
def Arm.docs (s : Style) : Arm → Docs
  | .mk attrs pat guard body =>
    attrDocs s attrs ++ ibox 0 (pat.docs s ++
      (match guard with | some e => text " if " ++ e.docs s .inner | none => []) ++
      text " => " ++ body.docs s .armBody)

/-- Arms with a line end behind each. -/
def Arm.docsEach (s : Style) : List Arm → Docs
  | [] => []
  | a :: rest => a.docs s ++ hard ++ Arm.docsEach s rest

/-- A statement and the line end behind it. An expression that is `alone` in a small block may share
its line with the braces. -/
def Stmt.docs (s : Style) (isLast alone : Bool) : Stmt → Docs
  | .bind attrs pat value otherwise hasOtherwise =>
    attrDocs s attrs ++ ibox 0 (text "let " ++ pat.docs s ++
      (match value with | some e => text " = " ++ never ++ e.docs s .inner | none => []) ++
      (if hasOtherwise then space ++ text "else " else [])) ++
      (if hasOtherwise then
        never ++ cbox step (smallBlock otherwise (Stmt.docsEach s true otherwise))
        else []) ++
      text ";" ++ hard
  | .item tokens => s.item tokens
  | .expr e semi =>
    let closing :=
      if s.lexical then semi else if semi then !e.dropsSemi else !alone && e.takesSemi
    ibox 0 (e.docs s .lineStart ++ if closing then text ";" else []) ++
      if alone && !semi then space else hard
  | .invocation attrs call semi =>
    attrDocs s attrs ++ call.docs s ++
      (if semi || (!isLast && call.delim ≠ .brace) then text ";" else []) ++ hard
  | .empty => if s.lexical then text ";" else []
  | .innerAttr attr => attr.docs s

/-- Statements with a line end behind each, perhaps those of a small block. -/
def Stmt.docsEach (s : Style) (small : Bool) : List Stmt → Docs
  | [] => []
  | .innerAttr attr :: rest => attr.docs s ++ Stmt.docsEach s small rest
  | a :: rest => a.docs s rest.isEmpty (small && rest.isEmpty) ++ Stmt.docsEach s false rest

end

/-- An expression that stands alone, with the parentheses it needs. -/
def Style.value (s : Style) (e : Expr) : Docs :=
  (e.grouped s.unwraps .free).docs s .inner

/-- The statements of a body, with the parentheses they need. -/
def Style.stmts (s : Style) (stmts : List Stmt) : Docs :=
  Stmt.docsEach s false (Stmt.groupedEach s.unwraps stmts)

end TypedRoutes.Syntax
