import TypedRoutes.Syntax.Parser.Statement
import TypedRoutes.Syntax.Lexer

/-!
# Reading whole texts

* `grammar` : the levels of the grammar;
* `exprOf?`, `itemOf?`, `itemsOf?` : a token list as an expression, an item or a list of items;
* `parseExpr`, `parsePath`, `parseIdent` : a whole text as an expression, a path or an identifier.
-/

namespace TypedRoutes.Syntax

open Parse

/-- The next level of the grammar. -/
def Grammar.next (g : Grammar) : Grammar where
  expr := g.readExpr
  unary := g.readUnary
  operand := g.readOperand
  statementExpr := g.readStatementExpr
  ty := g.readTy
  bound := g.readBound
  param := g.readParam
  pat := g.readPat
  pats := g.readPats
  stmts := g.readStmts
  item := g.readItem

/-- The grammar with `n` levels. -/
def grammar : Nat → Grammar
  | 0 => .empty
  | n + 1 => (grammar n).next

/-- Enough levels for a token list: at most two of them follow each other without taking a token. -/
def levels (ts : List Token) : Nat :=
  2 * Token.countAll ts + 4

/-! ## Token lists -/

def exprOf? (ts : List Token) : Option Expr :=
  ((grammar (levels ts)).expr true).all ts

def itemOf? (ts : List Token) : Option Item :=
  (grammar (levels ts)).item.all ts

/-- A token list as items, behind attributes of all of them. -/
def itemsOf? (ts : List Token) : Option (List Item) :=
  (do
    let g := grammar (levels ts)
    let inner ← g.innerAttrs
    let items ← manyWhile (fun ts => !ts.isEmpty) g.item
    return inner.map .innerAttr ++ items : Parse (List Item)).all ts

/-! ## Texts -/

/-- A whole text as an expression. -/
def parseExpr (text : String) : Option Expr := do
  exprOf? (← lex text)

/-- A whole text as a path, as it stands in a type. -/
def parsePath (text : String) : Option Path := do
  let ts ← lex text
  ((grammar (levels ts)).barePath false).all ts

/-- A whole text as an identifier. -/
def parseIdent (text : String) : Option String := do
  ident.all (← lex text)

end TypedRoutes.Syntax
