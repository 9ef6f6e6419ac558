import TypedRoutes.Syntax.Literal
import TypedRoutes.Syntax.Tree

/-!
# Reading token lists

* `Parse α` : a reader that takes tokens from the front of a list;
* `startsOp`, `startsWord`, `startsIdent`, … : what stands at the front of a list;
* `op`, `word`, `ident`, `within`, `terminated` : the readers that the grammar is made of;
* `Grammar` : the readers of the nonterminals that refer to each other. A level of the grammar is
  built from the level below it, so that the number of levels bounds the nesting.
-/

namespace TypedRoutes.Syntax

/-- A reader of tokens. -/
abbrev Parse (α : Type) := StateT (List Token) Option α

/-! ## Looking ahead -/

/-- The reserved words, which are no identifiers. -/
def reservedWords : List String :=
  ["abstract", "as", "async", "await", "become", "box", "break", "const", "continue", "crate", "do",
   "dyn", "else", "enum", "extern", "false", "final", "fn", "for", "if", "impl", "in", "let",
   "loop", "macro", "match", "mod", "move", "mut", "override", "priv", "pub", "ref", "return",
   "Self", "self", "static", "struct", "super", "trait", "true", "try", "type", "typeof", "unsafe",
   "unsized", "use", "virtual", "where", "while", "yield"]

def isIdentifier (text : String) : Bool :=
  text ≠ "_" && !reservedWords.contains text

/-- Whether the characters of an operator stand in front, each but the last joined to the next. -/
def startsChars : List Char → List Token → Bool
  | [c], .punct c' _ :: _ => c = c'
  | c :: cs, .punct c' joint :: rest => c = c' && joint && startsChars cs rest
  | _, _ => false

def startsOp (text : String) (ts : List Token) : Bool :=
  startsChars text.toList ts

def startsWord (text : String) : List Token → Bool
  | .ident t :: _ => t = text
  | _ => false

/-- An identifier that is no reserved word. -/
def startsIdent : List Token → Bool
  | .ident t :: _ => isIdentifier t
  | _ => false

/-- An identifier or reserved word. -/
def startsName : List Token → Bool
  | .ident _ :: _ => true
  | _ => false

def startsGroup (d : Delim) : List Token → Bool
  | .group d' _ :: _ => d = d'
  | _ => false

def startsLifetime : List Token → Bool
  | .lifetime _ :: _ => true
  | _ => false

/-- A literal, also one of the two truth values, or a number behind a minus sign. -/
def startsLit : List Token → Bool
  | .literal _ :: _ => true
  | .ident t :: _ => t = "true" || t = "false"
  | .punct '-' _ :: .literal t :: _ => (t.toList.head?.map Char.isDigit).getD false
  | _ => false

/-! ## Readers -/

namespace Parse

variable {α β : Type}

def fail : Parse α :=
  fun _ => none

/-- Decide something about the tokens ahead. -/
def ahead (p : List Token → β) : Parse β :=
  fun ts => some (p ts, ts)

/-- The number of tokens ahead. -/
def remaining : Parse Nat :=
  ahead List.length

/-- Take the characters of an operator. -/
def op (text : String) : Parse Unit :=
  fun ts => if startsOp text ts then some ((), ts.drop text.length) else none

/-- Take an operator if it stands in front. -/
def op? (text : String) : Parse Bool :=
  fun ts => if startsOp text ts then some (true, ts.drop text.length) else some (false, ts)

def word (text : String) : Parse Unit :=
  fun ts => if startsWord text ts then some ((), ts.drop 1) else none

/-- Take a word if it stands in front. -/
def word? (text : String) : Parse Bool :=
  fun ts => if startsWord text ts then some (true, ts.drop 1) else some (false, ts)

/-- An identifier that is no reserved word. -/
def ident : Parse String
  | .ident t :: rest => if isIdentifier t then some (t, rest) else none
  | _ => none

/-- A member: a name, or the number of a tuple's component. -/
def member : Parse String
  | .ident t :: rest => if isIdentifier t then some (t, rest) else none
  | .literal t :: rest => (Literal.index? t).map (·, rest)
  | _ => none

/-- An identifier or reserved word. -/
def name : Parse String
  | .ident t :: rest => some (t, rest)
  | _ => none

def lifetime : Parse String
  | .lifetime t :: rest => some (t, rest)
  | _ => none

def lifetime? : Parse (Option String)
  | .lifetime t :: rest => some (some t, rest)
  | ts => some (none, ts)

def literal : Parse String
  | .literal t :: rest => some (t, rest)
  | .ident t :: rest => if t = "true" ∨ t = "false" then some (t, rest) else none
  | _ => none

/-- A reader that takes all tokens of a list. -/
def all (p : Parse α) (ts : List Token) : Option α :=
  match p ts with
  | some (a, []) => some a
  | _ => none

/-- Read a group's inside to its end. -/
def within (d : Delim) (p : Parse α) : Parse α
  | .group d' inner :: rest => if d = d' then (p.all inner).map (·, rest) else none
  | _ => none

/-- The tokens inside a group. -/
def inside (d : Delim) : Parse (List Token)
  | .group d' inner :: rest => if d = d' then some (inner, rest) else none
  | _ => none

/-- Read as long as the condition on the tokens ahead holds, at most `n` times. -/
def whileAhead (p : List Token → Bool) (item : Parse α) : Nat → Parse (List α)
  | 0 => pure []
  | n + 1 => do
    if ← ahead p then
      let a ← item
      let rest ← whileAhead p item n
      return a :: rest
    else return []

def manyWhile (p : List Token → Bool) (item : Parse α) : Parse (List α) := do
  whileAhead p item (← remaining)

/-- Items with a comma between neighbours up to a stop, at most `n` of them. A comma may follow the
last one; whether it does is returned. -/
def commaUntilFrom (stop : List Token → Bool) (item : Parse α) : Nat → Parse (List α × Bool)
  | 0 => pure ([], false)
  | n + 1 => do
    if ← ahead stop then return ([], false)
    let a ← item
    if ← ahead stop then return ([a], false)
    op ","
    if ← ahead stop then return ([a], true)
    let (rest, comma) ← commaUntilFrom stop item n
    return (a :: rest, comma)

def commaUntil (stop : List Token → Bool) (item : Parse α) : Parse (List α × Bool) := do
  commaUntilFrom stop item ((← remaining) + 1)

/-- Items with a comma between neighbours up to the end. -/
def terminated (item : Parse α) : Parse (List α) := do
  return (← commaUntil List.isEmpty item).1

/-- The tokens that a reader takes. -/
def taking (p : Parse α) : Parse (List Token) :=
  fun ts => (p ts).map fun (_, rest) => (ts.take (ts.length - rest.length), rest)

/-- Fail unless a condition on the tokens ahead holds. -/
def expect (p : List Token → Bool) : Parse Unit :=
  fun ts => if p ts then some ((), ts) else none

/-- Items with a plus sign between neighbours, as long as `more` holds in front of each; at most `n`
of them. A plus sign may follow the last one. -/
def plusWhileFrom (more : List Token → Bool) (item : Parse α) : Nat → Parse (List α)
  | 0 => pure []
  | n + 1 => do
    if ← ahead more then
      let a ← item
      if ← op? "+" then return a :: (← plusWhileFrom more item n) else return [a]
    else return []

def plusWhile (more : List Token → Bool) (item : Parse α) : Parse (List α) := do
  plusWhileFrom more item ((← remaining) + 1)

/-- Read if a condition on the tokens ahead holds. -/
def whenAhead (p : List Token → Bool) (item : Parse α) : Parse (Option α) := do
  if ← ahead p then return some (← item) else return none

end Parse

/-! ## Precedence -/

/-- How tightly an operator binds. -/
inductive Prec
  | lowest
  | assign
  | range
  | or
  | and
  | bind
  | compare
  | bitOr
  | bitXor
  | bitAnd
  | shift
  | sum
  | product
  | cast
  /-- An operator in front of its operand. -/
  | unary
  /-- What has no operator outside of delimiters. -/
  | atomic
  deriving DecidableEq, Repr

def Prec.rank : Prec → Nat
  | lowest => 0
  | assign => 1
  | range => 2
  | or => 3
  | and => 4
  | bind => 5
  | compare => 6
  | bitOr => 7
  | bitXor => 8
  | bitAnd => 9
  | shift => 10
  | sum => 11
  | product => 12
  | cast => 13
  | unary => 14
  | atomic => 15

/-! ## The grammar's nonterminals -/

/-- What bounds may stand in a place: those that hold in constant code, and captures. -/
structure BoundRules where
  constant : Bool
  capture : Bool
  deriving DecidableEq, Repr

/-- The readers that refer to each other. An expression is read with the knowledge whether a record
may begin in it: not where a block follows. A type is read with the knowledge whether further bounds
may follow a trait. -/
structure Grammar where
  expr : Bool → Parse Expr
  unary : Bool → Parse Expr
  operand : Bool → Prec → Parse Expr
  statementExpr : Parse Expr
  ty : Bool → Parse Ty
  bound : BoundRules → Parse Bound
  param : Parse GenericParam
  pat : Parse Pat
  pats : Parse Pat
  stmts : Bool → Parse (List Stmt)
  item : Parse Item

/-- The grammar without a level: it reads nothing. -/
def Grammar.empty : Grammar where
  expr _ := Parse.fail
  unary _ := Parse.fail
  operand _ _ := Parse.fail
  statementExpr := Parse.fail
  ty _ := Parse.fail
  bound _ := Parse.fail
  param := Parse.fail
  pat := Parse.fail
  pats := Parse.fail
  stmts _ := Parse.fail
  item := Parse.fail

end TypedRoutes.Syntax
