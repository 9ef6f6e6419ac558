/-!
# Tokens of emitted code

* `Token` : an identifier or keyword, a lifetime, a literal, a punctuation character, or a group in
  delimiters;
* `Lexeme` : a token or a single delimiter, the pieces that text is cut into;
* `Lexeme.nest` : the groups of a lexeme list; `Token.flatten` : the lexemes of a token list.

A punctuation character knows whether another one follows it directly, since that decides which
operators it can be part of.
-/

namespace TypedRoutes.Syntax

inductive Delim
  | paren
  | bracket
  | brace
  deriving DecidableEq, Repr, Inhabited

def Delim.opening : Delim → String
  | .paren => "("
  | .bracket => "["
  | .brace => "\x7b"

def Delim.closing : Delim → String
  | .paren => ")"
  | .bracket => "]"
  | .brace => "\x7d"

inductive Token
  | ident (text : String)
  | lifetime (text : String)
  | literal (text : String)
  | punct (c : Char) (joint : Bool)
  | group (d : Delim) (inner : List Token)
  deriving Inhabited

inductive Lexeme
  | leaf (t : Token)
  | opening (d : Delim)
  | closing (d : Delim)
  deriving Inhabited

/-! ## Grouping -/

/-- Group lexemes. `done` holds the tokens read in the innermost open group, last first, and `outer`
the groups around it with the tokens before each. -/
def Lexeme.nestFrom (done : List Token) (outer : List (Delim × List Token)) :
    List Lexeme → Option (List Token)
  | [] => if outer.isEmpty then some done.reverse else none
  | .leaf t :: rest => nestFrom (t :: done) outer rest
  | .opening d :: rest => nestFrom [] ((d, done) :: outer) rest
  | .closing d :: rest =>
    match outer with
    | (d', before) :: outer =>
      if d = d' then nestFrom (.group d done.reverse :: before) outer rest else none
    | [] => none

/-- The token list with the given lexemes, if every delimiter has its partner. -/
def Lexeme.nest (ls : List Lexeme) : Option (List Token) :=
  nestFrom [] [] ls

mutual

/-- The lexemes of one token. -/
def Token.lexemes : Token → List Lexeme
  | .group d inner => .opening d :: (Token.flatten inner ++ [.closing d])
  | t => [.leaf t]

/-- The lexemes of a token list. -/
def Token.flatten : List Token → List Lexeme
  | [] => []
  | t :: rest => t.lexemes ++ Token.flatten rest

end

mutual

/-- The number of tokens in a token, itself included. -/
def Token.count : Token → Nat
  | .group _ inner => Token.countAll inner + 1
  | _ => 1

/-- The number of tokens in a list, those inside groups included. -/
def Token.countAll : List Token → Nat
  | [] => 0
  | t :: rest => t.count + Token.countAll rest

end

/-! ## Building tokens -/

namespace Tokens

/-- The tokens of one operator: every character but the last is joint. -/
def operatorTokens : List Char → List Token
  | [] => []
  | [c] => [.punct c false]
  | c :: rest => .punct c true :: operatorTokens rest

/-- The tokens of one operator. -/
def op (text : String) : List Token :=
  operatorTokens text.toList

/-- A single identifier or keyword. -/
def word (text : String) : List Token :=
  [.ident text]

def parens (inner : List Token) : List Token :=
  [.group .paren inner]

def brackets (inner : List Token) : List Token :=
  [.group .bracket inner]

def braces (inner : List Token) : List Token :=
  [.group .brace inner]

/-- Token lists with a comma between neighbours. -/
def commaSeparated (items : List (List Token)) : List Token :=
  (op ",").intercalate items

end Tokens

end TypedRoutes.Syntax
