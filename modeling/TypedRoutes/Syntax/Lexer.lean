import TypedRoutes.Syntax.Literal
import TypedRoutes.Syntax.Token
import TypedRoutes.Text.Quoted

/-!
# Lexer

* `skipBlank` : what follows white space and plain comments;
* `docComment` : a documentation comment, which stands for an attribute;
* `leaf` : one token that is no group;
* `lex` : the tokens of a text, or `none` when the text cannot be cut into tokens or its delimiters
  do not match.
-/

namespace TypedRoutes.Syntax

open Text (isIdentStart isIdentContinue)
open Literal (afterLiteral errorMark)

/-! ## White space and comments -/

/-- The characters of the Unicode property `White_Space`, and the two marks of writing direction. -/
def isBlank (c : Char) : Bool :=
  let n := c.toNat
  n == 0x20 || (0x9 ≤ n && n ≤ 0xd) || n == 0x85 || n == 0xa0 || n == 0x1680 ||
    (0x2000 ≤ n && n ≤ 0x200a) || n == 0x2028 || n == 0x2029 || n == 0x202f || n == 0x205f ||
    n == 0x3000 || n == 0x200e || n == 0x200f

/-- What follows the end of a block comment in which `depth` further comments are open. -/
def afterBlockComment : Nat → List Char → Option (List Char)
  | _, [] => none
  | depth, '*' :: '/' :: rest =>
    match depth with
    | 0 => some rest
    | d + 1 => afterBlockComment d rest
  | depth, '/' :: '*' :: rest => afterBlockComment (depth + 1) rest
  | depth, _ :: rest => afterBlockComment depth rest

/-- The end of a line, without its line end. -/
def afterLine (cs : List Char) : List Char :=
  cs.dropWhile (· ≠ '\n')

/-- Whether a comment starts that documents what stands next to it. -/
def startsDoc : List Char → Bool
  | '/' :: '/' :: '!' :: _ => true
  | '/' :: '/' :: '/' :: '/' :: _ => false
  | '/' :: '/' :: '/' :: _ => true
  | '/' :: '*' :: '!' :: _ => true
  | '/' :: '*' :: '*' :: '/' :: _ => false
  | '/' :: '*' :: '*' :: '*' :: _ => false
  | '/' :: '*' :: '*' :: _ => true
  | _ => false

/-- What follows white space and plain comments. At most as many are skipped as the number says. -/
def skipBlank : Nat → List Char → List Char
  | 0, cs => cs
  | _, [] => []
  | n + 1, c :: rest =>
    if c = '/' ∧ !startsDoc (c :: rest) then
      match rest with
      | '/' :: rest => skipBlank n (afterLine rest)
      | '*' :: rest' =>
        match afterBlockComment 0 rest' with
        | some rest' => skipBlank n rest'
        | none => c :: rest
      | _ => c :: rest
    else if isBlank c then skipBlank n rest
    else c :: rest

/-! ## Documentation comments -/

/-- The first part of `cs`, up to where `rest`, a suffix of it, begins. -/
def upTo (cs rest : List Char) : List Char :=
  cs.take (cs.length - rest.length)

/-- A line of text without the carriage return at its end. -/
def chomp (cs : List Char) : List Char :=
  if cs.getLast? = some '\r' then cs.dropLast else cs

/-- Whether every carriage return stands before a line end. -/
def lineEndsPaired : List Char → Bool
  | '\r' :: '\n' :: rest => lineEndsPaired rest
  | '\r' :: _ => false
  | _ :: rest => lineEndsPaired rest
  | [] => true

/-- The attribute that a documentation comment stands for. -/
def docAttribute (inner : Bool) (text : List Char) : List Lexeme :=
  [.leaf (.punct '#' false)] ++ (if inner then [.leaf (.punct '!' false)] else []) ++
    [.opening .bracket, .leaf (.ident "doc"), .leaf (.punct '=' false),
      .leaf (.literal (Text.Quoted.encode (String.ofList text))), .closing .bracket]

/-- A documentation comment and what follows it. -/
def docComment (cs : List Char) : Option (List Lexeme × List Char) := do
  guard (startsDoc cs)
  let inner := cs[2]? == some '!'
  let body := cs.drop 3
  let (text, rest) ←
    if cs[1]? == some '/' then
      let rest := afterLine body
      pure (if rest.isEmpty then upTo body rest else chomp (upTo body rest), rest)
    else do
      let rest ← afterBlockComment 0 body
      pure (body.take (body.length - rest.length - 2), rest)
  guard (lineEndsPaired text)
  return (docAttribute inner text, rest)

/-! ## Tokens -/

def isPunct (c : Char) : Bool :=
  c ∈ "~!@#$%^&*-=+|;:,<.>/?'".toList

/-- Whether a punctuation character stands here, as opposed to a comment. -/
def startsPunct : List Char → Bool
  | '/' :: '/' :: _ => false
  | '/' :: '*' :: _ => false
  | c :: _ => isPunct c
  | [] => false

/-- An identifier without raw marker, and what follows it. -/
def plainIdent : List Char → Option (List Char × List Char)
  | c :: rest =>
    if isIdentStart c then
      some (c :: rest.takeWhile isIdentContinue, rest.dropWhile isIdentContinue)
    else none
  | [] => none

/-- An identifier, which may carry the raw marker, and what follows it. -/
def anyIdent : List Char → Option (List Char × List Char)
  | 'r' :: '#' :: rest => do
    let (name, rest) ← plainIdent rest
    if String.ofList name ∈ ["_", "super", "self", "Self", "crate"] then none
    else some ('r' :: '#' :: name, rest)
  | cs => plainIdent cs

/-- Whether the text begins like a literal that an identifier would cut in two. -/
def startsLiteral (cs : List Char) : Bool :=
  ["r\"", "r#\"", "r##", "b\"", "b'", "br\"", "br#", "c\"", "cr\"", "cr#"].any
    fun p => p.toList.isPrefixOf cs

/-- A lifetime, from behind its apostrophe on. In front of a literal that begins like a name the
apostrophe stands alone, joined to the literal. -/
def lifetime (rest : List Char) : Option (Token × List Char) := do
  let (name, after) ← anyIdent rest
  if after.head? = some '\'' ∨ after.head? = some '#' ∧ ¬['r', '#'].isPrefixOf rest then none
  else if startsLiteral rest then some (.punct '\'' true, rest)
  else some (.lifetime (String.ofList ('\'' :: name)), after)

/-- One token that is no group, and what follows it. -/
def leaf (cs : List Char) : Option (Token × List Char) :=
  match afterLiteral cs with
  | some rest => some (.literal (String.ofList (upTo cs rest)), rest)
  | none =>
    match cs with
    | [] => none
    | c :: rest =>
      if startsPunct cs then
        if c = '\'' then lifetime rest else some (.punct c (startsPunct rest), rest)
      else if errorMark.isPrefixOf cs then
        some (.literal (String.ofList errorMark), cs.drop errorMark.length)
      else if startsLiteral cs then none
      else (anyIdent cs).map fun (name, rest) => (.ident (String.ofList name), rest)

def opens? : Char → Option Delim
  | '(' => some .paren
  | '[' => some .bracket
  | '{' => some .brace
  | _ => none

def closes? : Char → Option Delim
  | ')' => some .paren
  | ']' => some .bracket
  | '}' => some .brace
  | _ => none

/-- The lexemes of a text, cut in at most `n` steps. -/
def lexemesFrom : Nat → List Char → Option (List Lexeme)
  | 0, _ => none
  | n + 1, cs =>
    match skipBlank n cs with
    | [] => some []
    | c :: rest =>
      match docComment (c :: rest) with
      | some (ls, rest) => (lexemesFrom n rest).map (ls ++ ·)
      | none =>
        match (if errorMark.isPrefixOf (c :: rest) then none else opens? c), closes? c with
        | some d, _ => (lexemesFrom n rest).map (.opening d :: ·)
        | _, some d => (lexemesFrom n rest).map (.closing d :: ·)
        | none, none => do
          let (t, rest) ← leaf (c :: rest)
          let ls ← lexemesFrom n rest
          return .leaf t :: ls

/-- The tokens of a text. A byte order mark at its start is no part of it. -/
def lex (text : String) : Option (List Token) := do
  let cs := match text.toList with
    | '\ufeff' :: rest => rest
    | cs => cs
  let ls ← lexemesFrom (cs.length + 1) cs
  Lexeme.nest ls

end TypedRoutes.Syntax
