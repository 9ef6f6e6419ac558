import TypedRoutes.Layout.Doc
import TypedRoutes.Syntax.Literal
import TypedRoutes.Syntax.Tree

/-!
# Writing tokens, invocations and attributes

* `Token.docs`, `tokenDocs` : a token, and a list of them with spaces where they read well;
* `Invocation.docs` : a call of a code template;
* `ruleDocs` : the rules of a code template;
* `Style` : how code that is kept as tokens is written;
* `Attr.docs` : an attribute with the line end behind it. Documentation and remarks are comments.

What a space depends on is the token before, of which `Before` keeps just enough.
-/

namespace TypedRoutes.Syntax

open Layout

/-! ## Styles -/

/-- How code is written. A lexical document is laid out in one line for its lexemes alone: comments
do not stand for attributes, and what is kept as tokens has the same tokens again. -/
structure Style where
  lexical : Bool
  /-- A closure whose body is a block around one expression goes without the block. -/
  unwraps : Bool
  /-- An expression that is kept as tokens. -/
  expr : List Token → Docs
  /-- An item that is kept as tokens. -/
  item : List Token → Docs
  deriving Inhabited

/-! ## Spaces between tokens -/

/-- What stands before a token. -/
inductive Before
  | dollar
  /-- The name that a dollar sign and `crate` stand for. -/
  | dollarCrate
  /-- A variable in a pattern of tokens, without and with the colon behind it. -/
  | variableName
  | variableColon
  /-- A repetition in a pattern of tokens, without and with its separator. -/
  | repetition
  | separator
  | pound
  | poundBang
  | dot
  | colon
  | colon2
  | word
  | wordBang
  | group
  | other
  deriving DecidableEq, Repr

/-- The words that do not read as names: a space follows them. -/
def spacedWords : List String :=
  ["as", "async", "await", "box", "break", "const", "continue", "crate", "dyn", "else", "enum",
   "extern", "fn", "for", "if", "impl", "in", "let", "loop", "macro", "match", "mod", "move", "mut",
   "pub", "ref", "return", "static", "struct", "trait", "type", "unsafe", "use", "where", "while",
   "yield"]

/-- What a word is to the token behind it. -/
def Before.ofWord (t : String) : Before :=
  if spacedWords.contains t then .other else .word

/-- Whether a space separates a token from the one before, and what the next token finds before
it. In a pattern of tokens, `matcher`, variables and repetitions keep together. -/
def Before.next (matcher : Bool) : Before → Token → Bool × Before
  | .dollar, .ident t =>
    (false, if matcher then .variableName else if t = "crate" then .dollarCrate else .other)
  | .variableName, .punct ':' false => (false, .variableColon)
  | .variableColon, .ident _ => (false, .other)
  | .repetition, .punct '+' false => (false, .other)
  | .repetition, .punct '*' false => (false, .other)
  | .repetition, .punct '?' false => (false, .other)
  | .repetition, .ident _ => (false, .separator)
  | .repetition, .literal _ => (false, .separator)
  | .repetition, .lifetime _ => (false, .separator)
  | .repetition, .punct _ true => (false, .repetition)
  | .repetition, .punct _ false => (false, .separator)
  | .separator, .punct '+' _ => (false, .other)
  | .separator, .punct '*' _ => (false, .other)
  | .pound, .punct '!' _ => (false, .poundBang)
  | .dollar, .group .paren _ => (false, .repetition)
  | .pound, .group .bracket _ => (false, .other)
  | .poundBang, .group .bracket _ => (false, .other)
  | .word, .group .paren _ => (false, .group)
  | .word, .group .bracket _ => (false, .group)
  | .word, .punct '!' false => (false, .wordBang)
  | .wordBang, .group .paren _ => (false, .other)
  | .wordBang, .group .bracket _ => (false, .other)
  | .colon, .punct ':' _ => (false, .colon2)
  | _, .group .brace _ => (true, .other)
  | _, .group _ _ => (true, .group)
  | b, .ident t =>
    match ofWord t with
    | .word => (b ≠ .dot && b ≠ .colon2, .word)
    | after => (true, after)
  | _, .lifetime t => (true, ofWord (t.drop 1).toString)
  | b, .literal t => (b ≠ .dot, if t.endsWith "." then .other else .word)
  | _, .punct ',' _ => (false, .other)
  | _, .punct ';' _ => (false, .other)
  | b, .punct '.' _ => if matcher then (true, .other) else (b ≠ .word && b ≠ .group, .dot)
  | b, .punct ':' true => (b ≠ .word && b ≠ .dollarCrate, .colon)
  | _, .punct '$' _ => (true, .dollar)
  | _, .punct '#' _ => (true, .pound)
  | _, _ => (true, .other)

/-- Whether the token behind this one follows it directly. -/
def Token.joins : Token → Bool
  | .punct c joint => joint || c = '$'
  | _ => false

/-- What separates a token from the one before. A line may end before a dot. -/
def Before.gap (matcher : Bool) (b : Before) (t : Token) : Docs :=
  if (b.next matcher t).1 then space
  else match t with
    | .punct '.' _ => zero
    | _ => []

mutual

/-- A token. Braces keep a space on their insides. -/
def Token.docs (matcher : Bool) : Token → Docs
  | .ident t => text t
  | .lifetime t => text t
  | .literal t => text t
  | .punct c _ => text c.toString
  | .group d inner =>
    let blank := if d = .brace ∧ !inner.isEmpty then space else []
    text d.opening ++ blank ++ tokenDocsFrom matcher .other true inner ++ blank ++ text d.closing

/-- Tokens behind another one, which may join the first of them. -/
def tokenDocsFrom (matcher : Bool) (b : Before) (joined : Bool) : List Token → Docs
  | [] => []
  | t :: rest =>
    (if joined then [] else b.gap matcher t) ++ t.docs matcher ++
      tokenDocsFrom matcher (b.next matcher t).2 t.joins rest

end

/-- A list of tokens. -/
def tokenDocs (ts : List Token) : Docs :=
  tokenDocsFrom false .other true ts

mutual

/-- A token with nothing but its characters. -/
def Token.plainDocs : Token → Docs
  | .ident t => text t
  | .lifetime t => text t
  | .literal t => text t
  | .punct c _ => text c.toString
  | .group d inner => text d.opening ++ plainTokens inner ++ text d.closing

/-- Tokens with a space between those that do not follow each other directly. -/
def plainTokens : List Token → Docs
  | [] => []
  | t :: rest =>
    t.plainDocs ++ (if t matches .punct _ true then [] else nbsp) ++ plainTokens rest

end

/-! ## Invocations -/

def PlainPath.text (p : PlainPath) : String :=
  (if p.leading then "::" else "") ++ "::".intercalate p.names

/-- Documents on lines of their own between two breaks, one step deeper; nothing where there is no
token. -/
def indented (edge : Docs) (tokens : List Token) (inner : Docs) : Docs :=
  if tokens.isEmpty then [] else cbox step (edge ++ ibox 0 inner ++ offsetLast (-step) edge)

/-- The call of a code template, given a name or none. In braces its tokens stand on lines of their
own. -/
def Invocation.docsAs (s : Style) (name : String) (call : Invocation) : Docs :=
  let isBrace := call.delim = .brace
  text (call.path.text ++ "!") ++ (if name.isEmpty then [] else text (" " ++ name)) ++
    (if isBrace then nbsp else []) ++ text call.delim.opening ++
    (if s.lexical then plainTokens call.tokens
      else indented (if isBrace then hard else zero) call.tokens (tokenDocs call.tokens)) ++
    text call.delim.closing

/-- The call of a code template. -/
def Invocation.docs (s : Style) (call : Invocation) : Docs :=
  call.docsAs s ""

/-- The call of a code template as an item. Only one in braces goes without semicolon. -/
def Invocation.itemDocs (s : Style) (call : Invocation) : Docs :=
  call.docs s ++ if call.delim ≠ .brace then text ";" else []

/-- The rules of a code template: a pattern of tokens, an arrow and the tokens that stand for it,
with semicolons between neighbours. The last rule may be cut short. -/
def ruleDocs : List Token → Docs
  | [] => []
  | .group d pattern :: rest =>
    text d.opening ++ indented zero pattern (tokenDocsFrom true .other true pattern) ++
      text d.closing ++
      match rest with
      | [] => hard
      | [.punct '=' true] => text " =" ++ hard
      | [.punct '=' true, .punct '>' false] => text " =" ++ text ">" ++ hard
      | .punct '=' true :: .punct '>' false :: .group _ body :: rest =>
        text " =" ++ text ">" ++ text " \x7b" ++ never ++ indented hard body (tokenDocs body) ++
          text "\x7d" ++ text ";" ++ hard ++
          match rest with
          | [] => []
          | .punct ';' false :: rest => ruleDocs rest
          | _ => missing
      | _ => missing
  | _ => missing

/-- A template that is given a name. Its rules have a layout of their own. -/
def templateDocs (s : Style) (name : String) (call : Invocation) : Docs :=
  if call.path.leading = false ∧ call.path.names = ["macro_rules"] ∧ !s.lexical then
    text ("macro_rules! " ++ name) ++ text " \x7b" ++
      cbox step (outdent (hardIfNonempty ++ ruleDocs call.tokens)) ++ text "\x7d"
  else call.docsAs s name ++ if call.delim ≠ .brace then text ";" else []

/-! ## Attributes -/

mutual

/-- A token of an attribute. Behind a word an equals sign has a blank before it. -/
def Token.attrDocs (afterWord : Bool) : Token → Docs
  | .ident t => (if afterWord then space else []) ++ text t
  | .lifetime t => text t
  | .literal t => (if afterWord then space else []) ++ text t
  | .punct c _ =>
    (if afterWord ∧ c = '=' then nbsp else []) ++ text c.toString ++
      (if c = '=' then nbsp else if c = ',' then space else [])
  | .group .paren inner =>
    text "(" ++ cbox step (outdent (zero ++ attrDocsFrom true false inner)) ++ text ")"
  | .group d inner => text d.opening ++ attrDocsFrom false false inner ++ text d.closing

/-- The tokens inside a group of an attribute. The line may end behind the last one in
parentheses. -/
def attrDocsFrom (isParen afterWord : Bool) : List Token → Docs
  | [] => if isParen then zero else []
  | [.punct ',' _] => trailingComma true
  | t :: rest =>
    t.attrDocs afterWord ++
      attrDocsFrom isParen (t matches .ident _ | .lifetime _ | .literal _) rest

end

/-- An attribute between its brackets. -/
def AttrContent.docs (s : Style) : AttrContent → Docs
  | .bare => []
  | .group d inner => (Token.group d inner).attrDocs true
  | .value expr => text " = " ++ s.expr expr

/-- Whether comments nest properly in a text, so that it can stand in one. -/
def nestsComments (depth : Nat) : List Char → Bool
  | '/' :: '*' :: rest => nestsComments (depth + 1) rest
  | '*' :: '/' :: rest => depth ≠ 0 && nestsComments (depth - 1) rest
  | _ :: rest => nestsComments depth rest
  | [] => depth = 0

/-- A line without the spaces at its end. -/
def trimSpaces (line : String) : String :=
  String.ofList ((line.toList.reverse.dropWhile (· = ' ')).reverse)

/-- A text with no spaces at the ends of its lines, the last one apart. -/
def trimLines (t : String) : String :=
  "\n".intercalate ((withLast (t.splitOn "\n")).map fun (line, isLast) =>
    if isLast then line else trimSpaces line)

/-- A text as a comment, if it can be one. A comment of one line may not begin with any of the marks
`line`. One of several lines may begin with none of the marks `block`, and not end with a slash. -/
def commentDocs? (marks : String × String) (line block : List Char) (t : String) : Option Docs :=
  let startsWith (cs : List Char) := (t.toList.head?.map cs.contains).getD false
  if !t.contains '\n' ∧ !startsWith line then some (text marks.1 ++ text (trimSpaces t) ++ hard)
  else if nestsComments 0 t.toList ∧ !t.endsWith "/" ∧ !startsWith block then
    some (text marks.2 ++ text (trimLines t) ++ text "*/" ++ hard)
  else none

/-- The comment that an attribute is written as. -/
def Attr.comment? (a : Attr) : Option Docs :=
  match a.path, a.content with
  | ⟨false, [name]⟩, .value [.literal t] => do
    let value ← Literal.textValue? t
    if name = "doc" then
      if a.isInner then commentDocs? ("//!", "/*!") [] [] value
      else commentDocs? ("///", "/**") ['/'] ['*', '/'] value
    else if name = "comment" then commentDocs? ("//", "/*") [] ['*', '!'] value
    else none
  | _, _ => none

/-- An attribute. The line may end behind it. -/
def Attr.docs (s : Style) (a : Attr) : Docs :=
  let written := text (if a.isInner then "#!" else "#") ++ text "[" ++ text a.path.text ++
    a.content.docs s ++ text "]" ++ space
  if s.lexical then written else a.comment?.getD written

def attrDocs (s : Style) (attrs : List Attr) : Docs :=
  attrs.flatMap (Attr.docs s)

end TypedRoutes.Syntax
