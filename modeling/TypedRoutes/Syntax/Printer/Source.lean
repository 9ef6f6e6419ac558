import TypedRoutes.Syntax.Parser.Source
import TypedRoutes.Syntax.Printer.Item

/-!
# Writing whole texts

* `style` : how code that is kept as tokens is written, by levels of nesting;
* `layOut` : a token list as items in lines;
* `exprTokens?` : the tokens of an expression, wherever they are put;
* `lexemes` : the lexemes of a text, whatever its lines are.

Lexemes do not tell whether a list ends with a comma, nor whether the body of a closure or of an arm
is a block around one expression.
-/

namespace TypedRoutes.Syntax

open Layout

/-! ## Nested code -/

/-- How code that is kept as tokens is written: it is read again, and what is nested in it is
written on the level below. -/
def style (lexical unwraps : Bool) : Nat → Style
  | 0 => ⟨lexical, unwraps, tokenDocs, tokenDocs⟩
  | n + 1 =>
    let s := style lexical unwraps n
    { lexical, unwraps
      expr := fun ts =>
        match exprOf? ts with
        | some e => s.value e
        | none => missing
      item := fun ts =>
        match itemOf? ts with
        | some i => i.docs s
        | none => missing }

/-! ## Lines -/

/-- Why code is not laid out. -/
inductive LayoutFault
  /-- It is no sequence of items. -/
  | unreadable
  /-- It has a form that can be read but has no layout. -/
  | unwritable
  deriving DecidableEq, Repr

/-- A token list as items in lines. -/
def layOut (ts : List Token) : Except LayoutFault String :=
  match itemsOf? ts with
  | none => .error .unreadable
  | some items =>
    let docs := cbox 0 (Item.docsEach (style false false (Token.countAll ts)) items)
    if Doc.areComplete docs then .ok (render docs) else .error .unwritable

/-! ## Expressions as parts -/

/-- The tokens of a text that is an expression, with the parentheses it needs to be read as the same
expression among other tokens. -/
def exprTokens? (source : String) : Option (List Token) := do
  let ts ← lex source
  let e ← exprOf? ts
  let s := style true false (Token.countAll ts)
  let grouped := s.value e
  if flat grouped = flat (e.docs s .inner) || !Doc.areComplete grouped then return ts
  else return (lex (flat grouped)).getD ts

/-! ## Lexemes -/

/-- The text of a lexeme. -/
def Lexeme.text : Lexeme → String
  | .leaf (.ident t) => t
  | .leaf (.lifetime t) => t
  | .leaf (.literal t) => t
  | .leaf (.punct c _) => c.toString
  | .leaf (.group _ _) => ""
  | .opening d => d.opening
  | .closing d => d.closing

/-- The texts of lexemes. An apostrophe keeps together with what follows it. -/
def lexemeTexts : List Lexeme → List String
  | .leaf (.punct '\'' _) :: b :: rest => ("'" ++ b.text) :: lexemeTexts rest
  | a :: rest => a.text :: lexemeTexts rest
  | [] => []

/-- A list of lexemes without the commas that directly precede a closing bracket. -/
def dropEndCommas : List String → List String
  | "," :: b :: rest =>
    if [")", "]", "\x7d", ">"].contains b then dropEndCommas (b :: rest)
    else "," :: dropEndCommas (b :: rest)
  | a :: rest => a :: dropEndCommas rest
  | [] => []

/-- The lexemes of a text of items. A text that is none has the lexemes that it is cut into. -/
def lexemes (source : String) : Option (List String) := do
  let ts ← lex source
  let written :=
    match itemsOf? ts with
    | some items => lex (flat (Item.docsEach (style true true (Token.countAll ts)) items))
    | none => some ts
  return dropEndCommas (lexemeTexts (Token.flatten (← written)))

end TypedRoutes.Syntax
