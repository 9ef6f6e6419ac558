import TypedRoutes.Syntax.Parser.Type

/-!
# Reading patterns

* `Grammar.readPat` : a single pattern;
* `Grammar.readPats` : alternatives with vertical bars between them.
-/

namespace TypedRoutes.Syntax

open Parse

/-! ## Alternatives -/

/-- A bar that separates alternatives. -/
def startsBar (ts : List Token) : Bool :=
  startsOp "|" ts && !startsOp "||" ts && !startsOp "|=" ts

/-- Patterns with bars between them; a bar may stand in front. -/
def Grammar.readPats (g : Grammar) : Parse Pat := do
  let leading ← op? "|"
  let first ← g.pat
  let rest ← manyWhile startsBar (do op "|"; g.pat)
  if leading || !rest.isEmpty then return .alternatives (first :: rest) else return first

/-! ## Ranges and literals -/

/-- The end of a range that a pattern names. -/
def Grammar.patBound (g : Grammar) : Parse Pat := do
  let ts ← ahead id
  if startsLit ts then
    let negative ← op? "-"
    return .literal negative (← literal)
  else if startsIdent ts || startsOp "::" ts || startsOp "<" ts ||
      ["self", "Self", "super", "crate"].any (startsWord · ts) then
    return .path (← g.exprPath)
  else
    return .constBlock (← taking do
      word "const"
      within .brace (g.stmts true))

/-- Whether a range in a pattern has no upper end here. -/
def endsPatRange (ts : List Token) : Bool :=
  ts.isEmpty || startsOp "|" ts || startsOp "=" ts || (startsOp ":" ts && !startsOp "::" ts) ||
    startsOp "," ts || startsOp ";" ts || startsWord "if" ts

/-- The dots of a range: whether its end belongs to it. -/
def rangeDots : Parse Bool := do
  if ← op? "..=" then return true
  else if ← op? "..." then return true
  else
    op ".."
    return false

/-- A range pattern from its dots on. -/
def Grammar.patRange (g : Grammar) (start : Option Pat) : Parse Pat := do
  let closed ← rangeDots
  if ← ahead endsPatRange then
    if closed then fail else return .range start false none
  else return .range start closed (some (← g.patBound))

/-- Whether a range lacks an end. Such a one is no item of a slice. -/
def Pat.isOpenRange : Pat → Bool
  | .range none _ _ | .range _ _ none => true
  | _ => false

/-! ## Records -/

/-- A field of a record pattern, behind its attributes. -/
def Grammar.fieldPat (g : Grammar) (attrs : List Attr) : Parse FieldPat := do
  let isBox ← word? "box"
  let isRef ← word? "ref"
  let isMut ← word? "mut"
  let isPlain := !(isBox || isRef || isMut)
  if ← ahead fun ts => isPlain && (startsOp ":" (ts.drop 1) || !startsName ts) then
    let m ← member
    op ":"
    return .mk attrs (some m) (← g.pats)
  else
    let name ← ident
    return .mk attrs none (if isBox then .unwritable else .ident isRef isMut name none)

/-- The fields of a record pattern, at most `n`, and the attributes of the dots behind them. -/
def Grammar.fieldPats (g : Grammar) : Nat → Parse (List FieldPat × Option (List Attr))
  | 0 => fail
  | n + 1 => do
    if ← ahead List.isEmpty then return ([], none)
    let attrs ← g.outerAttrs
    if ← op? ".." then return ([], some attrs)
    let f ← g.fieldPat attrs
    if ← ahead List.isEmpty then return ([f], none)
    op ","
    let (fs, rest) ← g.fieldPats n
    return (f :: fs, rest)

/-! ## Single patterns -/

/-- A pattern that begins with a path. -/
def Grammar.pathPat (g : Grammar) : Parse Pat := do
  let p ← g.exprPath
  if let some call ← callOf? p then return .invocation call
  let ts ← ahead id
  if startsGroup .brace ts then
    within .brace do
      let (fields, rest) ← g.fieldPats ((← remaining) + 1)
      return .record p fields rest
  else if startsGroup .paren ts then
    return .tupleRecord p (← within .paren (terminated g.pats))
  else if startsOp ".." ts then g.patRange (some (.path p))
  else return .path p

/-- A single pattern. -/
def Grammar.readPat (g : Grammar) : Parse Pat := do
  let ts ← ahead id
  let next := ts.drop 1
  if (startsIdent ts && (startsOp "::" next || startsOp "!" next || startsGroup .brace next ||
        startsGroup .paren next || startsOp ".." next)) ||
      (startsWord "self" ts && startsOp "::" next) || startsOp "::" ts || startsOp "<" ts ||
      ["Self", "super", "crate"].any (startsWord · ts) then
    g.pathPat
  else if ← word? "_" then return .wild
  else if ← word? "box" then
    let _ ← g.pat
    return .unwritable
  else if startsOp "-" ts || startsLit ts || startsWord "const" ts then
    expect fun ts => startsLit ts || startsWord "const" ts
    let start ← g.patBound
    if ← ahead (startsOp "..") then g.patRange (some start) else return start
  else if ["ref", "mut", "self"].any (startsWord · ts) || startsIdent ts then
    let isRef ← word? "ref"
    let isMut ← word? "mut"
    let id ← if ← ahead (startsWord "self") then name else ident
    let sub ← whenAhead (startsOp "@") (do op "@"; g.pat)
    return .ident isRef isMut id sub
  else if ← op? "&" then
    let isMut ← word? "mut"
    return .reference isMut (← g.pat)
  else if startsGroup .paren ts then
    within .paren do
      let (items, comma) ← commaUntil List.isEmpty g.pats
      match items, comma with
      | [.rest], false => return .tuple [.rest] false
      | [p], false => return .paren p
      | items, comma => return .tuple items comma
  else if startsGroup .bracket ts then
    let items ← within .bracket (terminated g.pats)
    if items.any Pat.isOpenRange then fail else return .slice items
  else if startsOp ".." ts && !startsOp "..." ts then
    match ← g.patRange none with
    | .range none _ none => return .rest
    | p => return p
  else fail

end TypedRoutes.Syntax
