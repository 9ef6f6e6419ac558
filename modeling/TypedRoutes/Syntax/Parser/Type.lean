import TypedRoutes.Syntax.Parser.Basic

/-!
# Reading types and paths

* `plainPath`, `Grammar.attr`, `invocationBody` : plain paths, attributes and template calls;
* `Grammar.readParam`, `binder?` : generic parameters, and those that a bound binds;
* `Grammar.qualifiedPath`, `Grammar.exprPath` : paths. In a type, generic arguments follow a name
  directly; in an expression two colons must stand between them;
* `Grammar.readBound` : a bound;
* `Grammar.readTy` : types.

Arguments like a function's stand in the path of a bound alone.
-/

namespace TypedRoutes.Syntax

open Parse

/-! ## Attributes, template calls and lifetimes -/

/-- The names of a plain path, reserved ones included. -/
def plainPath : Parse PlainPath := do
  let leading ← op? "::"
  let first ← pathName
  let rest ← manyWhile (startsOp "::") (do op "::"; pathName)
  return ⟨leading, first :: rest⟩
where
  /-- A name of a plain path. -/
  pathName : Parse String
    | .ident t :: rest =>
      if isIdentifier t ∨ t ∈ ["super", "self", "Self", "crate"] then some (t, rest)
      else none
    | _ => none

/-- The delimiters of a template call and the tokens between them. -/
def invocationBody : Parse (Delim × List Token)
  | .group d inner :: rest => some ((d, inner), rest)
  | _ => none

/-- Whether the mark of a template call follows a path. -/
def startsCall (ts : List Token) : Bool :=
  startsOp "!" ts && !startsOp "!=" ts

/-- What stands behind the path of an attribute. -/
def Grammar.attrContent (g : Grammar) : Parse AttrContent := do
  if ← op? "=" then
    expect fun ts => !(startsOp "#" ts && startsGroup .bracket (ts.drop 1))
    return .value (← taking (g.expr true))
  else if ← ahead List.isEmpty then return .bare
  else
    let (d, inner) ← invocationBody
    return .group d inner

/-- An attribute: `isInner` tells which of the two kinds is read. -/
def Grammar.attr (g : Grammar) (isInner : Bool) : Parse Attr := do
  op "#"
  if isInner then op "!"
  within .bracket do
    let path ← if ← word? "unsafe" then pure ⟨false, ["unsafe"]⟩ else plainPath
    return ⟨isInner, path, ← g.attrContent⟩

def Grammar.outerAttrs (g : Grammar) : Parse (List Attr) :=
  manyWhile (startsOp "#") (g.attr false)

def Grammar.innerAttrs (g : Grammar) : Parse (List Attr) :=
  manyWhile (fun ts => startsOp "#" ts && startsOp "!" (ts.drop 1)) (g.attr true)

/-! ## Generic parameters -/

/-- A constant among generic arguments: a literal, a name or a block. -/
def Grammar.constArg (g : Grammar) : Parse (List Token) :=
  taking do
    if ← ahead startsLit then
      let _ ← op? "-"
      let _ ← literal
    else if ← ahead startsIdent then
      let _ ← ident
    else
      let _ ← within .brace (g.stmts true)

/-- The lifetimes behind a colon, as long as `more` holds. -/
def lifetimeBounds (more : List Token → Bool) : Parse (List String) :=
  plusWhile more lifetime

/-- Whether a list of bounds in angle brackets ends here. -/
def endsAngle (ts : List Token) : Bool :=
  ts.isEmpty || startsOp "," ts || startsOp ">" ts

/-- The bounds behind the colon of a parameter. -/
def Grammar.plainBounds (g : Grammar) (more : List Token → Bool) : Parse (List Bound) :=
  plusWhile more (g.bound ⟨true, false⟩)

def Grammar.readParam (g : Grammar) : Parse GenericParam := do
  let attrs ← g.outerAttrs
  if ← ahead startsLifetime then
    let name ← lifetime
    let bounds ← if ← op? ":" then lifetimeBounds fun ts => !endsAngle ts else pure []
    return .lifetime attrs name bounds
  else if ← word? "const" then
    let name ← ident
    op ":"
    let ty ← g.ty true
    return .value attrs name ty (← if ← op? "=" then g.constArg else pure [])
  else
    let name ← ident
    let bounds ← if ← op? ":" then
        g.plainBounds fun ts => !(endsAngle ts || startsOp "=" ts)
      else pure []
    return .type attrs name bounds (← whenAhead (startsOp "=") (do op "="; g.ty true))

/-- The parameters that a bound, a function pointer or a closure binds. -/
def Grammar.binder? (g : Grammar) : Parse Binder :=
  whenAhead (startsWord "for") do
    word "for"
    op "<"
    let (params, _) ← commaUntil (startsOp ">") g.param
    op ">"
    return params

/-- Whether generic parameters stand here, rather than a qualified type. -/
def startsGenerics (ts : List Token) : Bool :=
  let next := ts.drop 1
  let third := ts.drop 2
  startsOp "<" ts && (startsOp ">" next || startsOp "#" next || startsWord "const" next ||
    ((startsIdent next || startsLifetime next) &&
      (startsOp ">" third || startsOp "," third ||
        (startsOp ":" third && !startsOp "::" third) || startsOp "=" third)))

/-! ## Generic arguments -/

/-- The name and arguments of a path that an associated type may have. -/
def Ty.assocName? : Ty → Option (String × List GenericArg)
  | .path (.mk none _ false [.plain name]) => some (name, [])
  | .path (.mk none _ false [.angle name args]) => some (name, args)
  | _ => none

def Grammar.genericArg (g : Grammar) : Parse GenericArg := do
  if ← ahead fun ts => startsLifetime ts && !startsOp "+" (ts.drop 1) then
    return .lifetime (← lifetime)
  else if ← ahead startsValue then return .value (← g.constArg)
  else
    let ty ← g.ty true
    match ty.assocName? with
    | some (name, args) =>
      if ← op? "=" then
        if ← ahead startsValue then return .assocValue name args (← g.constArg)
        else return .assocType name args (← g.ty true)
      else if ← op? ":" then
        return .bounded name args
          (← g.plainBounds fun ts => !(startsOp "," ts || startsOp ">" ts))
      else return .type ty
    | none => return .type ty
where
  /-- Whether a constant stands here. -/
  startsValue (ts : List Token) : Bool :=
    startsLit ts || startsGroup .brace ts

/-- Generic arguments in angle brackets. -/
def Grammar.angleArgs (g : Grammar) : Parse (List GenericArg) := do
  op "<"
  let (args, _) ← commaUntil (startsOp ">") g.genericArg
  op ">"
  return args

/-! ## Paths -/

/-- One segment of a path. -/
def Grammar.segment (g : Grammar) (inExpr : Bool) : Parse Segment := do
  if ← ahead fun ts => ["super", "self", "crate", "try"].any (startsWord · ts) then
    return .plain (← name)
  let id ← if ← ahead (startsWord "Self") then name else ident
  if ← ahead fun ts =>
      (!inExpr && startsOp "<" ts && !startsOp "<=" ts && !startsOp "<<=" ts) ||
        (startsOp "::" ts && startsOp "<" (ts.drop 2)) then
    let _ ← op? "::"
    return .angle id (← g.angleArgs)
  else return .plain id

/-- A path without a type in front, up to two colons with a parenthesis behind them. -/
def Grammar.barePath (g : Grammar) (inExpr : Bool) : Parse Path := do
  let leading ← op? "::"
  let first ← g.segment inExpr
  let rest ← manyWhile (fun ts => startsOp "::" ts && !startsGroup .paren (ts.drop 2))
    (do op "::"; g.segment inExpr)
  return .mk none 0 leading (first :: rest)

/-- A path that may have a type in front. -/
def Grammar.qualifiedPath (g : Grammar) (inExpr : Bool) : Parse Path := do
  if ← op? "<" then
    let self ← g.ty true
    let ofTrait ← whenAhead (startsWord "as") (do word "as"; g.barePath false)
    op ">"
    op "::"
    let first ← g.segment inExpr
    let more ← manyWhile (startsOp "::") (do op "::"; g.segment inExpr)
    match ofTrait with
    | some (.mk _ _ leading segments) =>
      return .mk (some self) segments.length leading (segments ++ first :: more)
    | none => return .mk (some self) 0 true (first :: more)
  else g.barePath inExpr

/-- A path in an expression or a pattern. -/
def Grammar.exprPath (g : Grammar) : Parse Path :=
  g.qualifiedPath true

/-- The name of a segment without generic arguments or brackets for them. -/
def plainName : Segment → Option String
  | .plain name => some name
  | _ => none

/-- The plain form of a path without type and generic arguments. -/
def Path.plain? : Path → Option PlainPath
  | .mk none _ leading segments => (segments.mapM plainName).map (⟨leading, ·⟩)
  | _ => none

/-- The call of a template behind its path, if one follows. -/
def callOf? (p : Path) : Parse (Option Invocation) := do
  match p.plain? with
  | some plain =>
    whenAhead startsCall do
      op "!"
      let (d, tokens) ← invocationBody
      return ⟨plain, d, tokens⟩
  | none => return none

/-! ## Bounds -/

/-- The type behind an arrow. -/
def Grammar.output? (g : Grammar) (plus : Bool) : Parse (Option Ty) :=
  whenAhead (startsOp "->") (do op "->"; g.ty plus)

/-- The name of a segment that has no arguments. -/
def bareName? : Segment → Option String
  | .plain name => some name
  | .angle name [] => some name
  | _ => none

/-- The path of a trait in a bound. Its last segment may take arguments like a function's. -/
def Grammar.boundPath (g : Grammar) : Parse Path := do
  let .mk qself position leading segments ← g.barePath false
  let follows ← ahead fun ts => startsGroup .paren ts ||
    (startsOp "::" ts && startsGroup .paren (ts.drop 2))
  match segments.getLast?.bind bareName?, follows with
  | some name, true =>
    let _ ← op? "::"
    let inputs ← within .paren (terminated (g.ty true))
    let last := Segment.paren name inputs (← g.output? false)
    return .mk qself position leading (segments.dropLast ++ [last])
  | _, _ => return .mk qself position leading segments

/-- The trait of a bound, or nothing if the bound is one that holds in constant code. -/
def Grammar.traitBound (g : Grammar) (rules : BoundRules) :
    Parse (Option (Bool × Binder × Path)) := do
  let binder ← g.binder?
  let isConst ← if ← ahead (startsGroup .bracket) then
      within .bracket (word "const")
      pure true
    else word? "const"
  if isConst && !rules.constant then fail
  let relaxed ← op? "?"
  if relaxed && (binder.isSome || (← ahead (startsWord "for"))) then fail
  let p ← g.boundPath
  return if isConst then none else some (relaxed, binder, p)

/-- The names that a bound captures. -/
def captured : Parse (List String) := do
  word "use"
  op "<"
  let (names, _) ← commaUntil (startsOp ">") fun
    | .lifetime t :: rest => some (t, rest)
    | .ident t :: rest => if isIdentifier t ∨ t = "Self" then some (t, rest) else none
    | _ => none
  op ">"
  return names

/-- A bound: a lifetime, or a trait, perhaps in parentheses, or a capture. -/
def Grammar.readBound (g : Grammar) (rules : BoundRules) : Parse Bound := do
  let ts ← ahead id
  if startsLifetime ts then return .lifetime (← lifetime)
  else if startsWord "use" ts then
    let names ← captured
    if rules.capture then return .capture names else fail
  else
    let parenthesized := startsGroup .paren ts
    let bound ← if parenthesized then within .paren (g.traitBound rules) else g.traitBound rules
    match bound with
    | some (relaxed, binder, p) => return .trait parenthesized relaxed binder p
    | none => return .unwritable (ts.take (ts.length - (← remaining)))

/-- Whether a further bound begins behind a plus sign. -/
def startsBound (rules : BoundRules) (ts : List Token) : Bool :=
  startsName ts || startsOp "::" ts || startsOp "?" ts || startsLifetime ts ||
    startsGroup .paren ts || (rules.constant && startsGroup .bracket ts)

def Bound.isTrait : Bound → Bool
  | .trait .. | .unwritable _ => true
  | _ => false

/-- The bounds of a type, of which at least one is a trait. With `plus` there may be several. -/
def Grammar.typeBounds (g : Grammar) (rules : BoundRules) (plus : Bool) : Parse (List Bound) := do
  let first ← g.bound rules
  let rest ← if plus && (← ahead (startsOp "+")) then do
      op "+"
      plusWhile (startsBound rules) (g.bound rules)
    else pure []
  if (first :: rest).any Bound.isTrait then return first :: rest else fail

/-- The bounds of a trait object. -/
def Grammar.objectBounds (g : Grammar) (plus : Bool) : Parse (List Bound) :=
  g.typeBounds ⟨false, false⟩ plus

/-- The bounds behind each of the plus signs that follow. -/
def Grammar.furtherBounds (g : Grammar) : Parse (List Bound) :=
  manyWhile (startsOp "+") (do op "+"; g.bound ⟨false, false⟩)

/-! ## Function pointers -/

def abi? : Parse (Option Abi) :=
  whenAhead (startsWord "extern") do
    word "extern"
    return ⟨← whenAhead startsText literal⟩
where
  /-- Whether a string stands here. -/
  startsText : List Token → Bool
    | .literal t :: _ => (Literal.textValue? t).isSome
    | _ => false

/-- An input of a function pointer. The first one may be `self`, also where no type can stand. -/
def Grammar.pointerInput (g : Grammar) (attrs : List Attr) (isFirst : Bool) :
    Parse PointerInput := do
  let ts ← ahead id
  let startsMutSelf := fun ts => isFirst && startsWord "mut" ts && startsWord "self" (ts.drop 1)
  let isMutSelf := startsMutSelf ts
  if isMutSelf then word "mut"
  let named ← ahead fun ts => (startsIdent ts || startsWord "_" ts ||
    (isFirst && startsWord "self" ts)) && startsOp ":" (ts.drop 1) && !startsOp "::" (ts.drop 1)
  let isSelf := named && (← ahead fun ts => isFirst && startsWord "self" ts)
  let id ← if named then do
      let id ← name
      op ":"
      pure id
    else pure ""
  let taken : Parse PointerInput := do
    return .mk attrs "" (.unwritable (ts.take (ts.length - (← remaining))))
  if !isSelf && (← ahead startsMutSelf) then
    word "mut"
    word "self"
    taken
  else if isMutSelf && !named then
    word "self"
    taken
  else
    let ty ← g.ty true
    if isMutSelf then taken else return .mk attrs id ty

/-- The inputs of a function pointer, at most `n`, and their open end. -/
def Grammar.pointerInputs (g : Grammar) (isFirst : Bool) :
    Nat → Parse (List PointerInput × Option OpenInput)
  | 0 => fail
  | n + 1 => do
    if ← ahead List.isEmpty then return ([], none)
    let attrs ← g.outerAttrs
    let isOpen ← ahead fun ts => startsOp "..." ts ||
      ((startsIdent ts || startsWord "_" ts) && startsOp ":" (ts.drop 1) &&
        startsOp "..." (ts.drop 2))
    if isOpen then
      let id ← if ← ahead startsName then do
          let id ← name
          op ":"
          pure id
        else pure ""
      op "..."
      let _ ← op? ","
      return ([], some ⟨attrs, id⟩)
    else
      let input ← g.pointerInput attrs isFirst
      if ← ahead List.isEmpty then return ([input], none)
      op ","
      let (inputs, rest) ← g.pointerInputs false n
      return (input :: inputs, rest)

/-- A function pointer, after its binder. -/
def Grammar.fnType (g : Grammar) (binder : Binder) : Parse Ty := do
  let isUnsafe ← word? "unsafe"
  let abi ← abi?
  word "fn"
  let (inputs, rest) ← within .paren do g.pointerInputs true ((← remaining) + 1)
  return .function binder isUnsafe abi inputs rest (← g.output? false)

/-! ## Types -/

/-- The inside of a type in parentheses: a type or a tuple. -/
def Grammar.parenInside (g : Grammar) : Parse Ty := do
  if ← ahead startsLifetime then return .paren (.object (← g.objectBounds true))
  else
    let (items, comma) ← commaUntil List.isEmpty (g.ty true)
    match items, comma with
    | [ty], false => return .paren ty
    | items, _ => return .tuple items

/-- Whether a type in parentheses says itself that it is an object, or ends with a plus sign. -/
def isWholeObject : List Token → Bool
  | .group _ inner :: _ => startsWord "dyn" inner || (inner.getLast? matches some (.punct '+' _))
  | _ => false

/-- A type in parentheses that can be the first of several bounds. -/
def Ty.asBound? : Ty → Option Bound
  | .paren (.path (.mk none position leading segments)) =>
    some (.trait true false none (.mk none position leading segments))
  | .paren (.object [.trait _ relaxed binder p]) => some (.trait true relaxed binder p)
  | _ => none

/-- A type in parentheses, a tuple, or the first of several bounds. -/
def Grammar.parenTy (g : Grammar) (plus : Bool) : Parse Ty := do
  let relaxed ← ahead fun
    | .group _ inner :: _ => startsOp "?" inner
    | _ => false
  if relaxed then
    match ← within .paren (g.traitBound ⟨false, false⟩) with
    | some (relaxed, binder, p) =>
      return .object (.trait true relaxed binder p :: (← g.furtherBounds))
    | none => fail
  else
    let isWhole ← ahead isWholeObject
    let ty ← within .paren g.parenInside
    match ty.asBound? with
    | some first =>
      if plus && !isWhole && (← ahead (startsOp "+")) then
        return .object (first :: (← g.furtherBounds))
      else return ty
    | none => return ty

/-- A type that begins with a path. -/
def Grammar.pathTy (g : Grammar) (binder : Binder) (plus : Bool) : Parse Ty := do
  let p ← g.qualifiedPath false
  let .mk qself _ _ _ := p
  if qself.isSome then return .path p
  if let some call ← callOf? p then return .invocation call
  if plus && (← ahead (startsOp "+")) then
    op "+"
    let rules : BoundRules := ⟨false, false⟩
    let rest ← plusWhile (startsBound rules) (g.bound rules)
    return .object (.trait false false binder p :: rest)
  else if binder.isSome then return .object [.trait false false binder p]
  else return .path p

/-- A type. With `plus`, further bounds may follow a trait. They may follow a lifetime anywhere. -/
def Grammar.readTy (g : Grammar) (plus : Bool) : Parse Ty := do
  let start ← ahead id
  let binder ← g.binder?
  let ts ← ahead id
  let startsPath := startsIdent ts || ["super", "self", "Self", "crate"].any (startsWord · ts)
  if startsWord "fn" ts || startsWord "unsafe" ts || startsWord "extern" ts then g.fnType binder
  else if startsPath then g.pathTy binder plus
  else if binder.isSome then fail
  else if startsGroup .paren ts then g.parenTy plus
  else if startsOp "::" ts || startsOp "<" ts then g.pathTy none plus
  else if ← word? "dyn" then
    let isStar ← op? "*"
    let bounds ← g.objectBounds plus
    if isStar then return .unwritable (start.take (start.length - (← remaining)))
    else return .object bounds
  else if startsGroup .bracket ts then
    within .bracket do
      let item ← g.ty true
      if ← op? ";" then return .array item (← taking (g.expr true)) else return .slice item
  else if ← op? "*" then
    let isMut ← word? "mut"
    if !isMut then word "const"
    return .pointer isMut (← g.ty false)
  else if ← op? "&" then
    let lt ← lifetime?
    let isMut ← word? "mut"
    return .reference lt isMut (← g.ty false)
  else if ← op? "!" then return .never
  else if ← word? "impl" then return .existential (← g.typeBounds ⟨true, true⟩ plus)
  else if ← word? "_" then return .infer
  else if startsLifetime ts then return .object (← g.objectBounds true)
  else fail

end TypedRoutes.Syntax
