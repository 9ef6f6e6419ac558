import TypedRoutes.Syntax.Parser.Expr

/-!
# Reading items

* `visibility`, `Grammar.genericParams`, `Grammar.conditions`, `Grammar.signature` : parts of items;
* `Grammar.record`, `Grammar.enumeration`, `useTree`, … : items of each kind;
* `Grammar.itemAfter` : an item behind its attributes;
* `Grammar.member` : a member of an implementation, a trait or foreign code.

Some forms are accepted for the sake of templates that make sense of them. They are unwritable.
-/

namespace TypedRoutes.Syntax

open Parse

/-! ## Visibility and generics -/

/-- Who may use an item. In parentheses stands a path that the item is visible within. -/
def visibility : Parse Visibility := do
  if ← word? "pub" then
    let inner ← ahead fun
      | .group .paren inner :: _ => inner
      | _ => []
    match inner with
    | [.ident t] =>
      if ["crate", "self", "super"].contains t then
        let _ ← inside .paren
        return .within ⟨false, [t]⟩
      else return .exported
    | .ident "in" :: _ => return .within (← within .paren (do word "in"; plainPath))
    | _ => return .exported
  else return .inherited

def Visibility.isInherited : Visibility → Bool
  | .inherited => true
  | _ => false

/-- Generic parameters in angle brackets. One may be a lone underscore. -/
def Grammar.genericParams (g : Grammar) : Parse (List GenericParam) := do
  if ← op? "<" then
    let (params, _) ← commaUntil (startsOp ">") do
      let ts ← ahead id
      let attrs ← g.outerAttrs
      if ← word? "_" then return .type attrs "_" [] none
      else fun _ => g.param ts
    op ">"
    return params
  else return []

/-- Whether a list of conditions, or of the bounds of one, ends here. -/
def endsConditions (ts : List Token) : Bool :=
  ts.isEmpty || startsGroup .brace ts || startsOp "," ts || startsOp ";" ts ||
    (startsOp ":" ts && !startsOp "::" ts) || startsOp "=" ts

def Grammar.predicate (g : Grammar) : Parse Predicate := do
  if ← ahead fun ts => startsLifetime ts && startsOp ":" (ts.drop 1) then
    let name ← lifetime
    op ":"
    return .lifetime name (← lifetimeBounds fun ts => !(endsConditions ts || startsOp ":" ts))
  else
    let binder ← g.binder?
    let ty ← g.ty true
    op ":"
    return .type binder ty (← g.plainBounds fun ts => !endsConditions ts)

/-- Conditions with a comma between neighbours, at most `n` of them. -/
def Grammar.predicates (g : Grammar) : Nat → Parse (List Predicate)
  | 0 => pure []
  | n + 1 => do
    if ← ahead endsConditions then return []
    let p ← g.predicate
    if ← op? "," then return p :: (← g.predicates n) else return [p]

/-- The conditions on what is generic. -/
def Grammar.conditions (g : Grammar) : Parse (List Predicate) := do
  if ← word? "where" then
    if ← ahead startsGenerics then fail
    g.predicates ((← remaining) + 1)
  else return []

/-! ## Functions -/

/-- A parameter of a function that is the value itself, and not a name within its module. -/
def Grammar.receiver (g : Grammar) (attrs : List Attr) : Parse FnInput := do
  let isRef ← op? "&"
  let lt ← if isRef then lifetime? else pure none
  let isMut ← word? "mut"
  word "self"
  expect fun ts => !startsOp "::" ts
  let ty ← if isRef then pure none else whenAhead (startsOp ":") (do op ":"; g.ty true)
  return .receiver attrs isRef lt isMut ty

/-- A parameter of a function, behind its attributes. The name of one may be left out where its
type begins with a generic name. -/
def Grammar.fnInput (g : Grammar) (attrs : List Attr) : Parse FnInput := fun ts =>
  match g.receiver attrs ts with
  | some r => some r
  | none => (do
    if startsIdent ts && startsOp "<" (ts.drop 1) then return .typed attrs .wild (← g.ty true)
    else
      let pat ← g.pat
      op ":"
      if ← op? "..." then return .rest attrs (some pat)
      else return .typed attrs pat (← g.ty true) : Parse FnInput) ts

def FnInput.isReceiver : FnInput → Bool
  | .receiver .. => true
  | _ => false

def FnInput.isRest : FnInput → Bool
  | .rest .. => true
  | _ => false

/-- The parameters of a function, at most `n`. Only the first may be a receiver, and none follows an
open end. -/
def Grammar.fnInputs (g : Grammar) (isFirst : Bool) : Nat → Parse (List FnInput)
  | 0 => fail
  | n + 1 => do
    if ← ahead List.isEmpty then return []
    let attrs ← g.outerAttrs
    let input ← if ← op? "..." then pure (.rest attrs none) else g.fnInput attrs
    if input.isReceiver && !isFirst then fail
    if ← ahead List.isEmpty then return [input]
    op ","
    if input.isRest then return [input]
    return input :: (← g.fnInputs false n)

/-- A function in front of its body. -/
def Grammar.signature (g : Grammar) : Parse Signature := do
  let isConst ← word? "const"
  let isAsync ← word? "async"
  let isUnsafe ← word? "unsafe"
  let abi ← abi?
  word "fn"
  let name ← ident
  let generics ← g.genericParams
  let inputs ← within .paren do g.fnInputs true ((← remaining) + 1)
  let output ← g.output? true
  return ⟨isConst, isAsync, isUnsafe, abi, name, generics, inputs, output, ← g.conditions⟩

/-- Whether a function stands here, behind the words that may stand in front of it. -/
def startsFn (ts : List Token) : Bool :=
  let skip (w : String) (ts : List Token) := if startsWord w ts then ts.drop 1 else ts
  let ts := skip "unsafe" (skip "async" (skip "const" ts))
  let ts := if startsWord "extern" ts then
      match ts.drop 1 with
      | .literal t :: rest => if (Literal.textValue? t).isSome then rest else .literal t :: rest
      | rest => rest
    else ts
  startsWord "fn" ts

/-- The inside of a body with its inner attributes, and the items in it. -/
def Grammar.members (g : Grammar) (member : Parse Item) : Parse (List Item) :=
  within .brace do
    let inner ← g.innerAttrs
    return inner.map .innerAttr ++ (← manyWhile (fun ts => !ts.isEmpty) member)

/-! ## Constants and types -/

/-- The part of a constant behind its word. `some` value is needed, and nothing generic, for it to
be written. -/
def Grammar.constantAfter (g : Grammar) (attrs : List Attr) (vis : Visibility) (isDefault : Bool)
    (valueless : Bool) : Parse Item := do
  let name ← if ← ahead (startsWord "_") then name else ident
  let isGeneric ← ahead (startsOp "<")
  let _ ← g.genericParams
  op ":"
  let ty ← g.ty true
  let value ← whenAhead (startsOp "=") (do op "="; g.expr true)
  let isBound ← ahead (startsWord "where")
  let _ ← g.conditions
  op ";"
  return if isGeneric || isBound || (value.isNone && !valueless) then .unwritable
    else .constant attrs vis isDefault name ty value

/-- A type with all that may stand behind its name. -/
structure TypeForm where
  name : String
  generics : List GenericParam
  hasColon : Bool
  bounds : List Bound
  conditions : List Predicate
  ty : Option Ty

/-- A type item from its word on. Conditions stand before the definition or behind it. -/
def Grammar.typeForm (g : Grammar) (before after : Bool) : Parse TypeForm := do
  word "type"
  let name ← ident
  let generics ← g.genericParams
  let hasColon ← op? ":"
  let bounds ← if hasColon then
      g.plainBounds fun ts => !(startsWord "where" ts || startsOp "=" ts || startsOp ";" ts)
    else pure []
  let isBound ← ahead (startsWord "where")
  let first ← if before then g.conditions else pure []
  let ty ← whenAhead (startsOp "=") (do op "="; g.ty true)
  let conditions ← if after && !(before && isBound) then g.conditions else pure first
  op ";"
  return ⟨name, generics, hasColon, bounds, conditions, ty⟩

/-! ## Structures and enumerations -/

/-- A field with a name. One without name of its own may hold further fields. -/
def Grammar.namedField (g : Grammar) : Nat → Parse Field
  | 0 => fail
  | n + 1 => do
    let attrs ← g.outerAttrs
    let vis ← visibility
    let isAnonymous ← ahead (startsWord "_")
    let name ← if isAnonymous then Parse.name else ident
    op ":"
    let startsFields := fun ts => isAnonymous &&
      (startsWord "struct" ts || (startsWord "union" ts && startsGroup .brace (ts.drop 1)))
    let ty ← if ← ahead startsFields then
        Ty.unwritable <$> taking do
          let _ ← Parse.name
          within .brace (terminated (g.namedField n))
      else g.ty true
    return ⟨attrs, vis, some name, ty⟩

def Grammar.namedFields (g : Grammar) : Parse Fields := do
  let ts ← ahead id
  return .named (← within .brace (terminated (g.namedField (Token.countAll (ts.take 1)))))

def Grammar.unnamedFields (g : Grammar) : Parse Fields := do
  return .unnamed (← within .paren (terminated do
    let attrs ← g.outerAttrs
    let vis ← visibility
    return ⟨attrs, vis, none, ← g.ty true⟩))

def Grammar.structure (g : Grammar) (attrs : List Attr) (vis : Visibility) : Parse Item := do
  word "struct"
  let name ← ident
  let generics ← g.genericParams
  if ← ahead (startsGroup .paren) then
    let fields ← g.unnamedFields
    let conditions ← g.conditions
    op ";"
    return .record attrs vis "struct" name generics conditions fields
  else
    let conditions ← g.conditions
    let fields ← if ← op? ";" then pure .none else g.namedFields
    return .record attrs vis "struct" name generics conditions fields

def Grammar.union (g : Grammar) (attrs : List Attr) (vis : Visibility) : Parse Item := do
  word "union"
  let name ← ident
  let generics ← g.genericParams
  let conditions ← g.conditions
  return .record attrs vis "union" name generics conditions (← g.namedFields)

def Grammar.variant (g : Grammar) : Parse Variant := do
  let attrs ← g.outerAttrs
  let _ ← visibility
  let name ← ident
  let ts ← ahead id
  let fields ←
    if startsGroup .brace ts then g.namedFields
    else if startsGroup .paren ts then g.unnamedFields
    else pure .none
  return ⟨attrs, name, fields, ← whenAhead (startsOp "=") (do op "="; g.expr true)⟩

def Grammar.enumeration (g : Grammar) (attrs : List Attr) (vis : Visibility) : Parse Item := do
  word "enum"
  let name ← ident
  let generics ← g.genericParams
  let conditions ← g.conditions
  return .enumeration attrs vis name generics conditions (← within .brace (terminated g.variant))

/-! ## Uses -/

/-- The new name behind `as`. -/
def newName : Parse String := do
  word "as"
  if ← ahead (startsWord "_") then name else ident

/-- A tree of names, or nothing if a path in it starts at the root of all names. Only where `root`
holds may one do so. -/
def useTree : Nat → Bool → Parse (Option UseTree)
  | 0, _ => fail
  | n + 1, root => do
    let ts ← ahead id
    if startsIdent ts || ["self", "super", "crate", "try"].any (startsWord · ts) then
      let id ← name
      if ← op? "::" then return (← useTree n false).map (.path id)
      else if ← ahead (startsWord "as") then return some (.rename id (← newName))
      else return some (.name id)
    else if ← op? "*" then return some .glob
    else
      let trees ← within .brace (terminated do
        let isRooted ← if root then op? "::" else pure false
        let tree ← useTree n (root && !isRooted)
        return if isRooted then none else tree)
      return (trees.mapM id).map .group

def useItem (attrs : List Attr) (vis : Visibility) : Parse Item := do
  word "use"
  let leading ← op? "::"
  let tree ← useTree ((← ahead Token.countAll) + 1) (!leading)
  op ";"
  return match tree with
    | some tree => .use attrs vis leading tree
    | none => .unwritable

/-- The use of another library. -/
def libraryItem (attrs : List Attr) (vis : Visibility) : Parse Item := do
  word "extern"
  word "crate"
  let id ← if ← ahead (startsWord "self") then name else ident
  let renamed ← whenAhead (startsWord "as") newName
  op ";"
  return .library attrs vis id renamed

/-! ## Templates -/

/-- Whether the path of a template call can begin here. -/
def startsTemplatePath (ts : List Token) : Bool :=
  startsIdent ts || startsOp "::" ts || ["self", "super", "crate"].any (startsWord · ts)

/-- The call of a template as an item. With `named` it may be given a name. -/
def templateItem (attrs : List Attr) (named : Bool) : Parse Item := do
  let path ← plainPath
  op "!"
  let name ← whenAhead (fun ts => named && (startsIdent ts || startsWord "try" ts)) name
  let (d, tokens) ← invocationBody
  if d ≠ .brace then op ";"
  let call : Invocation := ⟨path, d, tokens⟩
  return match name with
    | some name => .template attrs name call
    | none => .invocation attrs call

/-! ## Members -/

/-- A function with a body. -/
def Grammar.functionItem (g : Grammar) (attrs : List Attr) (vis : Visibility) (isDefault : Bool) :
    Parse Item := do
  let sig ← g.signature
  if ← op? ";" then return .unwritable
  else return .function attrs vis isDefault sig (some (← g.body))

/-- A member of an implementation. -/
def Grammar.implMember (g : Grammar) : Parse Item := do
  let attrs ← g.outerAttrs
  let vis ← visibility
  let isDefault ← if ← ahead fun ts => startsWord "default" ts && !startsOp "!" (ts.drop 1) then
      word? "default"
    else pure false
  let ts ← ahead id
  if startsFn ts then g.functionItem attrs vis isDefault
  else if ← word? "const" then g.constantAfter attrs vis isDefault false
  else if startsWord "type" ts then
    let t ← g.typeForm false true
    return if t.hasColon || t.ty.isNone then .unwritable
      else .memberType attrs vis isDefault t.name t.generics [] t.ty t.conditions
  else if vis.isInherited && !isDefault && startsTemplatePath ts then templateItem attrs false
  else fail

/-- A member of a trait. -/
def Grammar.traitMember (g : Grammar) : Parse Item := do
  let attrs ← g.outerAttrs
  let vis ← visibility
  let isDefault ← word? "default"
  let ts ← ahead id
  let item ←
    if startsFn ts then do
      let sig ← g.signature
      if ← op? ";" then pure (.function attrs .inherited false sig none)
      else pure (.function attrs .inherited false sig (some (← g.body)))
    else if ← word? "const" then g.constantAfter attrs .inherited false true
    else if startsWord "type" ts then do
      let t ← g.typeForm false true
      pure (.memberType attrs .inherited false t.name t.generics t.bounds t.ty t.conditions)
    else if vis.isInherited && !isDefault && startsTemplatePath ts then templateItem attrs false
    else fail
  return if vis.isInherited && !isDefault then item else .unwritable

/-- A member of foreign code. -/
def Grammar.foreignMember (g : Grammar) : Parse Item := do
  let attrs ← g.outerAttrs
  let vis ← visibility
  let ts ← ahead id
  let safe := startsSafe ts
  let startsStatic := startsWord "static" ts ||
    ((startsWord "unsafe" ts || startsWord "safe" ts) && startsWord "static" (ts.drop 1))
  if startsFn ts || safe then
    let sig ← if safe then dropSafe g.signature else g.signature
    if ← ahead (startsGroup .brace) then
      let _ ← g.body
      return .unwritable
    else
      op ";"
      return if safe then .unwritable else .function attrs vis false sig none
  else if startsStatic then
    let isMarked := !startsWord "static" ts
    if isMarked then
      let _ ← name
    word "static"
    let isMut ← word? "mut"
    let id ← ident
    op ":"
    let ty ← g.ty true
    let value ← whenAhead (startsOp "=") (do op "="; g.expr true)
    op ";"
    return if isMarked || value.isSome then .unwritable else .static attrs vis isMut id ty none
  else if startsWord "type" ts then
    let t ← g.typeForm true true
    return if t.hasColon || t.ty.isSome then .unwritable
      else .foreignType attrs vis t.name t.generics
  else if vis.isInherited && startsTemplatePath ts then templateItem attrs false
  else fail
where
  /-- The tokens with the word `safe` behind `const` and `async` left out. -/
  withoutSafe : List Token → List Token
    | .ident "const" :: .ident "async" :: .ident "safe" :: rest =>
      .ident "const" :: .ident "async" :: rest
    | .ident "const" :: .ident "safe" :: rest => .ident "const" :: rest
    | .ident "async" :: .ident "safe" :: rest => .ident "async" :: rest
    | .ident "safe" :: rest => rest
    | ts => ts
  /-- Whether a function stands here that is marked as safe. -/
  startsSafe (ts : List Token) : Bool :=
    let rest := withoutSafe ts
    rest.length < ts.length && startsFn rest && !startsUnsafe rest
  /-- Whether `unsafe` stands behind `const` and `async`. -/
  startsUnsafe (ts : List Token) : Bool :=
    startsWord "unsafe" (ts.dropWhile fun t => startsWord "const" [t] || startsWord "async" [t])
  dropSafe {α : Type} (p : Parse α) : Parse α := fun ts => p (withoutSafe ts)

/-! ## Implementations, traits and modules -/

def Grammar.implementation (g : Grammar) (attrs : List Attr) (vis : Visibility) : Parse Item := do
  let isDefault ← word? "default"
  let isUnsafe ← word? "unsafe"
  word "impl"
  let generics ← if ← ahead startsGenerics then g.genericParams else pure []
  let isConst ← ahead fun ts => startsWord "const" ts ||
    (startsOp "?" ts && startsWord "const" (ts.drop 1))
  if isConst then
    let _ ← op? "?"
    word "const"
  let negative ←
    if ← ahead fun ts => startsOp "!" ts && !startsGroup .brace (ts.drop 1) then op? "!"
    else pure false
  let first ← g.ty true
  let isFor ← word? "for"
  let self ← if isFor then g.ty true else pure (if negative then .unwritable [] else first)
  let behaviour := match isFor, first with
    | true, .path (.mk none position leading segments) =>
      some (Path.mk none position leading segments)
    | _, _ => none
  let conditions ← g.conditions
  let items ← g.members g.implMember
  let qualifiers := (if isDefault then ["default"] else []) ++ if isUnsafe then ["unsafe"] else []
  return if !vis.isInherited || isConst || (isFor && behaviour.isNone) then .unwritable
    else .implementation attrs qualifiers generics negative behaviour self conditions items

/-- A trait, or another name for bounds. -/
def Grammar.trait (g : Grammar) (attrs : List Attr) (vis : Visibility) : Parse Item := do
  let isUnsafe ← word? "unsafe"
  let isAuto ← word? "auto"
  let qualifiers := (if isUnsafe then ["unsafe"] else []) ++ if isAuto then ["auto"] else []
  word "trait"
  let name ← ident
  let generics ← g.genericParams
  if qualifiers.isEmpty && (← op? "=") then
    let bounds ← plusWhile (fun ts => !(startsWord "where" ts || startsOp ";" ts))
      (g.bound ⟨false, false⟩)
    let conditions ← g.conditions
    op ";"
    return .traitAlias attrs vis name generics bounds conditions
  else
    let supertraits ← if ← op? ":" then
        g.plainBounds fun ts => !(startsWord "where" ts || startsGroup .brace ts)
      else pure []
    let conditions ← g.conditions
    return .trait attrs vis qualifiers name generics supertraits conditions
      (← g.members g.traitMember)

def Grammar.module (g : Grammar) (attrs : List Attr) (vis : Visibility) : Parse Item := do
  let isUnsafe ← word? "unsafe"
  word "mod"
  let name ← if ← ahead (startsWord "try") then name else ident
  if ← op? ";" then return .module attrs vis isUnsafe name [] false
  else return .module attrs vis isUnsafe name (← g.members g.item) true

def Grammar.foreign (g : Grammar) (attrs : List Attr) (vis : Visibility) : Parse Item := do
  let isUnsafe ← word? "unsafe"
  match ← abi? with
  | some abi =>
    let items ← g.members g.foreignMember
    if vis.isInherited then return .foreign attrs isUnsafe abi items else fail
  | none => fail

/-! ## Items -/

/-- A variable that lives as long as the program. -/
def Grammar.staticItem (g : Grammar) (attrs : List Attr) (vis : Visibility) : Parse Item := do
  word "static"
  let isMut ← word? "mut"
  let id ← ident
  if ← op? "=" then
    let _ ← g.expr true
    op ";"
    return .unwritable
  else
    op ":"
    let ty ← g.ty true
    if ← op? ";" then return .unwritable
    else
      op "="
      let value ← g.expr true
      op ";"
      return .static attrs vis isMut id ty (some value)

/-- The definition of a template by the word `macro`. -/
def templateDefinition : Parse Item := do
  word "macro"
  let _ ← ident
  let _ ← whenAhead (startsGroup .paren) (inside .paren)
  let _ ← inside .brace
  return .unwritable

/-- An item behind its attributes. -/
def Grammar.itemAfter (g : Grammar) (attrs : List Attr) : Parse Item := do
  let vis ← visibility
  let ts ← ahead id
  let next := ts.drop 1
  let startsTrait := fun ts => startsWord "trait" ts ||
    (startsWord "auto" ts && startsWord "trait" (ts.drop 1))
  let isUnsafe := startsWord "unsafe" ts
  if startsFn ts then g.functionItem attrs vis false
  else if startsWord "extern" ts && startsWord "crate" next then libraryItem attrs vis
  else if startsWord "extern" ts || (isUnsafe && startsWord "extern" next) then g.foreign attrs vis
  else if startsWord "use" ts then useItem attrs vis
  else if startsWord "static" ts then g.staticItem attrs vis
  else if ← word? "const" then g.constantAfter attrs vis false false
  else if startsWord "mod" ts || (isUnsafe && startsWord "mod" next) then g.module attrs vis
  else if startsTrait ts || (isUnsafe && startsTrait next) then g.trait attrs vis
  else if startsWord "impl" ts || (isUnsafe && startsWord "impl" next) ||
      (startsWord "default" ts && !startsOp "!" next) then
    g.implementation attrs vis
  else if startsWord "type" ts then
    let t ← g.typeForm true false
    return match t.hasColon, t.ty with
      | false, some ty => .typeAlias attrs vis t.name t.generics t.conditions ty
      | _, _ => .unwritable
  else if startsWord "struct" ts then g.structure attrs vis
  else if startsWord "enum" ts then g.enumeration attrs vis
  else if startsWord "union" ts && startsIdent next then g.union attrs vis
  else if startsWord "macro" ts then templateDefinition
  else if vis.isInherited && startsTemplatePath ts then templateItem attrs true
  else fail

def Grammar.readItem (g : Grammar) : Parse Item := do
  g.itemAfter (← g.outerAttrs)

end TypedRoutes.Syntax
