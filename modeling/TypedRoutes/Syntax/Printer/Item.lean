import TypedRoutes.Syntax.Parser.Item
import TypedRoutes.Syntax.Printer.Expr

/-!
# Writing items

* `conditionDocs`, `Signature.docs`, `Fields.docs`, `UseTree.docs`, … : parts of items;
* `Item.docs` : an item with a line end behind it.
-/

namespace TypedRoutes.Syntax

open Layout

/-! ## Conditions -/

/-- A condition on what is generic. -/
def Predicate.docs (s : Style) : Predicate → Docs
  | .lifetime name bounds => text (name ++ ":") ++ ibox step (bounded (bounds.map text))
  | .type binder ty bounds =>
    binderDocs s binder ++ ty.docs s ++ text ":" ++
      ibox (if bounds.length = 1 then 0 else step) (bounded (Bound.docsEach s bounds))
where
  /-- The bounds behind the colon. -/
  bounded (bounds : List Docs) : Docs :=
    (if bounds.isEmpty then [] else nbsp) ++ brokenPlus bounds

/-- Conditions in front of a body, each on a line of its own; a space where there is none. -/
def bodyConditions (s : Style) (conditions : List Predicate) : Docs :=
  if conditions.isEmpty then nbsp
  else offsetLast (-step) hard ++ text "where" ++ hard ++
    outdent (conditions.flatMap fun p => p.docs s ++ text "," ++ hard)

/-- Conditions at the end of an item, each on a line of its own, and the semicolon behind them. -/
def endConditions (s : Style) (conditions : List Predicate) : Docs :=
  if conditions.isEmpty then text ";"
  else offsetLast (-step) hard ++ text "where" ++ hard ++
    separated (text "," ++ hard) (conditions.map (Predicate.docs s)) ++ text ";"

/-- Conditions in front of a definition, in one line if they fit. -/
def innerConditions (s : Style) (conditions : List Predicate) : Docs :=
  if conditions.isEmpty then nbsp
  else offsetLast (-step) space ++ text "where" ++ space ++
    outdent ((withLast conditions).flatMap fun (p, isLast) =>
      p.docs s ++ trailingCommaOrSpace isLast)

/-- Conditions behind a definition, in one line if they fit, and the semicolon behind them. -/
def lastConditions (s : Style) (conditions : List Predicate) : Docs :=
  if conditions.isEmpty then text ";"
  else offsetLast (-step) space ++ text "where" ++ space ++
    separated (text "," ++ space) (conditions.map (Predicate.docs s)) ++ text ";"

/-! ## Functions -/

/-- The type of a parameter, or the dots of an open end, behind its pattern. -/
def FnInput.docs (s : Style) : FnInput → Docs
  | .receiver attrs isRef lifetime isMut ty =>
    attrDocs s attrs ++ text (if isRef then "&" else "") ++
      (match lifetime with | some l => text (l ++ " ") | none => []) ++
      wordIf isMut "mut" ++ text "self" ++
      (match ty with | some t => text ": " ++ t.docs s | none => [])
  | .typed attrs pat ty => attrDocs s attrs ++ pat.docs s ++ text ": " ++ ty.docs s
  | .rest attrs pat =>
    attrDocs s attrs ++ (match pat with | some p => p.docs s ++ text ": " | none => []) ++
      text "..."

/-- The parameters of a function. No comma follows an open end. -/
def inputDocs (s : Style) (inputs : List FnInput) : Docs :=
  (withLast inputs).flatMap fun (i, isLast) =>
    i.docs s ++ if i.isRest then zero else trailingComma isLast

/-- A function in front of its body. -/
def Signature.docs (s : Style) (f : Signature) : Docs :=
  wordIf f.isConst "const" ++ wordIf f.isAsync "async" ++ wordIf f.isUnsafe "unsafe" ++
    abiDocs f.abi ++ text ("fn " ++ f.name) ++ genericDocs s f.generics ++ text "(" ++
    never ++ cbox 0 (outdent (zero ++ inputDocs s f.inputs)) ++ text ")" ++
    cbox (-step) (outputDocs s f.output)

/-! ## Fields and names -/

def Visibility.docs : Visibility → Docs
  | .inherited => []
  | .exported => text "pub "
  | .within path =>
    let isShort := !path.leading && [["self"], ["super"], ["crate"]].contains path.names
    text "pub(" ++ wordIf (!isShort) "in" ++ text path.text ++ text ") "

def Field.docs (s : Style) (f : Field) : Docs :=
  attrDocs s f.attrs ++ f.visibility.docs ++
    (match f.name with | some n => text (n ++ ": ") | none => []) ++ f.ty.docs s

/-- Fields in parentheses, one step deeper than the item they belong to. -/
def unnamedDocs (s : Style) (fields : List Field) : Docs :=
  text "(" ++ outdent (zero ++ commaDocs (fields.map (Field.docs s))) ++ text ")"

/-- Documents on lines of their own, each with a comma behind it. -/
def lineDocs (items : List Docs) : Docs :=
  items.flatMap (· ++ text "," ++ hard)

def Variant.docs (s : Style) (v : Variant) : Docs :=
  attrDocs s v.attrs ++ text v.name ++
    (match v.fields with
      | .none => []
      | .named fields =>
        let items := (withLast (fields.map (Field.docs s))).flatMap fun (d, isLast) =>
          d ++ trailingCommaOrSpace isLast
        nbsp ++ text "\x7b" ++ cbox step (outdent (space ++ items)) ++ text "\x7d"
      | .unnamed fields => cbox step (unnamedDocs s fields)) ++
    (match v.value with | some e => text " = " ++ s.value e | none => [])

/-- Whether names in braces stand at the end of a tree. -/
def UseTree.endsWithGroup : UseTree → Bool
  | .path _ tree => tree.endsWithGroup
  | .group _ => true
  | _ => false

/-- Whether a tree alone in braces keeps them. -/
def UseTree.isSelf : UseTree → Bool
  | .name n => n = "self"
  | .rename n _ => n = "self"
  | _ => false

/-- Trees with a comma between neighbours, each with whether a line ends behind it. -/
def treeDocs : List (Bool × Docs) → Docs
  | [] => []
  | [(_, d)] => d
  | (ends, d) :: rest => d ++ text "," ++ (if ends then hard else space) ++ treeDocs rest

/-- Trees in braces. -/
def useBraces (items : List (Bool × Docs)) : Docs :=
  text "\x7b" ++
    (if items.isEmpty then []
      else cbox step (outdent (zero ++ ibox 0 (treeDocs items) ++ trailingComma true))) ++
    text "\x7d"

mutual

/-- A tree of names. One name alone goes without braces. -/
def UseTree.docs : UseTree → Docs
  | .path n tree => text (n ++ "::") ++ tree.docs
  | .name n => text n
  | .rename n newName => text (n ++ " as " ++ newName)
  | .glob => text "*"
  | .group trees =>
    match trees, UseTree.docsEach trees with
    | [tree], [(ends, d)] => if tree.isSelf then useBraces [(ends, d)] else d
    | _, docs => useBraces docs

def UseTree.docsEach : List UseTree → List (Bool × Docs)
  | [] => []
  | t :: rest => (t.endsWithGroup, t.docs) :: UseTree.docsEach rest

end

/-! ## Items -/

/-- The inside of an item in braces, one step deeper than the item. -/
def itemBody (start inner : Docs) : Docs :=
  cbox step (outdent (start ++ text "\x7b" ++ hardIfNonempty ++ inner)) ++ text "\x7d" ++ hard

/-- An item that is a name with its type and perhaps a value. -/
def valueDocs (s : Style) (start : Docs) (name : String) (ty : Ty) (value : Option Expr) : Docs :=
  cbox 0 (start ++ text (name ++ ": ") ++ ty.docs s ++
    (match value with | some e => text " = " ++ never ++ s.value e | none => []) ++
    text ";") ++ hard

mutual

/-- An item and the line end behind it. -/
def Item.docs (s : Style) : Item → Docs
  | .function attrs visibility isDefault signature body =>
    let start := visibility.docs ++ wordIf isDefault "default" ++ signature.docs s
    attrDocs s attrs ++
      match body with
      | some stmts =>
        itemBody (start ++ bodyConditions s signature.conditions) (s.stmts stmts)
      | none => cbox step (start ++ endConditions s signature.conditions) ++ hard
  | .constant attrs visibility isDefault name ty value =>
    attrDocs s attrs ++ valueDocs s
      (visibility.docs ++ wordIf isDefault "default" ++ text "const ") name ty value
  | .static attrs visibility isMut name ty value =>
    attrDocs s attrs ++ valueDocs s
      (visibility.docs ++ text "static " ++ wordIf isMut "mut") name ty value
  | .typeAlias attrs visibility name generics conditions ty =>
    attrDocs s attrs ++ cbox step (visibility.docs ++ text ("type " ++ name) ++
      genericDocs s generics ++ innerConditions s conditions ++ text "= " ++ never ++
      ibox (-step) (ty.docs s) ++ text ";") ++ hard
  | .memberType attrs visibility isDefault name generics bounds ty conditions =>
    attrDocs s attrs ++ cbox step (visibility.docs ++ wordIf isDefault "default" ++
      text ("type " ++ name) ++ genericDocs s generics ++
      colonDocs (Bound.docsEach s bounds) brokenPlus ++
      (match ty with
        | some t => text " = " ++ never ++ ibox (-step) (t.docs s)
        | none => []) ++
      lastConditions s conditions) ++ hard
  | .foreignType attrs visibility name generics =>
    attrDocs s attrs ++ cbox 0 (visibility.docs ++ text ("type " ++ name) ++
      genericDocs s generics ++ text ";") ++ hard
  | .record attrs visibility keyword name generics conditions fields =>
    let start := visibility.docs ++ text (keyword ++ " " ++ name) ++ genericDocs s generics
    attrDocs s attrs ++
      match fields with
      | .named fields =>
        itemBody (start ++ bodyConditions s conditions) (lineDocs (fields.map (Field.docs s)))
      | .unnamed fields =>
        cbox step (start ++ unnamedDocs s fields ++ endConditions s conditions) ++ hard
      | .none => cbox step (start ++ endConditions s conditions) ++ hard
  | .enumeration attrs visibility name generics conditions variants =>
    attrDocs s attrs ++ itemBody
      (visibility.docs ++ text ("enum " ++ name) ++ genericDocs s generics ++
        bodyConditions s conditions)
      (lineDocs (variants.map (Variant.docs s)))
  | .implementation attrs qualifiers generics negative behaviour self conditions items =>
    let head := ibox (-step) (
      cbox step (qualifiers.flatMap (wordIf true) ++ text "impl" ++ genericDocs s generics) ++
      nbsp ++
      (match behaviour with
        | some p => text (if negative then "!" else "") ++ p.docs s .type ++ space ++ text "for "
        | none => []) ++
      self.docs s)
    attrDocs s attrs ++ itemBody (head ++ bodyConditions s conditions) (Item.docsEach s items)
  | .trait attrs visibility qualifiers name generics supertraits conditions items =>
    attrDocs s attrs ++ itemBody
      (visibility.docs ++ qualifiers.flatMap (wordIf true) ++ text ("trait " ++ name) ++
        genericDocs s generics ++ colonDocs (Bound.docsEach s supertraits) plusDocs ++
        bodyConditions s conditions)
      (Item.docsEach s items)
  | .traitAlias attrs visibility name generics bounds conditions =>
    attrDocs s attrs ++ cbox step (visibility.docs ++ text ("trait " ++ name) ++
      genericDocs s generics ++ text " = " ++ never ++ brokenPlus (Bound.docsEach s bounds) ++
      endConditions s conditions) ++ hard
  | .module attrs visibility isUnsafe name items hasBody =>
    let start := visibility.docs ++ wordIf isUnsafe "unsafe" ++ text ("mod " ++ name)
    attrDocs s attrs ++
      if hasBody then itemBody (start ++ nbsp) (Item.docsEach s items)
      else cbox step (start ++ text ";") ++ hard
  | .foreign attrs isUnsafe abi items =>
    attrDocs s attrs ++
      itemBody (wordIf isUnsafe "unsafe" ++ abi.docs) (Item.docsEach s items)
  | .library attrs visibility name newName =>
    attrDocs s attrs ++ visibility.docs ++ text ("extern crate " ++ name) ++
      (match newName with | some n => text (" as " ++ n) | none => []) ++ text ";" ++ hard
  | .use attrs visibility leading tree =>
    attrDocs s attrs ++ visibility.docs ++ text (if leading then "use ::" else "use ") ++
      tree.docs ++ text ";" ++ hard
  | .invocation attrs call => attrDocs s attrs ++ call.itemDocs s ++ hard
  | .template attrs name call => attrDocs s attrs ++ templateDocs s name call ++ hard
  | .innerAttr attr => attr.docs s
  | .unwritable => missing

/-- Items with a line end behind each. -/
def Item.docsEach (s : Style) : List Item → Docs
  | [] => []
  | i :: rest => i.docs s ++ Item.docsEach s rest

end

end TypedRoutes.Syntax
