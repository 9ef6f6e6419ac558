import TypedRoutes.Syntax.Printer.Invocation

/-!
# Writing types and paths

* `Ty.docs`, `Path.docs`, `Bound.docs`, `GenericParam.docs` : a type, a path, a bound, a parameter
  of something generic;
* `Path.bareDocs` : a path without the type in front;
* `outputDocs` : the type that a function returns, behind its arrow;
* `genericDocs` : generic parameters in angle brackets.

Where a path stands decides about the generic arguments in it. In a type two colons before them are
left out; in an expression they are always written; the path of a trait in front of a type's own
name is a type.
-/

namespace TypedRoutes.Syntax

open Layout

/-! ## Lists -/

/-- Documents of a list in delimiters, one step deeper where the list is broken. -/
def enclosed (opening : String) (inner : Docs) (closing : String) : Docs :=
  text opening ++ cbox step (outdent (zero ++ inner)) ++ text closing

/-- Documents with a comma behind each but, in one line, the last. -/
def commaDocs (items : List Docs) : Docs :=
  commaList id items

/-- The inside of a tuple: a single item keeps its comma. -/
def tupleDocs : List Docs → Docs
  | [a] => a ++ text "," ++ zero
  | items => commaDocs items

/-- Documents with a separator between neighbours. -/
def separated (separator : Docs) : List Docs → Docs
  | [] => []
  | [a] => a
  | a :: rest => a ++ separator ++ separated separator rest

/-- Documents with a plus sign between neighbours, in one line. -/
def plusDocs (items : List Docs) : Docs :=
  separated (text " + ") items

/-- Documents with a plus sign between neighbours, where a line may end. -/
def brokenPlus (items : List Docs) : Docs :=
  separated (space ++ text "+ ") items

/-- Documents behind a colon, if there are any. -/
def colonDocs (items : List Docs) (joined : List Docs → Docs) : Docs :=
  if items.isEmpty then [] else text ": " ++ joined items

/-- Names of a path with two colons between them. -/
def pathDocs (leading : Bool) : List Docs → Docs
  | [] => []
  | a :: rest => (if leading then text "::" else []) ++ a ++ pathDocs true rest

/-- What is marked, in front of what is not. -/
def markedFirst (items : List (Bool × Docs)) : List Docs :=
  (items.filter (·.1) ++ items.filter (!·.1)).map (·.2)

/-! ## Parts of types -/

/-- Where a path stands. -/
inductive PathPlace
  | type
  | expr
  deriving DecidableEq, Repr

/-- Whether a generic argument is a lifetime. Lifetimes come first. -/
def GenericArg.isLifetime : GenericArg → Bool
  | .lifetime _ => true
  | _ => false

def GenericParam.isLifetime : GenericParam → Bool
  | .lifetime .. => true
  | _ => false

/-- Generic arguments in angle brackets, each with whether it is a lifetime; nothing if there is
none. -/
def angleDocs (place : PathPlace) (args : List (Bool × Docs)) : Docs :=
  if args.isEmpty then []
  else enclosed (if place = .expr then "::<" else "<") (commaDocs (markedFirst args)) ">"

/-- A name in front of a colon, unless it is empty. -/
def nameColon (name : String) : Docs :=
  if name.isEmpty then [] else text (name ++ ": ")

def Abi.docs (a : Abi) : Docs :=
  text "extern " ++
    match a.name with
    | some name => text name ++ nbsp
    | none => []

def abiDocs : Option Abi → Docs
  | some a => a.docs
  | none => []

/-- A word with a space behind it, or nothing. -/
def wordIf (condition : Bool) (word : String) : Docs :=
  if condition then text (word ++ " ") else []

/-- The parameters that a bound or a function pointer binds, in one line. -/
def binderText (params : List (Bool × Docs)) : Docs :=
  text "for<" ++ separated (text ", ") (params.map (·.2)) ++ text "> "

def OpenInput.docs (s : Style) (r : OpenInput) : Docs :=
  attrDocs s r.attrs ++ nameColon r.name ++ text "..."

/-! ## Types -/

mutual

def Ty.docs (s : Style) : Ty → Docs
  | .path p => p.docs s .type
  | .reference lifetime isMut target =>
    text "&" ++ (match lifetime with | some l => text (l ++ " ") | none => []) ++
      wordIf isMut "mut" ++ target.docs s
  | .pointer isMut target => text (if isMut then "*mut " else "*const ") ++ target.docs s
  | .slice item => text "[" ++ item.docs s ++ text "]"
  | .array item length => text "[" ++ item.docs s ++ text "; " ++ s.expr length ++ text "]"
  | .tuple items => enclosed "(" (tupleDocs (Ty.docsEach s items)) ")"
  | .paren inner => text "(" ++ inner.docs s ++ text ")"
  | .function binder isUnsafe abi inputs rest output =>
    let items := PointerInput.docsEach s inputs
    (match binder with | some ps => binderText (GenericParam.docsEach s ps) | none => []) ++
      wordIf isUnsafe "unsafe" ++ abiDocs abi ++
      enclosed "fn("
        (match rest with
          | some r =>
            items.flatMap (· ++ text "," ++ space) ++ r.docs s ++ zero
          | none => commaDocs items)
        ")" ++
      (match output with | some t => text " -> " ++ t.docs s | none => [])
  | .never => text "!"
  | .infer => text "_"
  | .existential bounds => text "impl " ++ plusDocs (Bound.docsEach s bounds)
  | .object bounds => text "dyn " ++ plusDocs (Bound.docsEach s bounds)
  | .invocation call => call.docs s
  | .unwritable _ => missing

def Ty.docsEach (s : Style) : List Ty → List Docs
  | [] => []
  | t :: rest => t.docs s :: Ty.docsEach s rest

def PointerInput.docs (s : Style) : PointerInput → Docs
  | .mk attrs name ty => attrDocs s attrs ++ nameColon name ++ ty.docs s

def PointerInput.docsEach (s : Style) : List PointerInput → List Docs
  | [] => []
  | i :: rest => i.docs s :: PointerInput.docsEach s rest

def Path.docs (s : Style) (place : PathPlace) : Path → Docs
  | .mk none _ leading segments => pathDocs leading (Segment.docsEach s place segments)
  | .mk (some ty) position leading segments =>
    let trait := (Segment.docsEach s .type segments).take position
    text "<" ++ ty.docs s ++
      (if trait.isEmpty then [] else text " as " ++ pathDocs leading trait) ++ text ">" ++
      pathDocs true ((Segment.docsEach s place segments).drop position)

def Segment.docs (s : Style) (place : PathPlace) : Segment → Docs
  | .plain name => text name
  | .angle name args => text name ++ angleDocs place (GenericArg.docsEach s args)
  | .paren name inputs output =>
    text name ++
      cbox step (outdent (text "(" ++ zero ++ commaDocs (Ty.docsEach s inputs)) ++ text ")" ++
        (match output with | some t => text " -> " ++ t.docs s | none => []))

def Segment.docsEach (s : Style) (place : PathPlace) : List Segment → List Docs
  | [] => []
  | a :: rest => a.docs s place :: Segment.docsEach s place rest

def GenericArg.docs (s : Style) : GenericArg → Docs
  | .lifetime name => text name
  | .type ty => ty.docs s
  | .value expr => s.expr expr
  | .assocType name generics ty =>
    text name ++ angleDocs .type (GenericArg.docsEach s generics) ++ text " = " ++ ty.docs s
  | .assocValue name generics expr =>
    text name ++ angleDocs .type (GenericArg.docsEach s generics) ++ text " = " ++ s.expr expr
  | .bounded name generics bounds =>
    text name ++ angleDocs .type (GenericArg.docsEach s generics) ++
      ibox step (colonDocs (Bound.docsEach s bounds) brokenPlus)

def GenericArg.docsEach (s : Style) : List GenericArg → List (Bool × Docs)
  | [] => []
  | a :: rest => (a.isLifetime, a.docs s) :: GenericArg.docsEach s rest

def Bound.docs (s : Style) : Bound → Docs
  | .lifetime name => text name
  | .trait parenthesized relaxed binder p =>
    text (if parenthesized then "(" else "") ++ text (if relaxed then "?" else "") ++
      (match binder with | some ps => binderText (GenericParam.docsEach s ps) | none => []) ++
      p.docs s .type ++ text (if parenthesized then ")" else "")
  | .capture names =>
    let (lifetimes, others) := names.partition (·.startsWith "'")
    text ("use<" ++ ", ".intercalate (lifetimes ++ others) ++ ">")
  | .unwritable _ => missing

def Bound.docsEach (s : Style) : List Bound → List Docs
  | [] => []
  | b :: rest => b.docs s :: Bound.docsEach s rest

def GenericParam.docs (s : Style) : GenericParam → Docs
  | .lifetime attrs name bounds =>
    attrDocs s attrs ++ text name ++ colonDocs (bounds.map text) plusDocs
  | .type attrs name bounds fallback =>
    attrDocs s attrs ++ text name ++
      ibox step (colonDocs (Bound.docsEach s bounds) brokenPlus ++
        (match fallback with | some t => space ++ text "= " ++ t.docs s | none => []))
  | .value attrs name ty fallback =>
    attrDocs s attrs ++ text ("const " ++ name ++ ": ") ++ ty.docs s ++
      (if fallback.isEmpty then [] else text " = " ++ s.expr fallback)

def GenericParam.docsEach (s : Style) : List GenericParam → List (Bool × Docs)
  | [] => []
  | p :: rest => (p.isLifetime, p.docs s) :: GenericParam.docsEach s rest

end

def binderDocs (s : Style) : Binder → Docs
  | some ps => binderText (GenericParam.docsEach s ps)
  | none => []

/-- A path without the type in front. -/
def Path.bareDocs (s : Style) (place : PathPlace) : Path → Docs
  | .mk _ _ leading segments => pathDocs leading (Segment.docsEach s place segments)

/-- The type that a function returns, behind its arrow. -/
def outputDocs (s : Style) : Option Ty → Docs
  | none => []
  | some t => text " -> " ++ t.docs s

/-- Generic parameters in angle brackets. -/
def genericDocs (s : Style) (params : List GenericParam) : Docs :=
  if params.isEmpty then []
  else
    let items := markedFirst (GenericParam.docsEach s params)
    text "<" ++ cbox 0 (outdent (zero ++ commaDocs items)) ++ text ">"

end TypedRoutes.Syntax
