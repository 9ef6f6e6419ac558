import TypedRoutes.Syntax.Printer.Type

/-!
# Writing patterns

* `Pat.docs` : a pattern;
* `rangeDocs` : a range, also of expressions.

Alternatives break all at once unless each of them is a literal or a wildcard.
-/

namespace TypedRoutes.Syntax

open Layout

/-- A literal or a wildcard. -/
def Pat.isSimple : Pat → Bool
  | .literal .. => true
  | .wild => true
  | _ => false

/-- The inside of a record in braces behind its name. Behind the last item a comma stands only where
the line ends. -/
def recordDocs (items : List Docs) (rest : Docs) : Docs :=
  spaceIfNonempty ++
    ((withLast items).flatMap fun (a, isLast) =>
      a ++ trailingCommaOrSpace (isLast && rest.isEmpty)) ++ rest

/-- A space if what stands before a dot ends with one. -/
def dotGap (before : Docs) : Docs :=
  match Doc.lastTextOf? before with
  | some t => if t.endsWith "." then nbsp else []
  | none => []

/-- A range between two ends, either of which may be missing. -/
def rangeDocs (start : Docs) (closed : Bool) (stop : Docs) : Docs :=
  start ++ dotGap start ++ text (if closed then "..=" else "..") ++ stop

mutual

def Pat.docs (s : Style) : Pat → Docs
  | .wild => text "_"
  | .rest => text ".."
  | .ident isRef isMut name sub =>
    wordIf isRef "ref" ++ wordIf isMut "mut" ++ text name ++
      (match sub with | some p => text " @ " ++ p.docs s | none => [])
  | .literal negative t => text ((if negative then "-" else "") ++ t)
  | .path p => p.docs s .expr
  | .constBlock expr => s.expr expr
  | .invocation call => call.docs s
  | .range start closed stop =>
    rangeDocs (match start with | some p => p.docs s | none => []) closed
      (match stop with | some p => p.docs s | none => [])
  | .tuple items trailing =>
    enclosed "("
      (match Pat.docsEach s items with
        | [a] => a ++ text (if trailing then "," else "") ++ zero
        | docs => commaDocs docs)
      ")"
  | .tupleRecord p items =>
    p.bareDocs s .expr ++ enclosed "(" (commaDocs (Pat.docsEach s items)) ")"
  | .record p fields rest =>
    cbox step (outdent (p.bareDocs s .expr ++ text " \x7b" ++
      recordDocs (FieldPat.docsEach s fields)
        (match rest with | some attrs => attrDocs s attrs ++ text ".." ++ space | none => []))) ++
      text "\x7d"
  | .reference isMut inner => text (if isMut then "&mut " else "&") ++ inner.docs s
  | .slice items => text "[" ++ commaDocs (Pat.docsEach s items) ++ text "]"
  | .alternatives cases =>
    box 0 (cases.any fun p => !p.isSimple) (separated (space ++ text "| ") (Pat.docsEach s cases))
  | .paren inner => text "(" ++ inner.docs s ++ text ")"
  | .typed inner ty => inner.docs s ++ text ": " ++ ty.docs s
  | .attributed attrs inner => attrDocs s attrs ++ inner.docs s
  | .unwritable => missing

def Pat.docsEach (s : Style) : List Pat → List Docs
  | [] => []
  | p :: rest => p.docs s :: Pat.docsEach s rest

def FieldPat.docs (s : Style) : FieldPat → Docs
  | .mk attrs member pat =>
    attrDocs s attrs ++ (match member with | some m => text (m ++ ": ") | none => []) ++ pat.docs s

def FieldPat.docsEach (s : Style) : List FieldPat → List Docs
  | [] => []
  | f :: rest => f.docs s :: FieldPat.docsEach s rest

end

end TypedRoutes.Syntax
