import TypedRoutes.Text.Words

/-!
# Path templates

* `Segment` : literal text, or a parameter with an optional constraint;
* `PathTemplate` : a template text with its segments;
* `PathTemplate.parse` : the segments of a text, or the first fault in it;
* `PathTemplate.substitute` : the path for given parameter values;
* `TemplateError` : the faults, with `TemplateError.message`.

A colon marks a parameter. Its name is the longest run of name characters that follows and begins
with no digit; a parenthesis right after it opens a constraint, which ends at the matching
parenthesis. A backslash inside a constraint takes the character after it out of the matching. No
two parameters of a template share a name.
-/

namespace TypedRoutes

open Text (isNameChar)

/-- A piece of a path template. -/
inductive Segment
  | literal (text : String)
  | parameter (name : String) (constraint : Option String)
  deriving DecidableEq, Repr, Inhabited

/-- Why a template has no segments, or no path for some values. -/
inductive TemplateError
  | emptyName (template : String) (position : Nat)
  | invalidName (template name : String)
  | unclosedConstraint (template name : String)
  | duplicateName (template name : String)
  | unboundName (name : String)
  deriving DecidableEq, Repr

def TemplateError.message : TemplateError → String
  | .emptyName t p => s!"parameter marker at byte {p} of '{t}' is not followed by a name"
  | .invalidName t n => s!"parameter name '{n}' in '{t}' must start with a letter or '_'"
  | .unclosedConstraint t n => s!"constraint of parameter '{n}' in '{t}' is not closed"
  | .duplicateName t n => s!"parameter '{n}' appears more than once in '{t}'"
  | .unboundName n => s!"no value supplied for path parameter '{n}'"

/-- A template text together with its segments. -/
structure PathTemplate where
  text : String
  segments : List Segment
  deriving DecidableEq, Repr, Inhabited

namespace Segment

/-- The segment as it is written in a template. -/
def unparse : Segment → String
  | literal t => t
  | parameter n none => ":" ++ n
  | parameter n (some c) => ":" ++ n ++ "(" ++ c ++ ")"

def name? : Segment → Option String
  | literal _ => none
  | parameter n _ => some n

end Segment

namespace PathTemplate

/-! ## Reading -/

/-- The body of a constraint up to its closing parenthesis, and what follows. `depth` counts the
parentheses open inside the body. -/
def constraint? : Nat → List Char → Option (List Char × List Char)
  | depth, '\\' :: c :: rest => (constraint? depth rest).map fun (b, r) => ('\\' :: c :: b, r)
  | depth, c :: rest =>
    if c = '\\' then none
    else if c = ')' then
      match depth with
      | 0 => some ([], rest)
      | d + 1 => (constraint? d rest).map fun (b, r) => (')' :: b, r)
    else (constraint? (if c = '(' then depth + 1 else depth) rest).map fun (b, r) => (c :: b, r)
  | _, [] => none

theorem constraint?_length {depth : Nat} {cs b r : List Char}
    (h : constraint? depth cs = some (b, r)) : r.length < cs.length := by
  fun_induction constraint? depth cs generalizing b r <;> simp_all <;> grind

/-- The fault of a parameter marker. -/
inductive Fault
  | emptyName
  | invalidName (name : List Char)
  | unclosedConstraint (name : List Char)
  | duplicateName (name : List Char)
  deriving DecidableEq, Repr

/-- The constraint that may follow a parameter name, and what follows it; `none` when it is left
open. -/
def optConstraint : List Char → Option (Option (List Char) × List Char)
  | '(' :: rest => (constraint? 0 rest).map fun (b, r) => (some b, r)
  | rest => some (none, rest)

theorem optConstraint_length {cs r : List Char} {b : Option (List Char)}
    (h : optConstraint cs = some (b, r)) : r.length ≤ cs.length := by
  unfold optConstraint at h
  split at h
  · obtain ⟨⟨b', r'⟩, h1, h2⟩ := Option.map_eq_some_iff.1 h
    have := constraint?_length h1
    grind
  · grind

/-- Segments with characters for text: what a scan of a template yields. -/
inductive Piece
  | text (cs : List Char)
  | param (name : List Char) (constraint : Option (List Char))
  deriving DecidableEq, Repr

/-- The pieces of a template from `cs` on. `lit` is the literal text read last, last character
first, and `seen` the names bound so far. A fault comes with the number of characters that remained
at its marker. -/
def scan (lit : List Char) (seen : List (List Char)) (cs : List Char) :
    Except (Fault × Nat) (List Piece) :=
  match cs with
  | [] => .ok (if lit.isEmpty then [] else [.text lit.reverse])
  | c :: rest =>
    if c = ':' then
      let name := rest.takeWhile isNameChar
      match name with
      | [] => .error (.emptyName, rest.length + 1)
      | d :: _ =>
        if d.isDigit then .error (.invalidName name, rest.length + 1)
        else match h : optConstraint (rest.dropWhile isNameChar) with
          | none => .error (.unclosedConstraint name, rest.length + 1)
          | some (k, rest') =>
            if name ∈ seen then .error (.duplicateName name, rest.length + 1)
            else do
              let ps ← scan [] (name :: seen) rest'
              return (if lit.isEmpty then [] else [.text lit.reverse]) ++ .param name k :: ps
    else scan (c :: lit) seen rest
termination_by cs.length
decreasing_by
  · have h1 := optConstraint_length h
    have h2 : (rest.dropWhile isNameChar).length ≤ rest.length :=
      (List.dropWhile_suffix _).length_le
    simp
    omega
  · simp

def Piece.segment : Piece → Segment
  | .text cs => .literal (String.ofList cs)
  | .param n k => .parameter (String.ofList n) (k.map String.ofList)

/-- The fault at a marker as an error of the template. `left` counts the characters from the marker
on. -/
def Fault.error (template : String) (left : Nat) : Fault → TemplateError
  | .emptyName =>
    .emptyName template
      (String.ofList (template.toList.take (template.length - left))).utf8ByteSize
  | .invalidName n => .invalidName template (String.ofList n)
  | .unclosedConstraint n => .unclosedConstraint template (String.ofList n)
  | .duplicateName n => .duplicateName template (String.ofList n)

/-- Read a template. -/
def parse (template : String) : Except TemplateError PathTemplate :=
  match scan [] [] template.toList with
  | .ok ps => .ok ⟨template, ps.map Piece.segment⟩
  | .error (f, left) => .error (f.error template left)

/-! ## Views -/

/-- The parameter names in template order. -/
def names (t : PathTemplate) : List String :=
  t.segments.filterMap Segment.name?

def hasParameter (t : PathTemplate) (name : String) : Bool :=
  name ∈ t.names

/-! ## Rendering -/

/-- The segments as text, by a form for literals and one for names. Constraints are dropped. -/
def render {ε : Type} (literal : String → String) (parameter : String → Except ε String) :
    List Segment → Except ε String
  | [] => .ok ""
  | .literal s :: rest => do return literal s ++ (← render literal parameter rest)
  | .parameter n _ :: rest => do
    let v ← parameter n
    return v ++ (← render literal parameter rest)

/-- The path in which every parameter is replaced by its value. -/
def substitute (t : PathTemplate) (value : String → Option String) :
    Except TemplateError String :=
  render id (fun n => match value n with
    | some v => .ok v
    | none => .error (.unboundName n)) t.segments

end PathTemplate

end TypedRoutes
