/-!
# Layout of text in lines

* `Doc` : text, places where a line may end, and groups of both;
* `box` : a group; an empty one leaves nothing behind;
* `Doc.isComplete` : whether every piece of a document has a layout;
* `Doc.width`, `Doc.toBreak` : how much stands in a document, and up to its next break;
* `render` : the text in lines. A group whose text up to the next break behind it does not fit into
  the rest of the line is broken: at all its breaks if it is consistent, otherwise at those whose
  text up to the next break does not fit;
* `flat` : the text in one line.

Widths are counted in octets.
-/

namespace TypedRoutes.Layout

/-- A place where a line may end. Unbroken it stands for `blank` spaces and `noBreak`; broken for
`preBreak`, a line end, the indentation of its group changed by `offset`, and `postBreak`. -/
structure Break where
  blank : Nat := 0
  offset : Int := 0
  preBreak : String := ""
  postBreak : String := ""
  noBreak : String := ""
  /-- The break is dropped at the end of a group. -/
  ifNonempty : Bool := false
  /-- The break never ends a line; it only ends the text that a break before it is judged by. -/
  never : Bool := false
  deriving DecidableEq, Repr, Inhabited

inductive Doc
  | text (s : String)
  /-- Nothing, but no line is wide enough for it. -/
  | wide
  /-- A piece that has no layout. -/
  | missing
  | brk (b : Break)
  | group (indent : Int) (consistent : Bool) (inner : List Doc)
  deriving Inhabited

/-- The columns a line may fill. -/
def margin : Nat := 89

/-- The columns a line may fill however deep it is indented. -/
def minSpace : Nat := 60

/-- One level of indentation. -/
def step : Int := 4

/-- A width that no line holds. -/
def endless : Nat := 65535

/-! ## Building documents -/

abbrev Docs := List Doc

def text (s : String) : Docs :=
  [.text s]

def brk (b : Break) : Docs :=
  [.brk b]

/-- The inside of a group without the break at its end that asks for more to follow. -/
def trimEnd (inner : Docs) : Docs :=
  match inner.getLast? with
  | some (.brk b) => if b.ifNonempty then inner.dropLast else inner
  | _ => inner

/-- A group. One that holds a single break is nothing. -/
def box (indent : Int) (consistent : Bool) (inner : Docs) : Docs :=
  match inner with
  | [.brk _] => []
  | _ => [.group indent consistent (trimEnd inner)]

/-- A group that is broken at all its breaks or at none. -/
def cbox (indent : Int) (inner : Docs) : Docs :=
  box indent true inner

/-- A group that is broken where it has to be. -/
def ibox (indent : Int) (inner : Docs) : Docs :=
  box indent false inner

def missing : Docs :=
  [.missing]

def zero : Docs := brk {}

def space : Docs := brk { blank := 1 }

def nbsp : Docs := text " "

/-- A line end. -/
def hard : Docs := brk { blank := endless }

def spaceIfNonempty : Docs := brk { blank := 1, ifNonempty := true }

def hardIfNonempty : Docs := brk { blank := endless, ifNonempty := true }

def never : Docs := brk { never := true }

/-- What follows an item of a list: behind the last one a comma only where the line ends. -/
def trailingComma (isLast : Bool) : Docs :=
  if isLast then brk { preBreak := "," } else text "," ++ space

/-- As `trailingComma`, with a space behind the last item of an unbroken list. -/
def trailingCommaOrSpace (isLast : Bool) : Docs :=
  if isLast then brk { blank := 1, preBreak := "," } else text "," ++ space

/-- Move the last break by `n` columns. -/
def offsetLast (n : Int) (ds : Docs) : Docs :=
  match ds.getLast? with
  | some (.brk b) => ds.dropLast ++ [.brk { b with offset := b.offset + n }]
  | _ => ds

/-- Move the last break back by one level. -/
def outdent (ds : Docs) : Docs :=
  offsetLast (-step) ds

/-- Every item together with whether it is the last one. -/
def withLast {α : Type} : List α → List (α × Bool)
  | [] => []
  | [a] => [(a, true)]
  | a :: rest => (a, false) :: withLast rest

/-- Items of a list, each followed as `trailingComma` says. -/
def commaList {α : Type} (item : α → Docs) (items : List α) : Docs :=
  (withLast items).flatMap fun (a, isLast) => item a ++ trailingComma isLast

/-! ## What can be written -/

mutual

/-- Whether every piece of a document has a layout. -/
def Doc.isComplete : Doc → Bool
  | .missing => false
  | .group _ _ inner => Doc.areComplete inner
  | _ => true

def Doc.areComplete : List Doc → Bool
  | [] => true
  | d :: rest => d.isComplete && Doc.areComplete rest

end

mutual

/-- The text at the end of a document, breaks apart. -/
def Doc.lastText? : Doc → Option String
  | .text s => if s.isEmpty then none else some s
  | .group _ _ inner => Doc.lastTextOf? inner
  | _ => none

def Doc.lastTextOf? : List Doc → Option String
  | [] => none
  | d :: rest => (Doc.lastTextOf? rest).or d.lastText?

end

/-! ## Widths -/

mutual

/-- The width of a document in one line. -/
def Doc.width : Doc → Nat
  | .text s => s.utf8ByteSize
  | .wide => endless
  | .missing => 0
  | .brk b => b.blank
  | .group _ _ inner => Doc.widths inner

def Doc.widths : List Doc → Nat
  | [] => 0
  | d :: rest => d.width + Doc.widths rest

end

/-- The width up to the next break, where `after` is the width behind the end of the list. -/
def Doc.toBreak (after : Nat) : List Doc → Nat
  | [] => after
  | .brk _ :: _ => 0
  | d :: rest => d.width + Doc.toBreak after rest

/-- A group that breaks when it is wider than `most`. -/
def boxAtMost (most : Nat) (indent : Int) (inner : Docs) : Docs :=
  match cbox indent inner with
  | [.group i c inner] =>
    if Doc.widths inner > most then [.group i c (inner ++ [.wide])]
    else [.group i c inner]
  | ds => ds

/-! ## Rendering -/

/-- What has been written: the text, the columns left in the line and the spaces due before the next
text. -/
structure Page where
  out : String
  space : Int
  pending : Nat
  deriving Repr, Inhabited

/-- Whether the innermost group is broken, and how. -/
structure Frame where
  indent : Int
  broken : Bool
  consistent : Bool
  deriving Repr, Inhabited

namespace Page

/-- Write the spaces that are due. -/
def flush (p : Page) : Page :=
  { p with out := p.out.pushn ' ' p.pending, pending := 0 }

def write (p : Page) (s : String) : Page :=
  let p := p.flush
  { p with out := p.out ++ s, space := p.space - s.utf8ByteSize }

/-- An unbroken break. -/
def keep (p : Page) (b : Break) : Page :=
  { out := p.out ++ b.noBreak
    space := p.space - b.blank - b.noBreak.utf8ByteSize
    pending := p.pending + b.blank }

/-- A line end with the indentation of the next line. -/
def newline (p : Page) (indent : Int) (b : Break) : Page :=
  let p := if b.preBreak.isEmpty then p else { p.flush with out := p.flush.out ++ b.preBreak }
  let column := (indent + b.offset).toNat
  let p : Page :=
    { out := p.out ++ "\n", space := max ((margin : Int) - column) minSpace, pending := column }
  if b.postBreak.isEmpty then p else p.write b.postBreak

end Page

mutual

/-- Write a document, where `after` is the width up to the next break behind it. -/
def Doc.put (f : Frame) (after : Nat) (p : Page) : Doc → Page
  | .text s => p.write s
  | .wide | .missing => p
  | .brk b =>
    if b.never ∨ ¬f.broken ∨ (¬f.consistent ∧ ((b.blank + after : Nat) : Int) ≤ p.space) then
      p.keep b
    else p.newline f.indent b
  | .group indent consistent inner =>
    if ((Doc.widths inner + after : Nat) : Int) > p.space then
      Doc.putAll ⟨f.indent + indent, true, consistent⟩ after p inner
    else Doc.putAll ⟨f.indent, false, consistent⟩ after p inner

def Doc.putAll (f : Frame) (after : Nat) (p : Page) : List Doc → Page
  | [] => p
  | d :: rest => Doc.putAll f after (d.put f (Doc.toBreak after rest) p) rest

end

/-- The text in lines. -/
def render (ds : Docs) : String :=
  (Doc.putAll ⟨0, true, false⟩ 0 ⟨"", margin, 0⟩ ds).out

/-! ## One line -/

mutual

/-- What a document consists of in one line, with a space at every break. -/
def Doc.pieces : Doc → List String
  | .text s => [s]
  | .wide | .missing => []
  | .brk b => [b.noBreak, " "]
  | .group _ _ inner => Doc.piecesAll inner

def Doc.piecesAll : List Doc → List String
  | [] => []
  | d :: rest => d.pieces ++ Doc.piecesAll rest

end

/-- The text in one line. -/
def flat (ds : Docs) : String :=
  String.join (Doc.piecesAll ds)

end TypedRoutes.Layout
