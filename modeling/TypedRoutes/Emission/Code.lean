import TypedRoutes.Syntax.Token
import TypedRoutes.Text.Quoted

/-!
# Building code

* `Code` : a piece of emitted code, as tokens;
* `Code.path`, `Code.call`, `Code.method`, `Code.closure`, … : code made of smaller pieces;
* `typeTokens` : a type in the spelling that emitted code has for it.

Names that emitted code takes from the standard library are written out from its root, so that
nothing in scope can hide them.
-/

namespace TypedRoutes.Emission

open Syntax

/-- A piece of emitted code. -/
abbrev Code := List Token

namespace Code

/-! ## Names and literals -/

def word (text : String) : Code :=
  Tokens.word text

def op (text : String) : Code :=
  Tokens.op text

/-- A text literal. -/
def str (text : String) : Code :=
  [.literal (Text.Quoted.encode text)]

/-- A path from the root of all names. -/
def path (names : List String) : Code :=
  names.flatMap fun n => op "::" ++ word n

/-- A name inside a path. -/
def member (owner : Code) (name : String) : Code :=
  owner ++ op "::" ++ word name

/-- A generic type with its arguments. -/
def generic (base : Code) (args : List Code) : Code :=
  base ++ op "<" ++ Tokens.commaSeparated args ++ op ">"

/-! ## Expressions -/

def parens (inner : Code) : Code :=
  Tokens.parens inner

def tuple (items : List Code) : Code :=
  Tokens.parens (Tokens.commaSeparated items)

def brackets (items : List Code) : Code :=
  Tokens.brackets (Tokens.commaSeparated items)

def braces (inner : Code) : Code :=
  Tokens.braces inner

def call (callee : Code) (args : List Code) : Code :=
  callee ++ tuple args

/-- A method called on a receiver. -/
def method (receiver : Code) (name : String) (args : List Code) : Code :=
  receiver ++ op "." ++ call (word name) args

def field (receiver : Code) (name : String) : Code :=
  receiver ++ op "." ++ word name

def refer (value : Code) : Code :=
  op "&" ++ value

/-- Leave the function with the fault of a value, if it has one. -/
def propagate (value : Code) : Code :=
  value ++ op "?"

/-- A closure of one parameter. -/
def closure (parameter body : Code) : Code :=
  op "|" ++ parameter ++ op "|" ++ body

/-- A closure without parameters. -/
def thunk (body : Code) : Code :=
  op "||" ++ body

/-- A call of a code template. -/
def invoke (template : Code) (arguments : Code) : Code :=
  template ++ op "!" ++ arguments

/-! ## Statements and items -/

def bind (name value : Code) : Code :=
  word "let" ++ name ++ op "=" ++ value ++ op ";"

/-- A name with its type. -/
def typed (name type : Code) : Code :=
  name ++ op ":" ++ type

/-- A function; the inputs are written with their types. -/
def function (name : Code) (inputs : List Code) (output body : Code) : Code :=
  word "fn" ++ name ++ tuple inputs ++ (if output.isEmpty then [] else op "->" ++ output) ++
    braces body

def publicFunction (name : Code) (inputs : List Code) (output body : Code) : Code :=
  word "pub" ++ function name inputs output body

/-! ## Standard names -/

def option : Code :=
  path ["core", "option", "Option"]

def present (value : Code) : Code :=
  call (member option "Some") [value]

def absent : Code :=
  member option "None"

def result : Code :=
  path ["core", "result", "Result"]

def success (value : Code) : Code :=
  call (member result "Ok") [value]

def stringType : Code :=
  path ["std", "string", "String"]

def stringOf (value : Code) : Code :=
  call (member stringType "from") [value]

def vecType : Code :=
  path ["std", "vec", "Vec"]

def strRef : Code :=
  refer (word "str")

/-- A reference to a text that lives as long as the program. -/
def staticStr : Code :=
  op "&" ++ [.lifetime "'static"] ++ word "str"

def dynRef (trait : Code) : Code :=
  op "&" ++ word "dyn" ++ trait

end Code

/-! ## Types -/

/-- Angle brackets that are still open: whether lifetimes come first in them, the arguments read so
far, last first, each with whether a comma follows it, and the code before them, last first. -/
structure OpenAngle where
  sorts : Bool
  args : List (Code × Bool)
  before : Code
  deriving Inhabited

/-- Arguments with the commas that follow them. -/
def spellArgs (args : List (Code × Bool)) : Code :=
  args.flatMap fun (code, comma) => code ++ if comma then Code.op "," else []

/-- Arguments with the lifetimes first. A comma separates the two kinds. -/
def lifetimesFirst (args : List (Code × Bool)) : Code :=
  let (lifetimes, others) := args.partition fun (code, _) => code matches [.lifetime _]
  let apart := others.isEmpty || (lifetimes.getLast?.map (·.2)).getD true
  spellArgs lifetimes ++ (if apart then [] else Code.op ",") ++ spellArgs others

/-- The code of angle brackets that are closed behind `last`. -/
def OpenAngle.close (a : OpenAngle) (last : Code) : Code :=
  let args := (if last.isEmpty then a.args else (last, false) :: a.args).reverse
  Code.op "<" ++ (if a.sorts then lifetimesFirst args else spellArgs args) ++ Code.op ">"

mutual

/-- A token of a type, spelled as `typeTokens` does. -/
def spellToken : Token → Token
  | .group .paren inner => .group .paren (spellType [] [] inner)
  | .group .bracket inner => .group .bracket (spellType [] [] inner)
  | t => t

/-- Spell the rest of a type. `outer` holds the open angle brackets, and `done` what has been
spelled in the innermost ones, last first. -/
def spellType (outer : List OpenAngle) (done : Code) : List Token → Code
  | [] => done.reverse
  | .punct ':' true :: .punct ':' _ :: rest => spellType outer ((Code.op "::").reverse ++ done) rest
  | .punct '-' true :: .punct '>' _ :: rest => spellType outer ((Code.op "->").reverse ++ done) rest
  | .punct '.' true :: .punct '.' true :: .punct '.' _ :: rest =>
    spellType outer ((Code.op "...").reverse ++ done) rest
  | .punct ';' _ :: rest => done.reverse ++ Code.op ";" ++ rest
  | .punct '<' _ :: rest =>
    let binds := done.head? matches some (.ident "for")
    spellType (⟨!binds, [], done⟩ :: outer) [] rest
  | .punct c _ :: rest =>
    match outer with
    | [] => spellType [] (.punct c false :: done) rest
    | a :: outer =>
      if c = '>' then spellType outer ((a.close done.reverse).reverse ++ a.before) rest
      else if c = ',' then
        spellType ({ a with args := (done.reverse, true) :: a.args } :: outer) [] rest
      else spellType (a :: outer) (.punct c false :: done) rest
  | t :: rest =>
    let isMarked := done.head? matches some (.punct '!' _) | some (.punct '#' _)
    spellType outer ((if isMarked then t else spellToken t) :: done) rest

end

/-- The tokens of a type with its characters joined only within the operators of a type, and with
lifetimes first among generic arguments. The length of an array, the arguments of a template and
what stands in braces stay as they are. -/
def typeTokens (ts : List Token) : Code :=
  spellType [] [] ts

end TypedRoutes.Emission
