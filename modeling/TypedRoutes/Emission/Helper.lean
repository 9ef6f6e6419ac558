import TypedRoutes.Emission.Query
import TypedRoutes.Text.Alphanumeric

/-!
# Shared helpers

* `Helper` : a function or trait that emitted code may use; `Helper.code` : its definition;
* `firstToken?` : where a name stands first in a text as a whole identifier;
* `referenced` : the helpers that a text names, in the order of their first use.
-/

namespace TypedRoutes.Emission

open Syntax Code

/-- A definition that emitted code may use. -/
inductive Helper
  | queryReader
  | boolReader
  | enumCodec
  deriving DecidableEq, Repr, Inhabited

namespace Helper

def all : List Helper :=
  [queryReader, boolReader, enumCodec]

def name : Helper → String
  | queryReader => Emission.queryReader
  | boolReader => Emission.boolReader
  | enumCodec => Emission.enumCodec

/-! ## Definitions -/

/-- An arm of a selection. -/
def arm (pattern body : Code) : Code :=
  pattern ++ op "=>" ++ body ++ op ","

/-- A selection by pattern. -/
def choose (scrutinee : Code) (arms : List Code) : Code :=
  word "match" ++ scrutinee ++ braces arms.flatten

/-- A value of the query under a key, converted if it is there. -/
def queryReaderCode (tg : Target) : Code :=
  let mapType := generic (path ["std", "collections", "HashMap"]) [stringType, stringType]
  let value := generic option [word "T"]
  let converter := word "impl" ++ call (path ["core", "ops", "Fn"]) [strRef] ++ op "->" ++ value
  let converted := method
    (method (call (word "converter") [word "raw"]) "map" [member option "Some"])
    "ok_or_else" [thunk (tg.invalid (word "key") (word "raw"))]
  function (generic (word Emission.queryReader) [word "T"])
    [typed (word "key") strRef, typed (word "map") (refer mapType),
      typed (word "converter") converter]
    (generic result [value, tg.name ["DecodeError"]])
    (choose (method (word "map") "get" [word "key"])
      [arm absent (success absent), arm (present (word "raw")) converted])

/-- The two truth values by name. -/
def boolReaderCode : Code :=
  function (word Emission.boolReader) [typed (word "value") strRef] (generic option [word "bool"])
    (choose (word "value")
      [arm (str "true") (present (word "true")), arm (str "false") (present (word "false")),
        arm (word "_") absent])

/-- The head of a lookup in a table, by name or by value. -/
def lookupHead (name argument : String) (input output : Code) : Code :=
  word "fn" ++ word name ++ tuple [refer (word "self"), typed (word argument) (refer input)] ++
    op "->" ++ generic option [refer output]

/-- The first entry that satisfies a condition, and one half of it. -/
def lookupBody (entry condition half result : Code) : Code :=
  method (method (method (word "self") "iter" []) "find" [closure entry condition]) "map"
    [closure half result]

/-- Lookups in the table of an enumeration: the first entry counts. -/
def enumCodecCode : Code :=
  let named := generic (word Emission.enumCodec) [word "T"]
  let static := [Token.lifetime "'static"] ++ word "str"
  let fromName := lookupHead "from_name" "name" (word "str") (word "T")
  let toName := lookupHead "to_name" "value" (word "T") static
  let fst := fun name => tuple [word name, word "_"]
  let snd := fun name => tuple [word "_", word name]
  word "trait" ++ named ++ braces (fromName ++ op ";" ++ toName ++ op ";") ++
    word "impl" ++ op "<" ++ typed (word "T") (path ["core", "cmp", "PartialEq"]) ++ op ">" ++
    named ++ word "for" ++ Tokens.brackets (tuple [word "T", staticStr]) ++
    braces
      (fromName ++ braces (lookupBody (snd "n") (op "*" ++ word "n" ++ op "==" ++ word "name")
        (fst "v") (word "v")) ++
      toName ++ braces (lookupBody (fst "v") (word "v" ++ op "==" ++ word "value")
        (snd "n") (op "*" ++ word "n")))

def code (tg : Target) : Helper → Code
  | queryReader => queryReaderCode tg
  | boolReader => boolReaderCode
  | enumCodec => enumCodecCode

end Helper

/-! ## References in text -/

/-- A character that continues an identifier. -/
def continuesName (c : Char) : Bool :=
  Text.isAlphanumeric c || c = '_'

/-- What follows a name at the beginning of a text. -/
def afterName : List Char → List Char → Option (List Char)
  | [], cs => some cs
  | n :: ns, c :: cs => if n = c then afterName ns cs else none
  | _ :: _, [] => none

/-- The position where a name stands first as a whole identifier. `inName` says whether
the character before continues an identifier. -/
def firstTokenFrom (name : List Char) (inName : Bool) (position : Nat) : List Char → Option Nat
  | [] => none
  | c :: rest =>
    let stands :=
      match afterName name (c :: rest) with
      | some (d :: _) => !inName && !continuesName d
      | some [] => !inName
      | none => false
    if stands then some position
    else firstTokenFrom name (continuesName c) (position + 1) rest

/-- The position where a name stands first as a whole identifier. -/
def firstToken? (name text : String) : Option Nat :=
  firstTokenFrom name.toList false 0 text.toList

/-- The helpers that a text names, in the order of their first use. -/
def referenced (text : String) : List Helper :=
  let found := Helper.all.filterMap fun h => (firstToken? h.name text).map (·, h)
  (found.mergeSort fun a b => a.1 ≤ b.1).map (·.2)

end TypedRoutes.Emission
