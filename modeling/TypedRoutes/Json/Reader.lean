import TypedRoutes.Json.Value

/-!
# Reading JSON

* `Json.parse` : the value of a text that holds one value and nothing else but blanks;
* `Json.parseWhole` : the same for a value all of which can be read;
* `maxDepth` : how deep arrays and objects may be nested in what is read.

Each reader takes characters from the front of a list and returns what follows. Numbers must not be
larger than the largest of double precision. A text that holds half of a surrogate pair is a value
that can only be skipped.
-/

namespace TypedRoutes.Json

/-- How deep arrays and objects may be nested. -/
def maxDepth : Nat := 127

def isBlank (c : Char) : Bool :=
  c = ' ' || c = '\t' || c = '\n' || c = '\r'

def skipBlanks (cs : List Char) : List Char :=
  cs.dropWhile isBlank

/-! ## Numbers -/

/-- One or more digits. -/
def digits (cs : List Char) : Option (List Char × List Char) :=
  match cs.takeWhile Char.isDigit with
  | [] => none
  | ds => some (ds, cs.dropWhile Char.isDigit)

/-- The digits before the point: a zero stands alone. -/
def wholePart : List Char → Option (List Char × List Char)
  | '0' :: rest => if (rest.head?.map Char.isDigit).getD false then none else some (['0'], rest)
  | cs => digits cs

/-- The digits behind the point, if there is one. -/
def fraction : List Char → Option (List Char × List Char)
  | '.' :: rest => digits rest
  | cs => some ([], cs)

/-- A decimal number from its digits, most significant first. -/
def decimal (ds : List Char) : Nat :=
  ds.foldl (fun n c => 10 * n + (c.toNat - 48)) 0

/-- The exponent with its sign, if there is one. -/
def exponent : List Char → Option (Int × List Char)
  | c :: rest =>
    if c = 'e' ∨ c = 'E' then
      match rest with
      | '-' :: rest => (digits rest).map fun (ds, r) => (-(decimal ds : Int), r)
      | '+' :: rest => (digits rest).map fun (ds, r) => ((decimal ds : Int), r)
      | rest => (digits rest).map fun (ds, r) => ((decimal ds : Int), r)
    else some (0, c :: rest)
  | [] => some (0, [])

/-- The least number that rounds to no number of double precision. -/
def tooLarge : Nat :=
  Nat.pow 2 1024 - Nat.pow 2 970

/-- A whole number as double precision keeps it: its 53 leading bits, of two nearest neighbours the
even one. -/
def rounded (n : Nat) : Nat :=
  let unit := Nat.pow 2 (n.log2 - 52)
  let down := n / unit * unit
  let rest := n % unit
  if 2 * rest > unit || (2 * rest = unit && n / unit % 2 = 1) then down + unit else down

/-- The largest exponent whose power of ten has a double precision. -/
def maxExponent : Nat := 308

/-- Whether `m` times ten to the power `e` is beyond double precision. Both factors are rounded
before they are multiplied. -/
def overflows (m : Nat) (e : Int) : Bool :=
  m ≠ 0 && e ≥ 0 &&
    (e > maxExponent || rounded m * rounded (Nat.pow 10 e.toNat) ≥ tooLarge)

/-- A number of 64 bits with digits put behind it as long as they fit, and how many digits are left
over. -/
def append (m : Nat) : List Char → Nat × Nat
  | [] => (m, 0)
  | d :: ds =>
    let n := 10 * m + (d.toNat - 48)
    if n < Nat.pow 2 64 then append n ds else (m, ds.length + 1)

/-- The leading digits of a decimal as a whole number, and the power of ten it is multiplied by. -/
def leading (whole part : List Char) : Nat × Int :=
  let (m, left) := append 0 whole
  let (m, beyond) := append m part
  (m, (left : Int) + beyond - part.length)

/-- A number. -/
def numeral (cs : List Char) : Option (Json × List Char) := do
  let (sign, cs) := match cs with | '-' :: rest => (['-'], rest) | _ => ([], cs)
  let (whole, afterWhole) ← wholePart cs
  let (part, afterPart) ← fraction afterWhole
  let (e, rest) ← exponent afterPart
  let text := String.ofList (sign ++ cs.take (cs.length - rest.length))
  let (m, scale) := leading whole part
  if overflows m (scale + e) then return (unreadable, rest) else return (number text, rest)

/-! ## Texts -/

def hexDigit (c : Char) : Option Nat :=
  if c.isDigit then some (c.toNat - 48)
  else if 'a' ≤ c ∧ c ≤ 'f' then some (c.toNat - 87)
  else if 'A' ≤ c ∧ c ≤ 'F' then some (c.toNat - 55)
  else none

/-- The number of four hexadecimal digits. -/
def unit (a b c d : Char) : Option Nat := do
  return (((← hexDigit a) * 16 + (← hexDigit b)) * 16 + (← hexDigit c)) * 16 + (← hexDigit d)

/-- The character of a short escape. -/
def shortEscape : Char → Option Char
  | '"' => some '"'
  | '\\' => some '\\'
  | '/' => some '/'
  | 'b' => some '\x08'
  | 'f' => some '\x0c'
  | 'n' => some '\n'
  | 'r' => some '\r'
  | 't' => some '\t'
  | _ => none

def isHighHalf (n : Nat) : Bool :=
  0xd800 ≤ n && n < 0xdc00

def isLowHalf (n : Nat) : Bool :=
  0xdc00 ≤ n && n < 0xe000

/-- The character of two halves. -/
def ofHalves (high low : Nat) : Char :=
  Char.ofNat (0x10000 + (high - 0xd800) * 0x400 + (low - 0xdc00))

/-- What a text holds, unless it holds half of a character, and what follows it. -/
abbrev TextRest := Option (List Char) × List Char

/-- A character in front of a text. Behind the first half of another character it breaks the
text. -/
def TextRest.add (high : Option Nat) (c : Char) (t : TextRest) : TextRest :=
  (if high.isSome then none else t.1.map (c :: ·), t.2)

/-- The next unit of a text that is written by number. -/
def TextRest.addUnit (high : Option Nat) (n : Nat) (t : TextRest) : TextRest :=
  match high with
  | some h => if isLowHalf n then t.add none (ofHalves h n) else (none, t.2)
  | none => if isLowHalf n then (none, t.2) else t.add none (Char.ofNat n)

/-- A text behind its opening quote. `high` is the first half of a character, if one was just
read. -/
def textBody (high : Option Nat) : List Char → Option TextRest
  | '"' :: rest => some (if high.isSome then none else some [], rest)
  | '\\' :: 'u' :: a :: b :: c :: d :: rest => do
    let n ← unit a b c d
    if high.isNone && isHighHalf n then textBody (some n) rest
    else return (← textBody none rest).addUnit high n
  | '\\' :: c :: rest => do
    let e ← shortEscape c
    return (← textBody none rest).add high e
  | c :: rest => do
    if c < ' ' ∨ c = '\\' then none else return (← textBody none rest).add high c
  | [] => none

/-- A text. -/
def text : List Char → Option (Option String × List Char)
  | '"' :: rest => (textBody none rest).map fun (t, r) => (t.map String.ofList, r)
  | _ => none

/-! ## Values -/

/-- The members of an object, unless one of their names cannot be read. -/
def objectOf (members : List (Option String × Json)) : Json :=
  match members.mapM fun (k, j) => k.map (·, j) with
  | some ms => object ms
  | none => unreadable

/-- What follows a word. -/
def afterWord : List Char → List Char → Option (List Char)
  | [], cs => some cs
  | w :: ws, c :: cs => if w = c then afterWord ws cs else none
  | _ :: _, [] => none

mutual

/-- A value, nested at most `n` deep. -/
def value : Nat → List Char → Option (Json × List Char)
  | 0, _ => none
  | n + 1, cs =>
    match skipBlanks cs with
    | '{' :: rest =>
      match skipBlanks rest with
      | '}' :: rest => some (object [], rest)
      | rest => (members n rest).map fun (ms, r) => (objectOf ms, r)
    | '[' :: rest =>
      match skipBlanks rest with
      | ']' :: rest => some (array [], rest)
      | rest => (items n rest).map fun (js, r) => (array js, r)
    | '"' :: rest =>
      (text ('"' :: rest)).map fun (t, r) => ((t.map string).getD unreadable, r)
    | 'n' :: rest => (afterWord ['u', 'l', 'l'] rest).map (null, ·)
    | 't' :: rest => (afterWord ['r', 'u', 'e'] rest).map (bool true, ·)
    | 'f' :: rest => (afterWord ['a', 'l', 's', 'e'] rest).map (bool false, ·)
    | rest => numeral rest

/-- The items of an array from one of them on, up to the closing bracket. -/
def items : Nat → List Char → Option (List Json × List Char)
  | 0, _ => none
  | n + 1, cs => do
    let (j, cs) ← value n cs
    match skipBlanks cs with
    | ',' :: rest =>
      let (js, rest) ← items n rest
      return (j :: js, rest)
    | ']' :: rest => return ([j], rest)
    | _ => none

/-- The members of an object from one of them on, up to the closing brace. -/
def members : Nat → List Char → Option (List (Option String × Json) × List Char)
  | 0, _ => none
  | n + 1, cs => do
    let (k, cs) ← text (skipBlanks cs)
    match skipBlanks cs with
    | ':' :: rest =>
      let (j, cs) ← value n rest
      match skipBlanks cs with
      | ',' :: rest =>
        let (ms, rest) ← members n rest
        return ((k, j) :: ms, rest)
      | '}' :: rest => return ([(k, j)], rest)
      | _ => none
    | _ => none

end

/-- The value of a whole text. -/
def parseChars (cs : List Char) : Option Json := do
  let (j, rest) ← value (2 * cs.length + 2) cs
  if (skipBlanks rest).isEmpty then some j else none

def parse (source : String) : Option Json :=
  parseChars source.toList

/-- The value of a whole text, if all of it can be read. -/
def parseWhole (source : String) : Option Json := do
  let j ← parse source
  if j.isReadable ∧ j.depth ≤ maxDepth then some j else none

end TypedRoutes.Json
