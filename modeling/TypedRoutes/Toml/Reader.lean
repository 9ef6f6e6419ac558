import TypedRoutes.Toml.Value

/-!
# Reading TOML

* `Toml.parse` : the members of the table that a text describes.

Texts, arrays and tables are read; a document with a value of another kind, or with an array of
tables that headers make up, has no reading here. Each reader takes characters from the front of a
list and returns what follows.
-/

namespace TypedRoutes.Toml

/-! ## Blanks and comments -/

def isBlank (c : Char) : Bool :=
  c = ' ' || c = '\t'

def skipBlanks (cs : List Char) : List Char :=
  cs.dropWhile isBlank

/-- A character that may stand in a line. -/
def isPrintable (c : Char) : Bool :=
  c = '\t' || (' ' ≤ c && c ≠ '\x7f')

/-- What follows a line end. -/
def lineEnd? : List Char → Option (List Char)
  | '\n' :: rest => some rest
  | '\r' :: '\n' :: rest => some rest
  | _ => none

/-- What follows a comment, if one stands here. -/
def skipComment : List Char → List Char
  | '#' :: rest => rest.dropWhile isPrintable
  | cs => cs

/-- What follows the rest of a line, which must be blank but for a comment. -/
def endLine (cs : List Char) : Option (List Char) :=
  match skipComment (skipBlanks cs) with
  | [] => some []
  | rest => lineEnd? rest

/-- What follows blanks, comments and line ends, at most `n` lines of them. -/
def skipLines : Nat → List Char → List Char
  | 0, cs => cs
  | n + 1, cs =>
    match skipComment (skipBlanks cs) with
    | [] => []
    | rest =>
      match lineEnd? rest with
      | some rest => skipLines n rest
      | none => skipBlanks cs

/-- What follows blanks, comments and line ends. -/
def skipSpace (cs : List Char) : List Char :=
  skipLines (cs.length + 1) cs

/-! ## Texts -/

def hexDigit (c : Char) : Option Nat :=
  if c.isDigit then some (c.toNat - 48)
  else if 'a' ≤ c ∧ c ≤ 'f' then some (c.toNat - 87)
  else if 'A' ≤ c ∧ c ≤ 'F' then some (c.toNat - 55)
  else none

/-- The character of hexadecimal digits. -/
def numbered (ds : List Char) : Option Char := do
  let n ← ds.foldlM (fun n c => (hexDigit c).map (16 * n + ·)) 0
  if n.isValidChar then return Char.ofNat n else none

/-- The character of a short escape. -/
def shortEscape : Char → Option Char
  | 'b' => some '\x08'
  | 't' => some '\t'
  | 'n' => some '\n'
  | 'f' => some '\x0c'
  | 'r' => some '\r'
  | 'e' => some '\x1b'
  | '"' => some '"'
  | '\\' => some '\\'
  | _ => none

/-- An escape behind its backslash. -/
def escape : List Char → Option (Char × List Char)
  | 'x' :: rest => if rest.length < 2 then none else (numbered (rest.take 2)).map (·, rest.drop 2)
  | 'u' :: rest => if rest.length < 4 then none else (numbered (rest.take 4)).map (·, rest.drop 4)
  | 'U' :: rest => if rest.length < 8 then none else (numbered (rest.take 8)).map (·, rest.drop 8)
  | c :: rest => (shortEscape c).map (·, rest)
  | [] => none

/-- What follows blanks and line ends. -/
def skipWhite : List Char → List Char
  | '\r' :: '\n' :: rest => skipWhite rest
  | c :: rest => if isBlank c || c = '\n' then skipWhite rest else c :: rest
  | [] => []

/-- What follows a backslash that ends a line: all blanks and line ends. -/
def skipContinuation (cs : List Char) : Option (List Char) :=
  (lineEnd? (skipBlanks cs)).map skipWhite

/-- A text in one line up to its closing quote, `done` read so far and last character first. -/
def lineText (quote : Char) : Nat → List Char → List Char → Option (List Char × List Char)
  | 0, _, _ => none
  | _, _, [] => none
  | n + 1, done, c :: rest =>
    if c = quote then some (done.reverse, rest)
    else if c = '\\' ∧ quote = '"' then do
      let (e, rest) ← escape rest
      lineText quote n (e :: done) rest
    else if isPrintable c then lineText quote n (c :: done) rest
    else none

/-- A text of several lines up to its three closing quotes, in front of which up to two more
belong to the text. -/
def blockText (quote : Char) : Nat → List Char → List Char → Option (List Char × List Char)
  | 0, _, _ => none
  | _, _, [] => none
  | n + 1, done, c :: rest =>
    if c = quote then
      let quotes := ((c :: rest).takeWhile (· = quote)).length
      if quotes < 3 then blockText quote n (c :: done) rest
      else if quotes > 5 then none
      else some (done.reverse ++ List.replicate (quotes - 3) quote, (c :: rest).drop quotes)
    else if c = '\\' ∧ quote = '"' then
      match skipContinuation rest with
      | some rest => blockText quote n done rest
      | none => do
        let (e, rest) ← escape rest
        blockText quote n (e :: done) rest
    else if c = '\n' ∨ isPrintable c then blockText quote n (c :: done) rest
    else if c = '\r' ∧ rest.head? = some '\n' then blockText quote n (c :: done) rest
    else none

/-- A text in one line. -/
def lineString : List Char → Option (String × List Char)
  | c :: rest =>
    if c = '"' ∨ c = '\'' then
      (lineText c (rest.length + 1) [] rest).map fun (t, r) => (String.ofList t, r)
    else none
  | [] => none

/-- A text. A line end right behind three opening quotes is left out. -/
def string (cs : List Char) : Option (String × List Char) :=
  match cs with
  | a :: b :: c :: rest =>
    if a = b ∧ b = c ∧ (a = '"' ∨ a = '\'') then
      let rest := (lineEnd? rest).getD rest
      (blockText a (rest.length + 1) [] rest).map fun (t, r) => (String.ofList t, r)
    else lineString cs
  | _ => lineString cs

/-! ## Keys -/

def isBareKey (c : Char) : Bool :=
  c.isAlphanum || c = '_' || c = '-'

/-- One name of a key. -/
def simpleKey (cs : List Char) : Option (String × List Char) :=
  match cs.takeWhile isBareKey with
  | [] => lineString cs
  | name => some (String.ofList name, cs.dropWhile isBareKey)

/-- A key of at most `n` names with dots between them, and what follows it and its blanks. -/
def keyFrom : Nat → List Char → Option (List String × List Char)
  | 0, _ => none
  | n + 1, cs => do
    let (k, cs) ← simpleKey (skipBlanks cs)
    match skipBlanks cs with
    | '.' :: rest =>
      let (ks, rest) ← keyFrom n rest
      return (k :: ks, rest)
    | rest => return ([k], rest)

/-- A key and what follows it and its blanks. -/
def key (cs : List Char) : Option (List String × List Char) :=
  keyFrom (cs.length + 1) cs

/-! ## Values -/

mutual

/-- A value, nested at most `n` deep. -/
def value : Nat → List Char → Option (Toml × List Char)
  | 0, _ => none
  | n + 1, cs =>
    match cs with
    | '[' :: rest => (items n rest).map fun (vs, r) => (array vs, r)
    | '{' :: rest => (members n [] rest).map fun (ms, r) => (table .closed ms, r)
    | _ => (string cs).map fun (t, r) => (text t, r)

/-- The items of an array up to its closing bracket. A comma may follow the last one. -/
def items : Nat → List Char → Option (List Toml × List Char)
  | 0, _ => none
  | n + 1, cs =>
    match skipSpace cs with
    | ']' :: rest => some ([], rest)
    | cs => do
      let (v, cs) ← value n cs
      match skipSpace cs with
      | ',' :: rest =>
        let (vs, rest) ← items n rest
        return (v :: vs, rest)
      | ']' :: rest => return ([v], rest)
      | _ => none

/-- The members of a table in braces behind `done`, up to its closing brace. A comma may follow the
last one. -/
def members : Nat → Members → List Char → Option (Members × List Char)
  | 0, _, _ => none
  | n + 1, done, cs =>
    match skipSpace cs with
    | '}' :: rest => some (done, rest)
    | cs => do
      let (k, cs) ← key cs
      match cs with
      | '=' :: rest =>
        let (v, cs) ← value n (skipBlanks rest)
        let done ← define v k done
        match skipSpace cs with
        | ',' :: rest => members n done rest
        | '}' :: rest => return (done, rest)
        | _ => none
      | _ => none

end

/-! ## Documents -/

/-- A document from one of its lines on, at most `n` of them, in the table of the header `path`. -/
def lines : Nat → List String → Members → List Char → Option Members
  | 0, _, _, _ => none
  | n + 1, path, root, cs =>
    match skipSpace cs with
    | [] => some root
    | '[' :: rest => do
      let (k, cs) ← key rest
      match cs with
      | ']' :: rest => lines n k (← open? k root) (← endLine rest)
      | _ => none
    | cs => do
      let (k, cs) ← key cs
      match cs with
      | '=' :: rest =>
        let (v, cs) ← value (2 * rest.length + 2) (skipBlanks rest)
        lines n path (← defineIn v k path root) (← endLine cs)
      | _ => none

/-- The members of the table that a text describes. -/
def parse (source : String) : Option Members :=
  let cs := source.toList
  let cs := if cs.head? = some (Char.ofNat 0xfeff) then cs.drop 1 else cs
  lines (cs.length + 1) [] [] cs

end TypedRoutes.Toml
