import TypedRoutes.Text.Identifier

/-!
# Literals

Each scanner takes the text from a literal's first character on and returns what follows the
literal, or `none` if no literal of its kind stands there.

* `afterNumber` : integers and decimals with an optional suffix;
* `afterQuoted` : strings, byte strings and C strings, raw or with escapes;
* `afterChar`, `afterByte` : single characters in apostrophes;
* `afterLiteral` : any of them.

`index?` is the number that an integer without suffix stands for, `isInteger` tells integers from
decimals, and `textValue?` is the text that a string stands for.
-/

namespace TypedRoutes.Syntax.Literal

open Text (isIdentStart isIdentContinue)

/-- What follows an identifier that stands first, without raw marker. -/
def afterIdent : List Char → Option (List Char)
  | c :: rest => if isIdentStart c then some (rest.dropWhile isIdentContinue) else none
  | [] => none

/-- What follows the suffix that may stand behind a literal. -/
def afterSuffix (cs : List Char) : List Char :=
  (afterIdent cs).getD cs

def hexValue (c : Char) : Option Nat :=
  if c.isDigit then some (c.toNat - 48)
  else if 'a' ≤ c ∧ c ≤ 'f' then some (c.toNat - 87)
  else if 'A' ≤ c ∧ c ≤ 'F' then some (c.toNat - 55)
  else none

/-! ## Escapes -/

/-- The body of a numbered escape up to its closing brace: one to six hexadecimal digits, with
underscores after the first. -/
def afterCodePoint (value digits : Nat) : List Char → Option (Nat × List Char)
  | [] => none
  | c :: rest =>
    match hexValue c with
    | some d => if digits = 6 then none else afterCodePoint (16 * value + d) (digits + 1) rest
    | none =>
      if digits = 0 then none
      else if c = '_' then afterCodePoint value digits rest
      else if c = '\x7d' then (if value.isValidChar then some (value, rest) else none)
      else none

/-- The kinds of quoted literal, which differ in the characters and escapes they admit. -/
inductive Kind
  | text
  | bytes
  | terminated
  deriving DecidableEq, Repr

/-- What follows a line end that is escaped, blanks included: the text must go on. The line end is
`last`. -/
def afterContinuation (last : Char) : List Char → Option (List Char)
  | [] => none
  | c :: rest =>
    if last = '\r' then (if c = '\n' then afterContinuation c rest else none)
    else if c = ' ' ∨ c = '\t' ∨ c = '\n' ∨ c = '\r' then afterContinuation c rest
    else some (c :: rest)

/-- What follows an escape, its backslash already read. Line ends are escapes only where
`multiline` holds. -/
def afterEscape (kind : Kind) (multiline : Bool) : List Char → Option (List Char)
  | [] => none
  | 'x' :: a :: b :: rest => do
    let h ← hexValue a
    let l ← hexValue b
    match kind with
    | .text => if h < 8 then some rest else none
    | .bytes => some rest
    | .terminated => if h + l = 0 then none else some rest
  | 'u' :: '{' :: rest => do
    if kind = .bytes then none
    else
      let (n, rest) ← afterCodePoint 0 0 rest
      if kind = .terminated ∧ n = 0 then none else some rest
  | c :: rest =>
    if c ∈ ['n', 'r', 't', '\\', '\'', '"'] then some rest
    else if c = '0' then (if kind = .terminated then none else some rest)
    else if multiline ∧ (c = '\n' ∨ c = '\r') then afterContinuation c rest
    else none

/-- Whether a character may stand unescaped in a quoted literal. -/
def admits (kind : Kind) (c : Char) : Bool :=
  match kind with
  | .text => true
  | .bytes => c.toNat < 128
  | .terminated => c.toNat ≠ 0

/-! ## Quoted literals -/

/-- What follows the closing quote of a literal with escapes, and its suffix. -/
def afterCooked (kind : Kind) : Nat → List Char → Option (List Char)
  | 0, _ => none
  | _, [] => none
  | n + 1, c :: rest =>
    if c = '"' then some (afterSuffix rest)
    else if c = '\r' then
      match rest with
      | '\n' :: rest => afterCooked kind n rest
      | _ => none
    else if c = '\\' then (afterEscape kind true rest).bind (afterCooked kind n)
    else if admits kind c then afterCooked kind n rest
    else none

/-- What follows the closing quote of a raw literal whose quote is followed by `hashes`. -/
def afterRawBody (kind : Kind) (hashes : List Char) : List Char → Option (List Char)
  | [] => none
  | '"' :: rest =>
    if hashes.isPrefixOf rest then some (afterSuffix (rest.drop hashes.length))
    else afterRawBody kind hashes rest
  | '\r' :: '\n' :: rest => afterRawBody kind hashes rest
  | '\r' :: _ => none
  | c :: rest => if admits kind c then afterRawBody kind hashes rest else none

/-- What follows a raw literal, from its hashes on. At most 255 hashes are allowed. -/
def afterRaw (kind : Kind) (cs : List Char) : Option (List Char) :=
  let hashes := cs.takeWhile (· == '#')
  match cs.dropWhile (· == '#') with
  | '"' :: rest => if hashes.length ≤ 255 then afterRawBody kind hashes rest else none
  | _ => none

def afterQuoted : List Char → Option (List Char)
  | '"' :: rest => afterCooked .text (rest.length + 1) rest
  | 'r' :: rest => afterRaw .text rest
  | 'b' :: '"' :: rest => afterCooked .bytes (rest.length + 1) rest
  | 'b' :: 'r' :: rest => afterRaw .bytes rest
  | 'c' :: '"' :: rest => afterCooked .terminated (rest.length + 1) rest
  | 'c' :: 'r' :: rest => afterRaw .terminated rest
  | _ => none

/-- The closing apostrophe and a suffix. -/
def afterApostrophe : List Char → Option (List Char)
  | '\'' :: rest => some (afterSuffix rest)
  | _ => none

/-- What follows a character literal, from its first apostrophe on. -/
def afterChar : List Char → Option (List Char)
  | '\'' :: '\\' :: rest => (afterEscape .text false rest).bind afterApostrophe
  | '\'' :: _ :: rest => afterApostrophe rest
  | _ => none

/-- What follows a byte literal. -/
def afterByte : List Char → Option (List Char)
  | 'b' :: '\'' :: '\\' :: rest => (afterEscape .bytes false rest).bind afterApostrophe
  | 'b' :: '\'' :: c :: rest => if c.toNat < 128 then afterApostrophe rest else none
  | _ => none

/-! ## Numbers -/

/-- The text behind a number, which may not go on as an identifier. -/
def wordBreak : List Char → Option (List Char)
  | c :: rest => if isIdentContinue c then none else some (c :: rest)
  | [] => some []

/-- The digits of an integer in a base. `some` digit must have been read at the end. -/
def afterDigits (base : Nat) (found : Bool) : List Char → Option (List Char)
  | [] => if found then some [] else none
  | c :: rest =>
    let stop := if found then some (c :: rest) else none
    if c = '_' then
      if ¬found ∧ base = 10 then none else afterDigits base found rest
    else match hexValue c with
      | none => stop
      | some d =>
        if d < base then afterDigits base true rest
        else if c.isDigit then none
        else stop

/-- An integer with an optional base prefix and suffix. -/
def afterInteger (cs : List Char) : Option (List Char) := do
  let rest ← match cs with
    | '0' :: 'x' :: rest => afterDigits 16 false rest
    | '0' :: 'o' :: rest => afterDigits 8 false rest
    | '0' :: 'b' :: rest => afterDigits 2 false rest
    | _ => afterDigits 10 false cs
  wordBreak (afterSuffix rest)

/-- The exponent behind its letter. `none` if it has no digit; then the number ends before the
letter. -/
def afterExponent (signed found : Bool) : List Char → Option (List Char)
  | [] => if found then some [] else none
  | c :: rest =>
    if c = '+' ∨ c = '-' then
      if found then some (c :: rest)
      else if signed then none
      else afterExponent true found rest
    else if c.isDigit then afterExponent signed true rest
    else if c = '_' then afterExponent signed found rest
    else if found then some (c :: rest) else none

/-- The digits, point and exponent of a decimal, after its first digit. -/
def afterDecimalDigits (point : Bool) : List Char → Option (List Char)
  | [] => if point then some [] else none
  | c :: rest =>
    if c.isDigit ∨ c = '_' then afterDecimalDigits point rest
    else if c = '.' ∧ ¬point then
      match rest with
      | d :: _ => if d = '.' ∨ isIdentStart d then none else afterDecimalDigits true rest
      | [] => some []
    else if c = 'e' ∨ c = 'E' then
      match afterExponent false false rest with
      | some r => some r
      | none => if point then some (c :: rest) else none
    else if point then some (c :: rest) else none

/-- A number with a point or an exponent. -/
def afterDecimal : List Char → Option (List Char)
  | c :: rest =>
    if c.isDigit then do
      let rest ← afterDecimalDigits false rest
      wordBreak (afterSuffix rest)
    else none
  | [] => none

def afterNumber (cs : List Char) : Option (List Char) :=
  (afterDecimal cs).or (afterInteger cs)

/-- The mark of a text that could not be read. It counts as a literal. -/
def errorMark : List Char :=
  "(/*ERROR*/)".toList

/-- Any literal. -/
def afterLiteral (cs : List Char) : Option (List Char) :=
  (((afterQuoted cs).or (afterByte cs)).or (afterChar cs)).or (afterNumber cs)

/-! ## Numbers of components -/

/-- The number that digits of a base and underscores stand for. -/
def digitsValue (base : Nat) (cs : List Char) : Option Nat :=
  (cs.filter (· ≠ '_')).foldlM (fun n c => do
    let d ← hexValue c
    if d < base then some (base * n + d) else none) 0

/-- The number of an integer in its base. -/
def integerValue : List Char → Option Nat
  | '0' :: 'x' :: ds => digitsValue 16 ds
  | '0' :: 'o' :: ds => digitsValue 8 ds
  | '0' :: 'b' :: ds => digitsValue 2 ds
  | ds => digitsValue 10 ds

/-- The decimal form of an integer without suffix that numbers a component of a tuple. -/
def index? (text : String) : Option String := do
  let n ← integerValue text.toList
  if n < UInt32.size then some (toString n) else none

/-! ## Kinds of numbers -/

/-- Whether the letter of an exponent has digits behind it, or a sign. -/
def hasExponent : List Char → Bool
  | [] => false
  | c :: rest => c = '+' || c = '-' || c.isDigit || (c = '_' && hasExponent rest)

/-- Whether a number is an integer, with or without suffix. -/
def isInteger (text : String) : Bool :=
  match text.toList with
  | '0' :: c :: rest => ['x', 'o', 'b'].contains c || decimal (c :: rest)
  | c :: rest => c.isDigit && decimal rest
  | [] => false
where
  /-- Whether the digits of an integer go on here. -/
  decimal : List Char → Bool
    | [] => true
    | c :: rest =>
      if c.isDigit ∨ c = '_' then decimal rest
      else if c = 'e' ∨ c = 'E' then !hasExponent rest
      else c ≠ '.'

/-! ## Values of texts -/

/-- The character that an escape stands for, its backslash already read, and what follows it. A line
end that is escaped stands for nothing. -/
def escapeValue : List Char → Option (List Char × List Char)
  | 'x' :: a :: b :: rest => do
    return ([Char.ofNat (16 * (← hexValue a) + (← hexValue b))], rest)
  | 'u' :: '{' :: rest => do
    let (n, rest) ← afterCodePoint 0 0 rest
    return ([Char.ofNat n], rest)
  | 'n' :: rest => some (['\n'], rest)
  | 'r' :: rest => some (['\r'], rest)
  | 't' :: rest => some (['\t'], rest)
  | '0' :: rest => some (['\x00'], rest)
  | '\n' :: rest => some ([], rest.dropWhile [' ', '\t', '\n', '\r'].contains)
  | '\r' :: rest => some ([], rest.dropWhile [' ', '\t', '\n', '\r'].contains)
  | c :: rest => some ([c], rest)
  | [] => none

/-- The characters of a text up to its closing quote, read in at most `n` steps. -/
def cookedValue : Nat → List Char → Option (List Char)
  | 0, _ => none
  | _, [] => none
  | _, '"' :: _ => some []
  | n + 1, '\\' :: rest => do
    let (value, rest) ← escapeValue rest
    return value ++ (← cookedValue n rest)
  | n + 1, '\r' :: rest => cookedValue n rest
  | n + 1, c :: rest => (cookedValue n rest).map (c :: ·)

/-- The characters of a raw text up to the quote that the given hashes follow. -/
def rawValue (hashes : List Char) : List Char → List Char
  | [] => []
  | c :: rest => if c = '"' ∧ hashes.isPrefixOf rest then [] else c :: rawValue hashes rest

/-- The text that a string stands for, if the literal is one. -/
def textValue? (text : String) : Option String :=
  match text.toList with
  | '"' :: rest => (cookedValue (rest.length + 1) rest).map String.ofList
  | 'r' :: rest =>
    let hashes := rest.takeWhile (· == '#')
    some (String.ofList (rawValue hashes (rest.drop (hashes.length + 1))))
  | _ => none

end TypedRoutes.Syntax.Literal
