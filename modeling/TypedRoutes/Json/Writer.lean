import TypedRoutes.Json.Value

/-!
# Writing JSON

* `Json.write` : a value as text without blanks.

Quotes, backslashes and control characters are escaped, and nothing else is.
-/

namespace TypedRoutes.Json

def hexChar (n : Nat) : Char :=
  if n < 10 then Char.ofNat (48 + n) else Char.ofNat (87 + n)

/-- A character inside a text. -/
def writeChar (c : Char) : List Char :=
  if c = '"' then ['\\', '"']
  else if c = '\\' then ['\\', '\\']
  else if c = '\x08' then ['\\', 'b']
  else if c = '\x0c' then ['\\', 'f']
  else if c = '\n' then ['\\', 'n']
  else if c = '\r' then ['\\', 'r']
  else if c = '\t' then ['\\', 't']
  else if c < ' ' then ['\\', 'u', '0', '0', hexChar (c.toNat / 16), hexChar (c.toNat % 16)]
  else [c]

/-- A text in quotes. -/
def writeText (s : String) : List Char :=
  '"' :: (s.toList.flatMap writeChar ++ ['"'])

mutual

def writeChars : Json → List Char
  | null => ['n', 'u', 'l', 'l']
  | bool true => ['t', 'r', 'u', 'e']
  | bool false => ['f', 'a', 'l', 's', 'e']
  | number t => t.toList
  | string s => writeText s
  | array items => '[' :: (writeItems items ++ [']'])
  | object members => '{' :: (writeMembers members ++ ['}'])
  | unreadable => []

def writeItems : List Json → List Char
  | [] => []
  | [j] => writeChars j
  | j :: rest => writeChars j ++ ',' :: writeItems rest

def writeMembers : List (String × Json) → List Char
  | [] => []
  | [(k, j)] => writeText k ++ ':' :: writeChars j
  | (k, j) :: rest => writeText k ++ ':' :: writeChars j ++ ',' :: writeMembers rest

end

/-- A value as text. -/
def write (j : Json) : String :=
  String.ofList (writeChars j)

/-- A whole number. -/
def ofNat (n : Nat) : Json :=
  number (toString n)

/-- A value that may be absent. -/
def ofOption {α : Type} (f : α → Json) : Option α → Json
  | some a => f a
  | none => null

end TypedRoutes.Json
