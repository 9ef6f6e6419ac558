import TypedRoutes.Text.Printable

/-!
# Quoted text

* `Quoted.encode` : a text as a double-quoted literal. Quotes, backslashes, tabs and line ends have
  their short escapes, characters that are not shown are written by number, and a NUL takes two
  digits when a digit follows that would otherwise be read with it.
-/

namespace TypedRoutes.Text.Quoted

/-- Lower-case hexadecimal digits of a number. -/
def hexDigits (n : Nat) : List Char :=
  Nat.toDigits 16 n

/-- The escape by number. -/
def byNumber (c : Char) : List Char :=
  ['\\', 'u', '{'] ++ hexDigits c.toNat ++ ['}']

def isOctalDigit (c : Char) : Bool :=
  '0' ≤ c && c ≤ '7'

/-- One character that is not NUL. -/
def encodeChar : Char → List Char
  | '\t' => ['\\', 't']
  | '\r' => ['\\', 'r']
  | '\n' => ['\\', 'n']
  | '\\' => ['\\', '\\']
  | '"' => ['\\', '"']
  | c => if isShown c then [c] else byNumber c

/-- The characters between the quotes. -/
def encodeChars : List Char → List Char
  | [] => []
  | c :: rest =>
    (if c = Char.ofNat 0 then
      match rest with
      | d :: _ => if isOctalDigit d then ['\\', 'x', '0', '0'] else ['\\', '0']
      | [] => ['\\', '0']
    else encodeChar c) ++ encodeChars rest

/-- A text as a literal. -/
def encode (s : String) : String :=
  String.ofList (['"'] ++ encodeChars s.toList ++ ['"'])

end TypedRoutes.Text.Quoted
