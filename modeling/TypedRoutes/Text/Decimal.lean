/-!
# Decimal numbers

* `Decimal.ofDigits` : the number of decimal digits;
* `Decimal.nat?` : the number of a text: digits behind an optional plus sign;
* `Decimal.word?`, `Decimal.count?` : the number of a text if it has 32 or 64 bits.
-/

namespace TypedRoutes.Text.Decimal

/-- The number of decimal digits, most significant first. -/
def ofDigits (ds : List Char) : Nat :=
  ds.foldl (fun n c => 10 * n + (c.toNat - 48)) 0

/-- The digits of a number behind its plus sign, if it has one. -/
def unsigned : List Char → List Char
  | '+' :: rest => rest
  | cs => cs

/-- The number of a text. -/
def nat? (s : String) : Option Nat :=
  let ds := unsigned s.toList
  if ds.isEmpty ∨ !ds.all Char.isDigit then none else some (ofDigits ds)

/-- The 32-bit number of a text. -/
def word? (s : String) : Option UInt32 := do
  let n ← nat? s
  if n < UInt32.size then some (UInt32.ofNat n) else none

/-- The 64-bit number of a text. -/
def count? (s : String) : Option UInt64 := do
  let n ← nat? s
  if n < UInt64.size then some (UInt64.ofNat n) else none

end TypedRoutes.Text.Decimal
