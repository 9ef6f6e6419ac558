/-!
# Percent coding

* `Percent.encode` : every octet outside the unreserved set becomes a percent sign and two
  upper-case hexadecimal digits;
* `Percent.decodeOctets` : the octets that a percent-coded octet string stands for;
* `Percent.decode` : `decodeOctets`, refused when the octets are no UTF-8.

An escape is read as a number in base sixteen that fills two characters, so a plus sign may stand
in front of a single digit.
-/

namespace TypedRoutes.Text.Percent

/-- The octets written as themselves: ASCII letters and digits and the four marks. -/
def isUnreserved (b : UInt8) : Bool :=
  let c := Char.ofNat b.toNat
  b < 128 && (c.isAlphanum || c == '-' || c == '.' || c == '_' || c == '~')

/-- The upper-case hexadecimal digit of a number below sixteen. -/
def hexDigit (n : Nat) : Char :=
  Char.ofNat (if n < 10 then 48 + n else 55 + n)

def encodeOctet (b : UInt8) : List Char :=
  if isUnreserved b then [Char.ofNat b.toNat]
  else ['%', hexDigit (b.toNat / 16), hexDigit (b.toNat % 16)]

def encodeOctets (bs : List UInt8) : List Char :=
  bs.flatMap encodeOctet

/-- The text with every reserved octet of its UTF-8 form escaped. -/
def encode (s : String) : String :=
  String.ofList (encodeOctets s.toUTF8.toList)

/-- The value of a hexadecimal digit in either case. -/
def hexValue (b : UInt8) : Option Nat :=
  let n := b.toNat
  if 48 ≤ n ∧ n ≤ 57 then some (n - 48)
  else if 65 ≤ n ∧ n ≤ 70 then some (n - 55)
  else if 97 ≤ n ∧ n ≤ 102 then some (n - 87)
  else none

/-- The octet that the two characters of an escape denote. -/
def escaped (hi lo : UInt8) : Option UInt8 :=
  if hi = 43 then (hexValue lo).map UInt8.ofNat
  else match hexValue hi, hexValue lo with
    | some h, some l => some (UInt8.ofNat (16 * h + l))
    | _, _ => none

def decodeOctets : List UInt8 → Option (List UInt8)
  | [] => some []
  | b :: rest =>
    if b = 37 then
      match rest with
      | hi :: lo :: rest => do
        let b ← escaped hi lo
        let bs ← decodeOctets rest
        return b :: bs
      | _ => none
    else (decodeOctets rest).map (b :: ·)

/-- The text that a percent-coded text stands for, if its escapes are complete and its octets are
UTF-8. -/
def decode (s : String) : Option String := do
  let bs ← decodeOctets s.toUTF8.toList
  String.fromUTF8? ⟨bs.toArray⟩

/-! ## Small facts -/

@[simp] theorem encodeOctets_nil : encodeOctets [] = [] := rfl

@[simp] theorem encodeOctets_cons (b : UInt8) (bs : List UInt8) :
    encodeOctets (b :: bs) = encodeOctet b ++ encodeOctets bs := rfl

@[simp] theorem decodeOctets_nil : decodeOctets [] = some [] := by
  rw [decodeOctets]

theorem decodeOctets_plain {b : UInt8} (h : b ≠ 37) (bs : List UInt8) :
    decodeOctets (b :: bs) = (decodeOctets bs).map (b :: ·) := by
  rw [decodeOctets.eq_def]
  simp only [if_neg h]

end TypedRoutes.Text.Percent
