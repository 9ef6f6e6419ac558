/-!
# Character classes

* `CharClass` : a set of characters, given by the code points at which membership changes;
* `CharClass.contains` : membership, decided by the parity of the changes that lie at or below the
  character.
-/

namespace TypedRoutes.Text

/-- A set of characters. The code points in `flips` ascend; each one ends a stretch of characters
outside the set or a stretch inside it, beginning outside. -/
structure CharClass where
  flips : List Nat

namespace CharClass

/-- Whether an odd number of leading flips lie at or below `n`. -/
def inside : List Nat → Nat → Bool
  | [], _ => false
  | f :: rest, n => if n < f then false else !inside rest n

def contains (s : CharClass) (c : Char) : Bool :=
  inside s.flips c.toNat

end CharClass

end TypedRoutes.Text
