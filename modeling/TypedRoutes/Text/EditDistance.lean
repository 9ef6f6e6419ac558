/-!
# Edit distance

* `editDistance` : the least number of insertions, deletions and substitutions of single characters
  that turn one list into another, computed row by row;
* `EditDistance.nextRow` : the row of one more character of the first list from the row before it.

The row of a prefix `p` holds the distance from `p` to each prefix of the second list, the empty
one first.
-/

namespace TypedRoutes.Text

namespace EditDistance

variable {α : Type} [DecidableEq α]

/-- The entries of a row after its first one `left`. The previous row is `diag :: up :: …`, aligned
with the columns of `bs`. -/
def rowFrom (a : α) (left diag : Nat) : List α → List Nat → List Nat
  | b :: bs, up :: ups =>
    let here := min (min (up + 1) (left + 1)) (diag + if a = b then 0 else 1)
    here :: rowFrom a here up bs ups
  | _, _ => []

/-- The row of the prefix that ends in `a`, whose length is `i`, from the row before it. -/
def nextRow (a : α) (i : Nat) (bs : List α) : List Nat → List Nat
  | [] => []
  | diag :: ups => i :: rowFrom a i diag bs ups

/-- The last row, after the characters `as` that follow a prefix of length `i`. -/
def lastRow (bs : List α) : Nat → List α → List Nat → List Nat
  | _, [], row => row
  | i, a :: as, row => lastRow bs (i + 1) as (nextRow a (i + 1) bs row)

end EditDistance

/-- The least number of single-character edits between two lists. -/
def editDistance {α : Type} [DecidableEq α] (as bs : List α) : Nat :=
  (EditDistance.lastRow bs 0 as (List.range (bs.length + 1))).getLast?.getD 0

end TypedRoutes.Text
