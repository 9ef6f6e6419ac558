import Mathlib.Data.List.Basic
import TypedRoutes.Text.EditDistance

/-!
# The rows of an edit distance

* `distance` : the distance of two lists, by recursion on their first elements;
* `row` : the distances from a list to the prefixes of another one; `nextRow_row`, `lastRow_row` :
  what one element and what several of them make of a row;
* `editDistance_eq` : the last entry of the last row is the distance of the lists, read backwards;
* `editDistance_eq_zero` : no edits are needed just between equal lists.

The rows go through prefixes, so their lists are kept with the last element first.
-/

namespace TypedRoutes.Text.EditDistance

variable {α : Type} [DecidableEq α]

/-! ## The recursion -/

/-- The distance of two lists: a first element is dropped, or put in front, or replaced. -/
def distance : List α → List α → Nat
  | [], bs => bs.length
  | a :: as, [] => (a :: as).length
  | a :: as, b :: bs =>
    min (min (distance as (b :: bs) + 1) (distance (a :: as) bs + 1))
      (distance as bs + if a = b then 0 else 1)
termination_by as bs => as.length + bs.length

theorem distance_nil_left (bs : List α) : distance [] bs = bs.length := by
  rw [distance]

theorem distance_nil_right (as : List α) : distance as [] = as.length := by
  cases as <;> simp [distance]

theorem distance_cons (a b : α) (as bs : List α) :
    distance (a :: as) (b :: bs) =
      min (min (distance as (b :: bs) + 1) (distance (a :: as) bs + 1))
        (distance as bs + if a = b then 0 else 1) := by
  rw [distance]

/-- Only equal lists have no distance. -/
theorem distance_eq_zero {as bs : List α} : distance as bs = 0 ↔ as = bs := by
  induction as generalizing bs with
  | nil => rw [distance_nil_left, List.length_eq_zero_iff, eq_comm]
  | cons a as ih =>
    cases bs with
    | nil => simp [distance_nil_right]
    | cons b bs =>
      have hkept : distance as bs + (if a = b then 0 else 1) = 0 ↔ a = b ∧ as = bs := by
        rw [Nat.add_eq_zero_iff, ih, and_comm]
        simp
      rw [distance_cons, List.cons.injEq, ← hkept]
      omega

/-! ## Rows -/

/-- The distances from `p` to the lists that grow from `done` by the elements of `bs`, the one to
`done` left out. -/
def rowAfter (p done : List α) : List α → List Nat
  | [] => []
  | b :: bs => distance p (b :: done) :: rowAfter p (b :: done) bs

/-- The distances from `p` to the prefixes of `bs`, both with the last element first. -/
def row (p bs : List α) : List Nat :=
  distance p [] :: rowAfter p [] bs

theorem rowAfter_nil (done bs : List α) :
    rowAfter [] done bs = List.range' (done.length + 1) bs.length := by
  induction bs generalizing done with
  | nil => rfl
  | cons b bs ih =>
    rw [rowAfter, ih, distance_nil_left, List.length_cons, List.length_cons, List.range'_succ]

/-- The first row counts the elements that are put in front. -/
theorem row_nil (bs : List α) : row [] bs = List.range (bs.length + 1) := by
  rw [row, rowAfter_nil, distance_nil_left, List.range_eq_range', List.range'_succ]
  rfl

/-- The entries of a row are made from those of the row before by the recursion. -/
theorem rowFrom_rowAfter (a : α) (p done bs : List α) :
    rowFrom a (distance (a :: p) done) (distance p done) bs (rowAfter p done bs) =
      rowAfter (a :: p) done bs := by
  induction bs generalizing done with
  | nil => rfl
  | cons b bs ih =>
    rw [rowAfter, rowAfter, rowFrom, ← distance_cons, ih]

theorem nextRow_row (a : α) (p bs : List α) :
    nextRow a (p.length + 1) bs (row p bs) = row (a :: p) bs := by
  have hfirst : p.length + 1 = distance (a :: p) [] := (distance_nil_right (a :: p)).symm
  rw [row, row, nextRow, hfirst, rowFrom_rowAfter]

/-- Several elements lead from the row of a prefix to that of the prefix they extend it to. -/
theorem lastRow_row (bs p as : List α) :
    lastRow bs p.length as (row p bs) = row (as.reverse ++ p) bs := by
  induction as generalizing p with
  | nil => rfl
  | cons a as ih =>
    rw [lastRow, nextRow_row, ← List.length_cons (a := a), ih, List.reverse_cons,
      List.append_assoc]
    rfl

theorem getLast?_rowAfter (p done bs : List α) :
    (distance p done :: rowAfter p done bs).getLast? = some (distance p (bs.reverse ++ done)) := by
  induction bs generalizing done with
  | nil => rfl
  | cons b bs ih =>
    rw [rowAfter, List.getLast?_cons_cons, ih, List.reverse_cons, List.append_assoc]
    rfl

end EditDistance

open EditDistance

variable {α : Type} [DecidableEq α]

/-- The rows end in the distance of the lists, read backwards. -/
theorem editDistance_eq (as bs : List α) :
    editDistance as bs = distance as.reverse bs.reverse := by
  have hlast := lastRow_row bs [] as
  rw [row_nil, List.append_nil] at hlast
  rw [editDistance, ← List.length_nil (α := α), hlast, row, getLast?_rowAfter, List.append_nil]
  rfl

/-- No edits are needed just between equal lists. -/
theorem editDistance_eq_zero {as bs : List α} : editDistance as bs = 0 ↔ as = bs := by
  rw [editDistance_eq, distance_eq_zero, List.reverse_inj]

end TypedRoutes.Text
