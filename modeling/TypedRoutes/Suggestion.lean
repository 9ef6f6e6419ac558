import TypedRoutes.Text.EditDistance
import TypedRoutes.Text.Lowercase

/-!
# Suggestions for mistyped names

* `nameDistance` : the edit distance of two names, whatever the case of their letters;
* `allowance` : how many edits a name may be away: half its octets, but two to four;
* `closest` : the first of the nearest names within the allowance.

A name at distance zero is no suggestion.
-/

namespace TypedRoutes

open Text (editDistance lower)

/-- The edit distance of two names in lower case. -/
def nameDistance (a b : String) : Nat :=
  editDistance (lower a.toList) (lower b.toList)

/-- The largest distance at which a name is suggested for `input`. -/
def allowance (input : String) : Nat :=
  max 2 (min 4 (input.utf8ByteSize / 2))

/-- The first option with the least key. -/
def firstMin {α : Type} (key : α → Nat) : List α → Option α
  | [] => none
  | a :: rest =>
    match firstMin key rest with
    | some b => if key b < key a then some b else some a
    | none => some a

/-- The first of the nearest names that are within the allowance. -/
def closest (input : String) (options : List String) : Option String :=
  firstMin (nameDistance input) <| options.filter fun o =>
    nameDistance input o ≤ allowance input && 0 < nameDistance input o

theorem firstMin_mem {α : Type} {key : α → Nat} {as : List α} {a : α}
    (h : firstMin key as = some a) : a ∈ as := by
  induction as generalizing a with
  | nil => simp [firstMin] at h
  | cons b rest ih =>
    simp only [firstMin] at h
    split at h
    · split at h <;> grind
    · grind

end TypedRoutes
