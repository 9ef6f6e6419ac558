import Mathlib.Order.Bounds.Basic
import TypedRoutes.Proofs.Suggestion

/-!
# The least number of edits

* `Edit` : one element is put in, taken out or replaced; `Edits` : several edits, one after the other;
* `Edits.trans`, `Edits.symm`, `Edits.map` : edits go on, go back, and are made inside of more;
* `Edit.distance_le` : an edit brings a list nearer to another one by one step at most;
* `edits_distance` : a list is turned into another one by as many edits as their distance;
* `isLeast_distance`, `isLeast_editDistance` : no fewer edits do, so the rows end in the least number;
* `nameDistance_isLeast` : what this makes of the distance of names.
-/

namespace TypedRoutes.Text

open EditDistance

variable {α : Type}

/-! ## Edits -/

/-- One element of a list is put in, taken out or replaced, at any place. -/
inductive Edit : List α → List α → Prop
  | insert (front behind : List α) (a : α) : Edit (front ++ behind) (front ++ a :: behind)
  | delete (front behind : List α) (a : α) : Edit (front ++ a :: behind) (front ++ behind)
  | replace (front behind : List α) (a b : α) :
    Edit (front ++ a :: behind) (front ++ b :: behind)

/-- Several edits, one after the other. -/
inductive Edits : Nat → List α → List α → Prop
  | none (as : List α) : Edits 0 as as
  | more {n : Nat} {as bs cs : List α} (first : Edit as bs) (rest : Edits n bs cs) :
    Edits (n + 1) as cs

section Edits

variable {as bs cs : List α} {m n : Nat}

theorem Edit.symm (h : Edit as bs) : Edit bs as := by
  cases h with
  | insert front behind a => exact .delete front behind a
  | delete front behind a => exact .insert front behind a
  | replace front behind a b => exact .replace front behind b a

theorem Edit.cons (c : α) (h : Edit as bs) : Edit (c :: as) (c :: bs) := by
  cases h with
  | insert front behind a => exact .insert (c :: front) behind a
  | delete front behind a => exact .delete (c :: front) behind a
  | replace front behind a b => exact .replace (c :: front) behind a b

theorem Edit.reverse (h : Edit as bs) : Edit as.reverse bs.reverse := by
  cases h with
  | insert front behind a => simpa using Edit.insert behind.reverse front.reverse a
  | delete front behind a => simpa using Edit.delete behind.reverse front.reverse a
  | replace front behind a b => simpa using Edit.replace behind.reverse front.reverse a b

theorem Edits.single (h : Edit as bs) : Edits 1 as bs :=
  .more h (.none bs)

theorem Edits.trans (hm : Edits m as bs) (hn : Edits n bs cs) : Edits (m + n) as cs := by
  induction hm with
  | none => rwa [Nat.zero_add]
  | more first _ ih =>
    rw [Nat.succ_add]
    exact .more first (ih hn)

theorem Edits.symm (h : Edits n as bs) : Edits n bs as := by
  induction h with
  | none => exact .none _
  | more first _ ih => exact ih.trans (.single first.symm)

/-- What turns edits into edits does so with several of them. -/
theorem Edits.map (f : List α → List α) (hf : ∀ {as bs}, Edit as bs → Edit (f as) (f bs))
    (h : Edits n as bs) : Edits n (f as) (f bs) := by
  induction h with
  | none => exact .none _
  | more first _ ih => exact .more (hf first) ih

theorem edits_reverse : Edits n as.reverse bs.reverse ↔ Edits n as bs := by
  constructor
  · intro h
    have hback := h.map List.reverse Edit.reverse
    rwa [List.reverse_reverse, List.reverse_reverse] at hback
  · exact fun h => h.map List.reverse Edit.reverse

/-- A list is put together element by element. -/
theorem edits_nil (bs : List α) : Edits bs.length [] bs := by
  induction bs with
  | nil => exact .none []
  | cons b bs ih => exact ih.trans (.single (.insert [] bs b))

end Edits

/-! ## No fewer edits than the distance -/

variable [DecidableEq α]

section Lower

variable {as bs : List α}

theorem cost_le_one (a b : α) : (if a = b then 0 else 1) ≤ 1 := by
  split <;> decide

theorem distance_cons_le (a : α) (as cs : List α) : distance (a :: as) cs ≤ distance as cs + 1 := by
  cases cs with
  | nil => rw [distance_nil_right, distance_nil_right, List.length_cons]
  | cons c cs =>
    rw [distance_cons]
    omega

theorem distance_le_cons_right (as cs : List α) (c : α) :
    distance as (c :: cs) ≤ distance as cs + 1 := by
  cases as with
  | nil => rw [distance_nil_left, distance_nil_left, List.length_cons]
  | cons a as =>
    rw [distance_cons]
    omega

/-- An element that is put in front saves one step at most. -/
theorem distance_le_cons (a : α) (as cs : List α) : distance as cs ≤ distance (a :: as) cs + 1 := by
  induction cs with
  | nil =>
    rw [distance_nil_right, distance_nil_right, List.length_cons]
    omega
  | cons c cs ih =>
    have hright := distance_le_cons_right as cs c
    rw [distance_cons]
    omega

/-- So does an element that is replaced in front. -/
theorem distance_replace_le (a b : α) (as cs : List α) :
    distance (a :: as) cs ≤ distance (b :: as) cs + 1 := by
  induction cs with
  | nil =>
    rw [distance_nil_right, distance_nil_right, List.length_cons, List.length_cons]
    omega
  | cons c cs ih =>
    have hcost := cost_le_one a c
    rw [distance_cons, distance_cons]
    omega

/-- Lists that are one step apart from everywhere stay so behind the same elements. -/
theorem distance_append_le (h : ∀ cs, distance as cs ≤ distance bs cs + 1) (front cs : List α) :
    distance (front ++ as) cs ≤ distance (front ++ bs) cs + 1 := by
  induction front generalizing cs with
  | nil => exact h cs
  | cons a front ihfront =>
    induction cs with
    | nil =>
      have hnil := ihfront []
      rw [distance_nil_right, distance_nil_right] at hnil ⊢
      rw [List.cons_append, List.cons_append, List.length_cons, List.length_cons]
      omega
    | cons c cs ih =>
      have hdropped := ihfront (c :: cs)
      have hkept := ihfront cs
      rw [List.cons_append, List.cons_append] at ih ⊢
      rw [distance_cons, distance_cons]
      omega

/-- An edit brings a list nearer to another one by one step at most. -/
theorem Edit.distance_le (h : Edit as bs) (cs : List α) :
    distance as cs ≤ distance bs cs + 1 := by
  cases h with
  | insert front behind a => exact distance_append_le (distance_le_cons a behind) front cs
  | delete front behind a => exact distance_append_le (distance_cons_le a behind) front cs
  | replace front behind a b => exact distance_append_le (distance_replace_le a b behind) front cs

theorem Edits.distance_le {n : Nat} (h : Edits n as bs) : distance as bs ≤ n := by
  induction h with
  | none => exact Nat.le_of_eq (distance_eq_zero.2 rfl)
  | @more n as bs cs first _ ih =>
    have hfirst := first.distance_le cs
    omega

end Lower

/-! ## As many edits as the distance -/

/-- A list is turned into another one by as many edits as their distance. -/
theorem edits_distance (as bs : List α) : Edits (distance as bs) as bs := by
  fun_induction distance as bs with
  | case1 bs => exact edits_nil bs
  | case2 a as => exact (edits_nil (a :: as)).symm
  | case3 a as b bs hdropped hadded hkept =>
    -- the least of the three numbers says which edit is made in front
    have hleast : ∀ x y z : Nat, min (min x y) z = x ∨ min (min x y) z = y ∨ min (min x y) z = z := by
      omega
    rcases hleast (distance as (b :: bs) + 1) (distance (a :: as) bs + 1)
      (distance as bs + if a = b then 0 else 1) with heq | heq | heq
    · rw [heq]
      exact .more (.delete [] as a) hdropped
    · rw [heq]
      exact hadded.trans (.single (.insert [] bs b))
    · rw [heq]
      by_cases hab : a = b
      · rw [if_pos hab, hab]
        exact hkept.map (b :: ·) (Edit.cons b)
      · rw [if_neg hab]
        exact .more (.replace [] as a b) (hkept.map (b :: ·) (Edit.cons b))

/-- The distance is the least number of edits. -/
theorem isLeast_distance (as bs : List α) : IsLeast {n | Edits n as bs} (distance as bs) :=
  ⟨edits_distance as bs, fun _ h => h.distance_le⟩

/-! ## The last row -/

/-- The rows end in the least number of edits. -/
theorem isLeast_editDistance (as bs : List α) :
    IsLeast {n | Edits n as bs} (editDistance as bs) := by
  have h := isLeast_distance as.reverse bs.reverse
  simp only [edits_reverse] at h
  rwa [editDistance_eq]

/-- The rows, which go through prefixes, come to the recursion on first elements. -/
theorem editDistance_eq_distance (as bs : List α) : editDistance as bs = distance as bs :=
  (isLeast_editDistance as bs).unique (isLeast_distance as bs)

theorem editDistance_comm (as bs : List α) : editDistance as bs = editDistance bs as :=
  Nat.le_antisymm ((isLeast_editDistance as bs).2 (isLeast_editDistance bs as).1.symm)
    ((isLeast_editDistance bs as).2 (isLeast_editDistance as bs).1.symm)

theorem editDistance_triangle (as bs cs : List α) :
    editDistance as cs ≤ editDistance as bs + editDistance bs cs :=
  (isLeast_editDistance as cs).2 ((isLeast_editDistance as bs).1.trans (isLeast_editDistance bs cs).1)

end TypedRoutes.Text

namespace TypedRoutes

open Text (lower Edits)

/-- The distance of two names is the least number of characters that must be put in, taken out or
replaced to turn one into the other, both in lower case, and it is what the recursion on their first
characters comes to. So it is the same both ways, a detour is never shorter, and only names that
differ in the case of their letters at most have none. -/
theorem nameDistance_isLeast (a b : String) :
    IsLeast {n | Edits n (lower a.toList) (lower b.toList)} (nameDistance a b) ∧
      nameDistance a b = Text.EditDistance.distance (lower a.toList) (lower b.toList) ∧
      nameDistance a b = nameDistance b a ∧
      (∀ c, nameDistance a c ≤ nameDistance a b + nameDistance b c) ∧
      (nameDistance a b = 0 ↔ lower a.toList = lower b.toList) := by
  refine ⟨?_, ?_, ?_, ?_, nameDistance_eq_zero⟩
  · exact Text.isLeast_editDistance _ _
  · exact Text.editDistance_eq_distance _ _
  · exact Text.editDistance_comm _ _
  · exact fun c => Text.editDistance_triangle _ _ _

/-- One character is replaced and one put in, and the case of another does not count. -/
example : nameDistance "FamilyRoot" "familyRoute" = 2 := by
  decide +kernel

end TypedRoutes
