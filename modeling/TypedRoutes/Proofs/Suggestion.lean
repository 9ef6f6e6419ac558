import Mathlib.Data.List.Basic
import TypedRoutes.Diagnostic
import TypedRoutes.Proofs.EditDistance
import TypedRoutes.Suggestion

/-!
# What is suggested for a mistyped name

* `FirstLeast` : the first element of a list that has its least key; `firstMin_eq_some`,
  `firstMin_eq_none` : `firstMin` finds it;
* `nameDistance_eq_zero` : names without distance differ in the case of their letters at most;
* `Offers` : a text offers the first of the nearest known names within the allowance;
* `closest_offers` : the known names that are no other spelling of the mistyped one are offered in
  this way, and these are all of them just if none is.
-/

namespace TypedRoutes

open Text (lower editDistance_eq_zero)

/-! ## The first of the least -/

section FirstLeast

variable {α : Type} {key : α → Nat} {as : List α} {a : α}

/-- The first element of a list that has its least key. -/
def FirstLeast (key : α → Nat) (as : List α) (a : α) : Prop :=
  ∃ before behind, as = before ++ a :: behind ∧ (∀ b ∈ before, key a < key b) ∧
    ∀ b ∈ behind, key a ≤ key b

theorem FirstLeast.le (h : FirstLeast key as a) : ∀ b ∈ as, key a ≤ key b := by
  obtain ⟨before, behind, rfl, hbefore, hbehind⟩ := h
  intro b hb
  rcases List.mem_append.1 hb with hb | hb
  · exact Nat.le_of_lt (hbefore b hb)
  · rcases List.mem_cons.1 hb with rfl | hb
    · exact Nat.le_refl _
    · exact hbehind b hb

theorem firstMin_eq_none : firstMin key as = none ↔ as = [] := by
  constructor
  · intro h
    cases as with
    | nil => rfl
    | cons b as =>
      rw [firstMin] at h
      split at h
      · split at h <;> cases h
      · cases h
  · rintro rfl
    rfl

theorem firstLeast_of_firstMin (h : firstMin key as = some a) : FirstLeast key as a := by
  induction as generalizing a with
  | nil => cases h
  | cons c as ih =>
    rw [firstMin] at h
    cases hrest : firstMin key as with
    | none =>
      obtain rfl := firstMin_eq_none.1 hrest
      rw [hrest] at h
      cases h
      exact ⟨[], [], rfl, List.forall_mem_nil _, List.forall_mem_nil _⟩
    | some b =>
      have hb := ih hrest
      rw [hrest] at h
      dsimp only at h
      by_cases hlt : key b < key c
      · rw [if_pos hlt] at h
        cases h
        obtain ⟨before, behind, rfl, hbefore, hbehind⟩ := hb
        exact ⟨c :: before, behind, rfl, List.forall_mem_cons.2 ⟨hlt, hbefore⟩, hbehind⟩
      · rw [if_neg hlt] at h
        cases h
        exact ⟨[], as, rfl, List.forall_mem_nil _, fun d hd =>
          Nat.le_trans (Nat.not_lt.1 hlt) (hb.le d hd)⟩

theorem firstMin_of_firstLeast (h : FirstLeast key as a) : firstMin key as = some a := by
  obtain ⟨before, behind, rfl, hbefore, hbehind⟩ := h
  induction before with
  | nil =>
    rw [List.nil_append, firstMin]
    cases hrest : firstMin key behind with
    | none => rfl
    | some b =>
      have hle : key a ≤ key b := hbehind b (firstMin_mem hrest)
      dsimp only
      rw [if_neg (Nat.not_lt.2 hle)]
  | cons c before ih =>
    obtain ⟨hc, hbefore⟩ := List.forall_mem_cons.1 hbefore
    rw [List.cons_append, firstMin, ih hbefore]
    dsimp only
    rw [if_pos hc]

/-- The first element with the least key is found. -/
theorem firstMin_eq_some : firstMin key as = some a ↔ FirstLeast key as a :=
  ⟨firstLeast_of_firstMin, firstMin_of_firstLeast⟩

end FirstLeast

/-! ## Names -/

/-- Names without distance differ in the case of their letters at most. -/
theorem nameDistance_eq_zero {a b : String} :
    nameDistance a b = 0 ↔ lower a.toList = lower b.toList :=
  editDistance_eq_zero

theorem didYouMean_eq_iff {s : Option String} {o : String} :
    Fault.didYouMean s = s!" Did you mean '{o}'?" ↔ s = some o := by
  cases s with
  | none =>
    refine ⟨fun h => ?_, by simp⟩
    -- the empty text is shorter than what a suggestion begins with
    have hlength := congrArg String.length h
    simp only [Fault.didYouMean, String.length_append] at hlength
    have hlead : (toString " Did you mean '").length = 15 := by decide
    have hempty : "".length = 0 := rfl
    omega
  | some p =>
    simp only [Fault.didYouMean, String.append_left_inj, String.append_right_inj, Option.some.injEq]
    exact Iff.rfl

section Names

variable (name : String) (known : List String)

/-- A text offers the first of the nearest known names that are within the allowance of a name, and
is empty if there is none. -/
def Offers (text : String) : Prop :=
  (∃ o, FirstLeast (nameDistance name) (known.filter (nameDistance name · ≤ allowance name)) o ∧
    text = s!" Did you mean '{o}'?") ∨
  (∀ o ∈ known, allowance name < nameDistance name o) ∧ text = ""

theorem offers_firstMin :
    Offers name known (Fault.didYouMean
      (firstMin (nameDistance name) (known.filter (nameDistance name · ≤ allowance name)))) := by
  cases h : firstMin (nameDistance name) (known.filter (nameDistance name · ≤ allowance name)) with
  | none =>
    refine Or.inr ⟨fun o ho => ?_, rfl⟩
    have hfar := List.filter_eq_nil_iff.1 (firstMin_eq_none.1 h) o ho
    simpa using hfar
  | some o => exact Or.inl ⟨o, firstMin_eq_some.1 h, rfl⟩

/-- The names that are another spelling of the mistyped one are left aside. -/
theorem closest_eq :
    closest name known =
      firstMin (nameDistance name)
        ((known.filter fun o => lower o.toList ≠ lower name.toList).filter
          (nameDistance name · ≤ allowance name)) := by
  rw [closest, List.filter_filter]
  congr 1
  refine List.filter_congr fun o _ => ?_
  have hzero : lower o.toList ≠ lower name.toList ↔ 0 < nameDistance name o := by
    rw [Nat.pos_iff_ne_zero, ne_comm]
    exact nameDistance_eq_zero.not.symm
  simp only [hzero]

/-- What is suggested is the first of the nearest known names within the allowance among those that
are no other spelling of the mistyped name. All known names are looked at just if none of them is
such a spelling. -/
theorem closest_offers :
    Offers name (known.filter fun o => lower o.toList ≠ lower name.toList)
        (Fault.didYouMean (closest name known)) ∧
      (Offers name known (Fault.didYouMean (closest name known)) ↔
        ∀ o ∈ known, lower o.toList ≠ lower name.toList) := by
  have hothers := offers_firstMin name (known.filter fun o => lower o.toList ≠ lower name.toList)
  rw [← closest_eq] at hothers
  refine ⟨hothers, fun h o ho heq => ?_, fun hall => ?_⟩
  · -- such a spelling is nearest of all, and only names with some distance are suggested
    have hzero : nameDistance name o = 0 := nameDistance_eq_zero.2 heq.symm
    rcases h with ⟨p, hp, htext⟩ | ⟨hfar, -⟩
    · have hle := hp.le o (List.mem_filter.2 ⟨ho, by simp [hzero]⟩)
      have hmem := firstMin_mem (didYouMean_eq_iff.1 htext)
      have hpos : 0 < nameDistance name p := by
        have hp := (List.mem_filter.1 hmem).2
        simp only [Bool.and_eq_true, decide_eq_true_eq] at hp
        exact hp.2
      omega
    · have := hfar o ho
      omega
  · have hsame : known.filter (fun o => lower o.toList ≠ lower name.toList) = known :=
      List.filter_eq_self.2 fun o ho => by simpa using hall o ho
    rwa [hsame] at hothers

end Names

/-- The only known name is not suggested to one who mistypes its capitals. -/
example : closest "homeroute" ["HomeRoute"] = none := by
  decide

end TypedRoutes
