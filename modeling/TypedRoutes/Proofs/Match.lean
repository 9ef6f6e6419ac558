import TypedRoutes.Navigation.Route
import TypedRoutes.Proofs.Percent

/-!
# Matching paths piece by piece

* `pieces_intercalate` : the pieces of a path that is put together from pieces;
* `pieceValue_encode` : a written value fills a piece unless it is empty;
* `matchPieces_literal`, `matchPieces_param`, `matchPieces_written` : one piece of a template;
* `matchPieces_length` : a template only matches paths of as many pieces.
-/

namespace TypedRoutes.Navigation

open Text

/-! ## Pieces -/

theorem pieces_intercalate {ls : List (List Char)} (h : ∀ l ∈ ls, '/' ∉ l) (hne : ls ≠ []) :
    pieces (['/'].intercalate ls) = ls :=
  List.splitOn_intercalate '/' h hne

theorem slash_not_mem_encode (s : String) : '/' ∉ (Percent.encode s).toList :=
  Percent.not_mem_encode (by decide) s

/-- A written value fills a piece unless it is empty. -/
theorem pieceValue_encode (value : String) :
    pieceValue (Percent.encode value).toList = if value = "" then none else some value := by
  unfold pieceValue
  by_cases hv : value = ""
  · have henc : (Percent.encode value).toList.isEmpty = true := by
      rw [List.isEmpty_iff, String.toList_eq_nil_iff, Percent.encode_eq_empty]
      exact hv
    rw [if_pos henc, if_pos hv]
  · have henc : ¬(Percent.encode value).toList.isEmpty = true := by
      rw [List.isEmpty_iff, String.toList_eq_nil_iff, Percent.encode_eq_empty]
      exact hv
    rw [if_neg henc, if_neg hv, String.ofList_toList, Percent.decode_encode]

/-! ## Matching -/

theorem matchPieces_literal {want : List Char} (h : want.head? ≠ some ':') (got : List Char)
    (ws gs : List (List Char)) :
    matchPieces (want :: ws) (got :: gs) = if want = got then matchPieces ws gs else none := by
  cases want with
  | nil => rw [matchPieces]; simp
  | cons c name =>
    rw [matchPieces]
    rintro _ ⟨rfl, -⟩
    exact h rfl

theorem matchPieces_param (name got : List Char) (ws gs : List (List Char)) :
    matchPieces ((':' :: name) :: ws) (got :: gs) =
      (pieceValue got).bind fun v =>
        (matchPieces ws gs).map fun rest => (String.ofList name, v) :: rest := by
  rw [matchPieces]
  cases pieceValue got <;> cases matchPieces ws gs <;> rfl

/-- A written value is what a parameter matches, unless it is empty. -/
theorem matchPieces_written (name : List Char) (value : String) (ws gs : List (List Char)) :
    matchPieces ((':' :: name) :: ws) ((Percent.encode value).toList :: gs) =
      if value = "" then none
      else (matchPieces ws gs).map fun rest => (String.ofList name, value) :: rest := by
  rw [matchPieces_param, pieceValue_encode]
  split <;> rfl

theorem matchPieces_length {ws gs : List (List Char)} {ps : Params}
    (h : matchPieces ws gs = some ps) : ws.length = gs.length := by
  induction ws generalizing gs ps with
  | nil =>
    cases gs with
    | nil => rfl
    | cons got gs => cases h
  | cons want ws ih =>
    cases gs with
    | nil => simp [matchPieces] at h
    | cons got gs =>
      have hrest : ∃ qs, matchPieces ws gs = some qs := by
        by_cases hw : want.head? = some ':'
        · obtain ⟨name, rfl⟩ : ∃ name, want = ':' :: name := List.head?_eq_some_iff.1 hw
          rw [matchPieces_param, Option.bind_eq_some_iff] at h
          obtain ⟨v, -, h⟩ := h
          obtain ⟨qs, hqs, -⟩ := Option.map_eq_some_iff.1 h
          exact ⟨qs, hqs⟩
        · rw [matchPieces_literal hw] at h
          split at h
          · exact ⟨ps, h⟩
          · cases h
      obtain ⟨qs, hqs⟩ := hrest
      rw [List.length_cons, List.length_cons, ih hqs]

theorem matchPieces_of_length_ne (ws gs : List (List Char)) (h : ws.length ≠ gs.length) :
    matchPieces ws gs = none := by
  cases hm : matchPieces ws gs with
  | none => rfl
  | some ps => exact absurd (matchPieces_length hm) h

end TypedRoutes.Navigation
