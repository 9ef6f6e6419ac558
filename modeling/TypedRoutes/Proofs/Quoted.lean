import Mathlib
import TypedRoutes.Syntax.Literal
import TypedRoutes.Text.Quoted

/-!
# Reading quoted texts

* `afterCodePoint_hexDigits` : a number in hexadecimal digits is read back;
* `cookedValue_encodeChars` : the characters between the quotes are read back, one in each step;
* `textValue?_encode` : a quoted text stands for that text.
-/

namespace TypedRoutes.Syntax.Literal

open Text.Quoted

/-! ## Numbers of characters -/

theorem hexValue_digitChar : ∀ k < 16, hexValue k.digitChar = some k := by
  decide

theorem afterCodePoint_digitChar {value digits k : Nat} (hk : k < 16) (hdigits : digits < 6)
    (rest : List Char) :
    afterCodePoint value digits (k.digitChar :: rest) =
      afterCodePoint (16 * value + k) (digits + 1) rest := by
  rw [afterCodePoint, hexValue_digitChar k hk]
  dsimp only
  rw [if_neg (Nat.ne_of_lt hdigits)]

theorem afterCodePoint_hexDigits {n : Nat} (hn : n < 16 ^ 6) (rest : List Char) :
    afterCodePoint 0 0 (hexDigits n ++ rest) = afterCodePoint n (hexDigits n).length rest := by
  induction n using Nat.strongRecOn generalizing rest with
  | ind n ih =>
    unfold hexDigits at ih ⊢
    rw [Nat.toDigits_eq_if (by decide)]
    split
    · next hsmall =>
      rw [List.singleton_append, afterCodePoint_digitChar hsmall (by decide)]
      simp
    · next hlarge =>
      have hlength : (Nat.toDigits 16 (n / 16)).length < 6 := by
        have hle := (Nat.length_toDigits_le_iff (b := 16) (n := n / 16) (k := 5) (by decide)
          (by decide)).2 (by omega)
        omega
      rw [List.append_assoc, ih (n / 16) (by omega) (by omega), List.singleton_append,
        afterCodePoint_digitChar (Nat.mod_lt n (by decide)) hlength, Nat.div_add_mod,
        List.length_append, List.length_singleton]

theorem toNat_lt_of_char (c : Char) : c.toNat < 16 ^ 6 := by
  have h := c.valid
  simp only [UInt32.isValidChar, Nat.isValidChar] at h
  unfold Char.toNat
  omega

/-- The escape of a character by its number. -/
theorem escapeValue_byNumber (c : Char) (rest : List Char) :
    escapeValue ('u' :: '\x7b' :: (hexDigits c.toNat ++ '\x7d' :: rest)) = some ([c], rest) := by
  have hvalid : c.toNat.isValidChar := c.valid
  have hsome : (hexDigits c.toNat).length ≠ 0 := by
    have h := Nat.length_toDigits_pos (b := 16) (n := c.toNat)
    unfold hexDigits
    omega
  have hclose : hexValue '\x7d' = none := by decide
  have hread : afterCodePoint c.toNat (hexDigits c.toNat).length ('\x7d' :: rest) =
      some (c.toNat, rest) := by
    rw [afterCodePoint, hclose]
    simp [hsome, hvalid]
  rw [escapeValue, afterCodePoint_hexDigits (toNat_lt_of_char c), hread]
  simp [Char.ofNat_toNat]

/-! ## Characters -/

theorem cookedValue_escape {n : Nat} {value cs rest : List Char} (h : escapeValue cs = some (value, rest)) :
    cookedValue (n + 1) ('\\' :: cs) = (cookedValue n rest).map (value ++ ·) := by
  rw [cookedValue, h]
  cases hrest : cookedValue n rest <;> simp [hrest]

/-- A character that is not NUL is read back in one step. -/
theorem cookedValue_encodeChar (n : Nat) (c : Char) (rest : List Char) :
    cookedValue (n + 1) (encodeChar c ++ rest) = (cookedValue n rest).map (c :: ·) := by
  have hshort : ∀ e value, escapeValue (e :: rest) = some ([value], rest) →
      cookedValue (n + 1) (['\\', e] ++ rest) = (cookedValue n rest).map (value :: ·) :=
    fun e value h => cookedValue_escape h
  unfold encodeChar
  split
  · exact hshort 't' '\t' rfl
  · exact hshort 'r' '\r' rfl
  · exact hshort 'n' '\n' rfl
  · exact hshort '\\' '\\' rfl
  · exact hshort '"' '"' rfl
  · split
    · rw [List.singleton_append, cookedValue] <;> simp_all
    · have hescape := cookedValue_escape (n := n) (escapeValue_byNumber c rest)
      simpa [byNumber] using hescape

theorem encodeChars_cons {c : Char} (hnul : c ≠ Char.ofNat 0) (cs : List Char) :
    encodeChars (c :: cs) = encodeChar c ++ encodeChars cs := by
  rw [encodeChars.eq_def]
  dsimp only
  rw [if_neg hnul]

theorem encodeChars_nul (cs : List Char) :
    encodeChars (Char.ofNat 0 :: cs) = '\\' :: '0' :: encodeChars cs ∨
      encodeChars (Char.ofNat 0 :: cs) = '\\' :: 'x' :: '0' :: '0' :: encodeChars cs := by
  rw [encodeChars.eq_def]
  dsimp only
  rw [if_pos rfl]
  split
  · split
    · exact Or.inr rfl
    · exact Or.inl rfl
  · exact Or.inl rfl

/-- NUL is read back in one step, whichever digits its escape has. -/
theorem cookedValue_nul (n : Nat) (cs rest : List Char) :
    cookedValue (n + 1) (encodeChars (Char.ofNat 0 :: cs) ++ rest) =
      (cookedValue n (encodeChars cs ++ rest)).map (Char.ofNat 0 :: ·) := by
  have hshort : escapeValue ('0' :: (encodeChars cs ++ rest)) =
      some ([Char.ofNat 0], encodeChars cs ++ rest) := rfl
  have hlong : escapeValue ('x' :: '0' :: '0' :: (encodeChars cs ++ rest)) =
      some ([Char.ofNat 0], encodeChars cs ++ rest) := rfl
  rcases encodeChars_nul cs with h | h
  · rw [h]
    exact cookedValue_escape hshort
  · rw [h]
    exact cookedValue_escape hlong

/-- The characters between the quotes are read back, one in each step. -/
theorem cookedValue_encodeChars (cs rest : List Char) {n : Nat} (hn : cs.length < n) :
    cookedValue n (encodeChars cs ++ '"' :: rest) = some cs := by
  induction cs generalizing n with
  | nil =>
    obtain ⟨m, rfl⟩ := Nat.exists_eq_add_of_lt hn
    rfl
  | cons c cs ih =>
    obtain ⟨m, rfl⟩ := Nat.exists_eq_add_one_of_ne_zero (Nat.ne_zero_of_lt hn)
    have hrest : cookedValue m (encodeChars cs ++ '"' :: rest) = some cs :=
      ih (Nat.lt_of_succ_lt_succ hn)
    by_cases hnul : c = Char.ofNat 0
    · rw [hnul, cookedValue_nul, hrest]
      rfl
    · rw [encodeChars_cons hnul, List.append_assoc, cookedValue_encodeChar, hrest]
      rfl

theorem length_le_encodeChars (cs : List Char) : cs.length ≤ (encodeChars cs).length := by
  have hchar : ∀ c, 1 ≤ (encodeChar c).length := by
    intro c
    unfold encodeChar byNumber
    split
    case h_6 => split <;> simp
    all_goals exact Nat.le_add_left 1 1
  induction cs with
  | nil => exact Nat.le_refl 0
  | cons c cs ih =>
    by_cases hnul : c = Char.ofNat 0
    · rw [hnul]
      rcases encodeChars_nul cs with h | h <;> rw [h] <;> simp only [List.length_cons] <;> omega
    · rw [encodeChars_cons hnul, List.length_append, List.length_cons]
      have hhead := hchar c
      omega

/-- A quoted text stands for that text. -/
theorem textValue?_encode (s : String) : textValue? (encode s) = some s := by
  have hsteps : s.toList.length < (encodeChars s.toList ++ ['"']).length + 1 := by
    have h := length_le_encodeChars s.toList
    rw [List.length_append]
    omega
  have hread := cookedValue_encodeChars s.toList [] hsteps
  have htext : (encode s).toList = '"' :: (encodeChars s.toList ++ ['"']) := by
    rw [encode, String.toList_ofList]
    rfl
  have hvalue : (cookedValue ((encodeChars s.toList ++ ['"']).length + 1)
      (encodeChars s.toList ++ ['"'])).map String.ofList = some s := by
    rw [hread, Option.map_some, String.ofList_toList]
  unfold textValue?
  rw [htext]
  exact hvalue

end TypedRoutes.Syntax.Literal
