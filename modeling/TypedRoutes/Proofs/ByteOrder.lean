import Mathlib.Data.List.Basic
import TypedRoutes.Proofs.Percent
import TypedRoutes.Schema.Catalog

/-!
# The order of texts and of their octets

* `utf8EncodeChar_lt` : a smaller character has smaller octets, whatever stands behind;
* `octets_lt_iff` : texts are in the order of their octets;
* `toList_of_octets` : the characters of an ASCII text are its octets.
-/

namespace TypedRoutes.Text

theorem ofNat_lt_ofNat {m n : Nat} (hm : m < 256) (hn : n < 256) :
    UInt8.ofNat m < UInt8.ofNat n ↔ m < n := by
  rw [UInt8.lt_iff_toNat_lt, UInt8.toNat_ofNat', UInt8.toNat_ofNat', Nat.mod_eq_of_lt hm,
    Nat.mod_eq_of_lt hn]

theorem ofNat_eq_ofNat {m n : Nat} (hm : m < 256) (hn : n < 256) :
    UInt8.ofNat m = UInt8.ofNat n ↔ m = n := by
  rw [← UInt8.toNat_inj, UInt8.toNat_ofNat', UInt8.toNat_ofNat', Nat.mod_eq_of_lt hm,
    Nat.mod_eq_of_lt hn]

/-- A smaller character has smaller octets, whatever stands behind them. -/
theorem utf8EncodeChar_lt {c d : Char} (h : c < d) (xs ys : List UInt8) :
    String.utf8EncodeChar c ++ xs < String.utf8EncodeChar d ++ ys := by
  have hlt : c.val.toNat < d.val.toNat := h
  have hd : d.val.toNat < 0x110000 := by
    have hvalid : d.val.toNat < 0xd800 ∨ 0xdfff < d.val.toNat ∧ d.val.toNat < 0x110000 := d.valid
    omega
  unfold String.utf8EncodeChar
  generalize c.val.toNat = m at *
  generalize d.val.toNat = n at *
  have hm : m / 262144 % 8 = m / 4096 / 64 ∧ m / 4096 = m / 64 / 64 := by omega
  have hn : n / 262144 % 8 = n / 4096 / 64 ∧ n / 4096 = n / 64 / 64 := by omega
  dsimp only
  split_ifs <;>
    simp (disch := omega) only [List.cons_append, List.nil_append, List.cons_lt_cons_iff,
      ofNat_lt_ofNat, ofNat_eq_ofNat] <;>
    omega

theorem flatMap_utf8EncodeChar_lt {cs ds : List Char} (h : cs < ds) :
    cs.flatMap String.utf8EncodeChar < ds.flatMap String.utf8EncodeChar := by
  induction cs generalizing ds with
  | nil =>
    cases ds with
    | nil => exact absurd h (List.lt_irrefl [])
    | cons d ds =>
      obtain ⟨b, bs, hbs⟩ := List.exists_cons_of_ne_nil (String.utf8EncodeChar_ne_nil (c := d))
      rw [List.flatMap_nil, List.flatMap_cons, hbs]
      exact List.nil_lt_cons b _
  | cons c cs ih =>
    cases ds with
    | nil => exact absurd h (List.not_lt_nil _)
    | cons d ds =>
      rw [List.flatMap_cons, List.flatMap_cons]
      rcases List.cons_lt_cons_iff.1 h with hc | ⟨rfl, hcs⟩
      · exact utf8EncodeChar_lt hc _ _
      · exact List.append_left_lt (ih hcs)

theorem toList_toUTF8 (s : String) :
    s.toUTF8.toList = s.toList.flatMap String.utf8EncodeChar := by
  rw [Percent.toList_toUTF8, ← String.ofList_toList (s := s), String.toByteArray_ofList,
    String.toList_ofList]
  exact List.toList_data_toByteArray

/-- Texts are in the order of their octets. -/
theorem octets_lt_iff {s t : String} : s.toUTF8.toList < t.toUTF8.toList ↔ s < t := by
  have hmono {s t : String} (h : s < t) : s.toUTF8.toList < t.toUTF8.toList := by
    rw [toList_toUTF8, toList_toUTF8]
    exact flatMap_utf8EncodeChar_lt h
  refine ⟨fun h => ?_, hmono⟩
  by_contra hn
  by_cases heq : s = t
  · rw [heq] at h
    exact List.lt_irrefl _ h
  · exact List.lt_asymm h (hmono (Catalog.lt_of_ne_of_not_lt hn heq))

/-! ## ASCII texts -/

/-- A character whose octets are below 128 is ASCII. -/
theorem toNat_lt_of_octets {c : Char} (h : ∀ o ∈ String.utf8EncodeChar c, o.toNat < 128) :
    c.toNat < 128 := by
  by_contra hc
  have hlt : ¬c.val.toNat ≤ 127 := fun hle => hc (Nat.lt_succ_of_le hle)
  unfold String.utf8EncodeChar at h
  dsimp only at h
  rw [if_neg hlt] at h
  split_ifs at h <;>
    simp only [List.forall_mem_cons, UInt8.toNat_ofNat'] at h <;>
    omega

/-- A text whose octets are below 128 has a character for each of them. -/
theorem toList_of_octets {s : String} (h : s.toByteArray.data.toList.all (·.toNat < 128)) :
    s.toList = s.toByteArray.data.toList.map fun o => Char.ofNat o.toNat := by
  have hoctets : s.toByteArray.data.toList = s.toList.flatMap String.utf8EncodeChar := by
    rw [← Percent.toList_toUTF8, toList_toUTF8]
  rw [hoctets] at h ⊢
  generalize s.toList = cs at h ⊢
  induction cs with
  | nil => rfl
  | cons c cs ih =>
    rw [List.flatMap_cons, List.all_append, Bool.and_eq_true] at h
    have hc : c.toNat < 128 := toNat_lt_of_octets (by simpa using h.1)
    have hmod : (UInt8.ofNat c.toNat).toNat = c.toNat := by
      rw [UInt8.toNat_ofNat']
      omega
    rw [List.flatMap_cons, List.map_append, ← ih h.2, Percent.utf8EncodeChar_ascii hc,
      List.map_singleton, hmod, Char.ofNat_toNat, List.singleton_append]

end TypedRoutes.Text
