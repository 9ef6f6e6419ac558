import Mathlib.Data.List.Basic
import TypedRoutes.Json.Reader
import TypedRoutes.Json.Writer

/-!
# JSON as text: reading what was written

* `textBody_writeChar` : the written form of a character is read as the character;
* `text_writeText` : a written text is read back;
* `isNumberless` : whether a value has no number in it, and nothing that cannot be read;
* `value_writeChars` : the characters of such a value are read as the value, whatever follows them;
* `parse_write` : such a value is read back from its text.
-/

namespace TypedRoutes.Json

/-! ## Characters -/

theorem hexDigit_hexChar : ∀ n < 16, hexDigit (hexChar n) = some n := by
  decide

/-- A character is written as a short escape, by number, or as itself. -/
theorem writeChar_forms (c : Char) :
    (∃ e, writeChar c = ['\\', e] ∧ e ≠ 'u' ∧ shortEscape e = some c) ∨
      (c.toNat < 32 ∧
        writeChar c = ['\\', 'u', '0', '0', hexChar (c.toNat / 16), hexChar (c.toNat % 16)]) ∨
      (writeChar c = [c] ∧ c ≠ '"' ∧ c ≠ '\\' ∧ ¬c < ' ') := by
  unfold writeChar
  split
  · next h => exact .inl ⟨'"', rfl, by decide, by rw [h]; rfl⟩
  split
  · next h => exact .inl ⟨'\\', rfl, by decide, by rw [h]; rfl⟩
  split
  · next h => exact .inl ⟨'b', rfl, by decide, h ▸ rfl⟩
  split
  · next h => exact .inl ⟨'f', rfl, by decide, h ▸ rfl⟩
  split
  · next h => exact .inl ⟨'n', rfl, by decide, h ▸ rfl⟩
  split
  · next h => exact .inl ⟨'r', rfl, by decide, h ▸ rfl⟩
  split
  · next h => exact .inl ⟨'t', rfl, by decide, h ▸ rfl⟩
  split
  · next h => exact .inr (.inl ⟨h, rfl⟩)
  · next hquote hback _ _ _ _ _ hcontrol => exact .inr (.inr ⟨rfl, hquote, hback, hcontrol⟩)

theorem textBody_short {e c : Char} (he : e ≠ 'u') (h : shortEscape e = some c)
    (rest : List Char) :
    textBody none ('\\' :: e :: rest) = (textBody none rest).map (TextRest.add none c) := by
  rw [textBody.eq_3 _ _ _ fun _ _ _ _ _ hu _ => he hu, h]
  cases textBody none rest <;> rfl

theorem textBody_unit {n : Nat} (hn : n < 32) (rest : List Char) :
    textBody none ('\\' :: 'u' :: '0' :: '0' :: hexChar (n / 16) :: hexChar (n % 16) :: rest) =
      (textBody none rest).map (TextRest.add none (Char.ofNat n)) := by
  have hunit : unit '0' '0' (hexChar (n / 16)) (hexChar (n % 16)) = some n := by
    have hzero : hexDigit '0' = some 0 := rfl
    unfold unit
    rw [hexDigit_hexChar _ (by omega), hexDigit_hexChar _ (by omega), hzero]
    simp only [Option.pure_def, Option.bind_eq_bind, Option.bind_some, Option.some.injEq]
    omega
  have hhigh : isHighHalf n = false := by
    simp only [isHighHalf, Bool.and_eq_false_iff, decide_eq_false_iff_not]
    omega
  have hlow : isLowHalf n = false := by
    simp only [isLowHalf, Bool.and_eq_false_iff, decide_eq_false_iff_not]
    omega
  rw [textBody.eq_2, hunit]
  simp only [Option.bind_eq_bind, Option.bind_some, hhigh, Bool.and_false, Bool.false_eq_true,
    if_false]
  cases textBody none rest with
  | none => rfl
  | some t =>
    simp only [Option.bind_some, TextRest.addUnit, hlow]
    rfl

theorem textBody_plain {c : Char} (hquote : c ≠ '"') (hback : c ≠ '\\') (hcontrol : ¬c < ' ')
    (rest : List Char) :
    textBody none (c :: rest) = (textBody none rest).map (TextRest.add none c) := by
  rw [textBody.eq_4 _ _ _ hquote (fun _ _ _ _ _ h _ => hback h) (fun _ _ h _ => hback h),
    if_neg (not_or.2 ⟨hcontrol, hback⟩)]
  cases textBody none rest <;> rfl

/-- The written form of a character is read as the character. -/
theorem textBody_writeChar (c : Char) (rest : List Char) :
    textBody none (writeChar c ++ rest) = (textBody none rest).map (TextRest.add none c) := by
  rcases writeChar_forms c with ⟨e, hw, he, hc⟩ | ⟨hn, hw⟩ | ⟨hw, hquote, hback, hcontrol⟩
  · rw [hw]
    exact textBody_short he hc rest
  · rw [hw]
    have h := textBody_unit hn rest
    rwa [Char.ofNat_toNat] at h
  · rw [hw]
    exact textBody_plain hquote hback hcontrol rest

theorem textBody_writeChars (cs rest : List Char) :
    textBody none (cs.flatMap writeChar ++ '"' :: rest) = some (some cs, rest) := by
  induction cs with
  | nil => exact textBody.eq_1 none rest
  | cons c cs ih =>
    rw [List.flatMap_cons, List.append_assoc, textBody_writeChar, ih]
    rfl

/-- A written text is read back. -/
theorem text_writeText (s : String) (rest : List Char) :
    text (writeText s ++ rest) = some (some s, rest) := by
  have h := textBody_writeChars s.toList rest
  unfold writeText text
  simp only [List.cons_append, List.append_assoc, List.nil_append]
  rw [h]
  simp

/-! ## Values without numbers -/

mutual

/-- Whether a value has no number in it, and nothing that cannot be read. -/
def isNumberless : Json → Bool
  | number _ => false
  | unreadable => false
  | array items => areNumberless items
  | object members => membersNumberless members
  | _ => true

def areNumberless : List Json → Bool
  | [] => true
  | j :: rest => j.isNumberless && areNumberless rest

def membersNumberless : List (String × Json) → Bool
  | [] => true
  | (_, j) :: rest => j.isNumberless && membersNumberless rest

end

theorem areNumberless_map {α : Type} {f : α → Json} (h : ∀ a, (f a).isNumberless = true)
    (as : List α) : areNumberless (as.map f) = true := by
  induction as with
  | nil => rfl
  | cons a as ih => exact Bool.and_eq_true_iff.2 ⟨h a, ih⟩

mutual

theorem isReadable_of_isNumberless : ∀ {j : Json}, j.isNumberless = true → j.isReadable = true
  | null, _ => rfl
  | bool _, _ => rfl
  | string _, _ => rfl
  | array _, h => areReadable_of_areNumberless h
  | object _, h => membersReadable_of_membersNumberless h

theorem areReadable_of_areNumberless :
    ∀ {js : List Json}, areNumberless js = true → areReadable js = true
  | [], _ => rfl
  | _ :: _, h => by
    have ⟨hj, hjs⟩ := Bool.and_eq_true_iff.1 h
    exact Bool.and_eq_true_iff.2 ⟨isReadable_of_isNumberless hj, areReadable_of_areNumberless hjs⟩

theorem membersReadable_of_membersNumberless :
    ∀ {ms : List (String × Json)}, membersNumberless ms = true → membersReadable ms = true
  | [], _ => rfl
  | (_, _) :: _, h => by
    have ⟨hj, hms⟩ := Bool.and_eq_true_iff.1 h
    exact Bool.and_eq_true_iff.2
      ⟨isReadable_of_isNumberless hj, membersReadable_of_membersNumberless hms⟩

end

/-! ## Beginnings -/

theorem skipBlanks_cons {c : Char} (h : isBlank c = false) (cs : List Char) :
    skipBlanks (c :: cs) = c :: cs := by
  unfold skipBlanks
  rw [List.dropWhile_cons_of_neg (by simp [h])]

/-- A character that a value may begin with. -/
def opensValue (c : Char) : Bool :=
  c = '{' || c = '[' || c = '"' || c = 'n' || c = 't' || c = 'f'

theorem opensValue_ne {c : Char} (h : opensValue c = true) :
    isBlank c = false ∧ c ≠ ']' ∧ c ≠ '}' := by
  unfold opensValue at h
  simp only [Bool.or_eq_true, decide_eq_true_eq] at h
  rcases h with ((((rfl | rfl) | rfl) | rfl) | rfl) | rfl <;> decide

theorem writeChars_opens {j : Json} (h : j.isNumberless = true) :
    ∃ c cs, writeChars j = c :: cs ∧ opensValue c = true := by
  cases j with
  | null => exact ⟨'n', _, rfl, rfl⟩
  | bool b => cases b with
    | true => exact ⟨'t', _, rfl, rfl⟩
    | false => exact ⟨'f', _, rfl, rfl⟩
  | number t => cases h
  | string s => exact ⟨'"', _, rfl, rfl⟩
  | array items => exact ⟨'[', _, rfl, rfl⟩
  | object members => exact ⟨'{', _, rfl, rfl⟩
  | unreadable => cases h

/-! ## Values -/

section Steps

variable {n : Nat} {c : Char} {cs rest : List Char} {j : Json}

theorem value_array {js : List Json} (hc : opensValue c = true)
    (h : items n (c :: cs) = some (js, rest)) :
    value (n + 1) ('[' :: c :: cs) = some (array js, rest) := by
  have ⟨hblank, hclose, _⟩ := opensValue_ne hc
  rw [value, skipBlanks_cons (by decide)]
  simp only [skipBlanks_cons hblank]
  split
  · next heq => exact absurd (List.cons.inj heq).1 hclose
  · rw [h]
    rfl

theorem value_object {ms : List (Option String × Json)} (hc : opensValue c = true)
    (h : members n (c :: cs) = some (ms, rest)) :
    value (n + 1) ('{' :: c :: cs) = some (objectOf ms, rest) := by
  have ⟨hblank, _, hclose⟩ := opensValue_ne hc
  rw [value, skipBlanks_cons (by decide)]
  simp only [skipBlanks_cons hblank]
  split
  · next heq => exact absurd (List.cons.inj heq).1 hclose
  · rw [h]
    rfl

theorem value_string (s : String) : value (n + 1) (writeText s ++ rest) = some (string s, rest) := by
  have h := text_writeText s rest
  unfold writeText at h ⊢
  simp only [List.cons_append] at h ⊢
  rw [value, skipBlanks_cons (by decide)]
  simp only [h]
  rfl

theorem items_last (h : value n cs = some (j, ']' :: rest)) :
    items (n + 1) cs = some ([j], rest) := by
  rw [items, h]
  simp only [Option.bind_eq_bind, Option.bind_some, skipBlanks_cons (c := ']') (by decide)]
  rfl

theorem items_more {tail : List Char} {js : List Json} (h : value n cs = some (j, ',' :: tail))
    (hjs : items n tail = some (js, rest)) : items (n + 1) cs = some (j :: js, rest) := by
  rw [items, h]
  simp only [Option.bind_eq_bind, Option.bind_some, skipBlanks_cons (c := ',') (by decide), hjs]
  rfl

theorem members_last {k : String} (h : value n cs = some (j, '}' :: rest)) :
    members (n + 1) (writeText k ++ ':' :: cs) = some ([(some k, j)], rest) := by
  have hk : skipBlanks (writeText k ++ ':' :: cs) = writeText k ++ ':' :: cs :=
    skipBlanks_cons (by decide) _
  rw [members, hk, text_writeText]
  simp only [Option.bind_eq_bind, Option.bind_some, skipBlanks_cons (c := ':') (by decide), h,
    skipBlanks_cons (c := '}') (by decide)]
  rfl

theorem members_more {k : String} {tail : List Char} {ms : List (Option String × Json)}
    (h : value n cs = some (j, ',' :: tail)) (hms : members n tail = some (ms, rest)) :
    members (n + 1) (writeText k ++ ':' :: cs) = some ((some k, j) :: ms, rest) := by
  have hk : skipBlanks (writeText k ++ ':' :: cs) = writeText k ++ ':' :: cs :=
    skipBlanks_cons (by decide) _
  rw [members, hk, text_writeText]
  simp only [Option.bind_eq_bind, Option.bind_some, skipBlanks_cons (c := ':') (by decide), h,
    skipBlanks_cons (c := ',') (by decide), hms]
  rfl

end Steps

theorem objectOf_some (ms : List (String × Json)) :
    objectOf (ms.map fun m => (some m.1, m.2)) = object ms := by
  have h : (ms.map fun m => (some m.1, m.2)).mapM (fun m : Option String × Json =>
      m.1.map (·, m.2)) = some ms := by
    induction ms with
    | nil => rfl
    | cons m ms ih =>
      rw [List.map_cons, List.mapM_cons, ih]
      rfl
  unfold objectOf
  split
  · next ns hns => rw [Option.some.inj (hns.symm.trans h)]
  · next hnone => cases hnone.symm.trans h

theorem writeChars_length_pos {j : Json} (h : j.isNumberless = true) :
    0 < (writeChars j).length := by
  obtain ⟨c, cs, hc, -⟩ := writeChars_opens h
  rw [hc]
  exact Nat.succ_pos _

/-- What stands first among the items of a list, in front of the others or of its end. -/
theorem writeItems_opens {j : Json} (h : j.isNumberless = true) (js : List Json) :
    ∃ c cs, writeItems (j :: js) = c :: cs ∧ opensValue c = true := by
  obtain ⟨c, cs, hc, hopens⟩ := writeChars_opens h
  cases js with
  | nil => exact ⟨c, cs, hc, hopens⟩
  | cons k js => exact ⟨c, _, by simp only [writeItems, hc, List.cons_append]; rfl, hopens⟩

theorem writeMembers_opens (k : String) (j : Json) (ms : List (String × Json)) :
    ∃ cs, writeMembers ((k, j) :: ms) = '"' :: cs := by
  cases ms with
  | nil => exact ⟨_, rfl⟩
  | cons m ms => exact ⟨_, by simp only [writeMembers, writeText, List.cons_append]; rfl⟩

-- The fuel is bounded by the length of what is read: every call but the outermost stands behind a
-- character that its caller took.
mutual

/-- The characters of a value are read as the value, whatever follows them. -/
theorem value_writeChars : ∀ (n : Nat) (j : Json), j.isNumberless = true → ∀ rest : List Char,
    (writeChars j).length ≤ n → value n (writeChars j ++ rest) = some (j, rest)
  | 0, j, hj, _, hn => absurd (writeChars_length_pos hj) (by omega)
  | n + 1, null, _, _, _ => rfl
  | n + 1, bool true, _, _, _ => rfl
  | n + 1, bool false, _, _, _ => rfl
  | n + 1, string s, _, _, _ => value_string s
  | n + 1, array [], _, _, _ => rfl
  | n + 1, array (j :: js), hjs, rest, hn => by
    obtain ⟨c, cs, hc, hopens⟩ := writeItems_opens (Bool.and_eq_true_iff.1 hjs).1 js
    have hlen : (writeItems (j :: js)).length < n := by
      simp only [writeChars, List.length_cons, List.length_append, List.length_nil] at hn
      omega
    have hread := items_writeItems n j js hjs rest hlen
    rw [writeChars, hc]
    rw [hc] at hread
    simpa using value_array hopens hread
  | n + 1, object [], _, _, _ => rfl
  | n + 1, object ((k, j) :: ms), hms, rest, hn => by
    obtain ⟨cs, hc⟩ := writeMembers_opens k j ms
    have hlen : (writeMembers ((k, j) :: ms)).length < n := by
      simp only [writeChars, List.length_cons, List.length_append, List.length_nil] at hn
      omega
    have hread := members_writeMembers n k j ms hms rest hlen
    rw [hc] at hread
    have h := value_object (by decide) hread
    rw [objectOf_some] at h
    rw [writeChars, hc]
    simpa using h

/-- The characters of the items of a list are read as the items. -/
theorem items_writeItems : ∀ (n : Nat) (j : Json) (js : List Json),
    areNumberless (j :: js) = true → ∀ rest : List Char, (writeItems (j :: js)).length < n →
      items n (writeItems (j :: js) ++ ']' :: rest) = some (j :: js, rest)
  | n + 1, j, [], h, rest, hn =>
    items_last (value_writeChars n j (Bool.and_eq_true_iff.1 h).1 _ (Nat.le_of_lt_succ hn))
  | n + 1, j, k :: js, h, rest, hn => by
    have ⟨hj, hjs⟩ := Bool.and_eq_true_iff.1 h
    simp only [writeItems, List.length_append, List.length_cons] at hn
    simp only [writeItems, List.append_assoc, List.cons_append]
    exact items_more (value_writeChars n j hj _ (by omega))
      (items_writeItems n k js hjs rest (by omega))

/-- The characters of the members of an object are read as the members. -/
theorem members_writeMembers : ∀ (n : Nat) (k : String) (j : Json) (ms : List (String × Json)),
    membersNumberless ((k, j) :: ms) = true → ∀ rest : List Char,
      (writeMembers ((k, j) :: ms)).length < n →
      members n (writeMembers ((k, j) :: ms) ++ '}' :: rest) =
        some (((k, j) :: ms).map fun m => (some m.1, m.2), rest)
  | n + 1, k, j, [], h, rest, hn => by
    have hj := (Bool.and_eq_true_iff.1 h).1
    simp only [writeMembers, List.length_append, List.length_cons] at hn
    rw [writeMembers, List.append_assoc, List.cons_append]
    exact members_last (value_writeChars n j hj _ (by omega))
  | n + 1, k, j, (l, i) :: ms, h, rest, hn => by
    have ⟨hj, hms⟩ := Bool.and_eq_true_iff.1 h
    simp only [writeMembers, List.length_append, List.length_cons] at hn
    simp only [writeMembers, List.append_assoc, List.cons_append]
    exact members_more (value_writeChars n j hj _ (by omega))
      (members_writeMembers n l i ms hms rest (by omega))

end

/-! ## Whole texts -/

/-- A value without numbers is read back from its text. -/
theorem parse_write {j : Json} (h : j.isNumberless = true) : parse (write j) = some j := by
  have hread := value_writeChars (2 * (writeChars j).length + 2) j h [] (by omega)
  rw [List.append_nil] at hread
  unfold parse parseChars write
  rw [String.toList_ofList, hread]
  rfl

end TypedRoutes.Json
