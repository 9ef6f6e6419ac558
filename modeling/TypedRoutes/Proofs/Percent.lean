import Mathlib.Data.List.Basic
import TypedRoutes.Text.Percent

/-!
# Percent coding: reading what was written

* `toList_octets` : the octets of a text of ASCII characters, one for each;
* `decodeOctets_encodeOctets` : the escapes of an octet string stand for it;
* `decode_eq_some_iff` : what a text is read as, on octets;
* `decode_encode` : a written text is read back;
* `decode_ne_empty` : no text but the empty one stands for the empty text;
* `mem_encode` : the characters of a written text; none of them is a mark of locations.
-/

namespace TypedRoutes.Text.Percent

/-! ## Octets of texts -/

theorem toList_loop (b : ByteArray) (i : Nat) (done : List UInt8) :
    ByteArray.toList.loop b i done = done.reverse ++ b.data.toList.drop i := by
  fun_induction ByteArray.toList.loop b i done with
  | case1 i done h ih =>
    have hi : i < b.data.toList.length := by simpa using h
    have hget : b.get! i = b.data.toList[i] := getElem!_pos b.data i (by simpa using h)
    rw [ih, List.drop_eq_getElem_cons hi, List.reverse_cons, List.append_assoc, hget]
    rfl
  | case2 i done h =>
    have hi : b.data.toList.length ≤ i := by simpa using h
    rw [List.drop_eq_nil_of_le hi, List.append_nil]

theorem toList_eq (b : ByteArray) : b.toList = b.data.toList := by
  unfold ByteArray.toList
  rw [toList_loop]
  rfl

theorem utf8EncodeChar_ascii {c : Char} (h : c.toNat < 128) :
    String.utf8EncodeChar c = [UInt8.ofNat c.toNat] := by
  have h1 : c.utf8Size = 1 := by
    rw [Char.utf8Size_eq_one_iff, UInt32.le_iff_toNat_le]
    exact Nat.le_of_lt_succ h
  rw [String.utf8EncodeChar_eq_singleton h1]
  rfl

/-- An ASCII character is written as one octet. -/
theorem toList_octets {cs : List Char} (h : ∀ c ∈ cs, c.toNat < 128) :
    (String.ofList cs).toUTF8.toList = cs.map fun c => UInt8.ofNat c.toNat := by
  rw [String.toUTF8_eq_toByteArray, String.toByteArray_ofList, toList_eq]
  induction cs with
  | nil => rfl
  | cons c cs ih =>
    have hc : c.toNat < 128 := h c List.mem_cons_self
    have hcs := ih fun d hd => h d (List.mem_cons_of_mem c hd)
    rw [List.utf8Encode_cons, ByteArray.toList_data_append, hcs, List.utf8Encode_singleton,
      utf8EncodeChar_ascii hc, List.toList_data_toByteArray]
    rfl

/-! ## Escapes -/

/-- The octets of the characters. -/
def octets (cs : List Char) : List UInt8 :=
  cs.map fun c => UInt8.ofNat c.toNat

theorem octets_append (cs ds : List Char) : octets (cs ++ ds) = octets cs ++ octets ds :=
  List.map_append

theorem escaped_hexDigits : ∀ n < 256,
    escaped (UInt8.ofNat (hexDigit (n / 16)).toNat) (UInt8.ofNat (hexDigit (n % 16)).toNat) =
      some (UInt8.ofNat n) := by
  decide +kernel

theorem isUnreserved_ofNat : ∀ n < 256, isUnreserved (UInt8.ofNat n) = true →
    UInt8.ofNat n ≠ 37 ∧ UInt8.ofNat (Char.ofNat n).toNat = UInt8.ofNat n := by
  decide +kernel

theorem decodeOctets_escape {hi lo b : UInt8} (h : escaped hi lo = some b) (bs : List UInt8) :
    decodeOctets (37 :: hi :: lo :: bs) = (decodeOctets bs).map (b :: ·) := by
  rw [decodeOctets.eq_def]
  simp only [↓reduceIte, h]
  cases decodeOctets bs <;> rfl

theorem decodeOctets_encodeOctet (b : UInt8) (bs : List UInt8) :
    decodeOctets (octets (encodeOctet b) ++ bs) = (decodeOctets bs).map (b :: ·) := by
  have hb : b.toNat < 256 := b.toNat_lt
  have hself : UInt8.ofNat b.toNat = b := UInt8.ofNat_toNat
  unfold encodeOctet
  split
  · next hu =>
    obtain ⟨hne, hoctet⟩ := isUnreserved_ofNat b.toNat hb (hself.symm ▸ hu)
    rw [hself] at hne hoctet
    simp only [octets, List.map_cons, List.map_nil, List.singleton_append, hoctet]
    exact decodeOctets_plain hne bs
  · have he := escaped_hexDigits b.toNat hb
    rw [hself] at he
    exact decodeOctets_escape he bs

theorem decodeOctets_encodeOctets (bs : List UInt8) :
    decodeOctets (octets (encodeOctets bs)) = some bs := by
  induction bs with
  | nil => exact decodeOctets_nil
  | cons b bs ih =>
    rw [encodeOctets_cons, octets_append, decodeOctets_encodeOctet, ih]
    rfl

/-! ## Characters of a written text -/

/-- A character that a written text may have. -/
def isWritten (c : Char) : Bool :=
  c.isAlphanum || c == '-' || c == '.' || c == '_' || c == '~' || c == '%'

theorem isWritten_encodeOctet : ∀ n < 256,
    (encodeOctet (UInt8.ofNat n)).all (fun c => isWritten c && c.toNat < 128) = true := by
  decide +kernel

theorem mem_encodeOctets {bs : List UInt8} {c : Char} (h : c ∈ encodeOctets bs) :
    isWritten c = true ∧ c.toNat < 128 := by
  obtain ⟨b, -, hc⟩ := List.mem_flatMap.1 h
  have hall := isWritten_encodeOctet b.toNat b.toNat_lt
  rw [UInt8.ofNat_toNat, List.all_eq_true] at hall
  simpa using hall c hc

theorem mem_encode {s : String} {c : Char} (h : c ∈ (encode s).toList) : isWritten c = true := by
  rw [encode, String.toList_ofList] at h
  exact (mem_encodeOctets h).1

/-- A character that separates the parts of locations is always escaped. -/
theorem not_mem_encode {c : Char} (h : isWritten c = false) (s : String) :
    c ∉ (encode s).toList := by
  intro hc
  rw [mem_encode hc] at h
  cases h

/-! ## Texts -/

theorem toList_toUTF8 (s : String) : s.toUTF8.toList = s.toByteArray.data.toList := by
  rw [String.toUTF8_eq_toByteArray, toList_eq]

/-- A text is read as another just if its octets stand for the octets of the other. -/
theorem decode_eq_some_iff {s t : String} :
    decode s = some t ↔ decodeOctets s.toUTF8.toList = some t.toUTF8.toList := by
  constructor
  · intro h
    obtain ⟨os, hos, h⟩ := Option.bind_eq_some_iff.1 h
    unfold String.fromUTF8? at h
    split at h
    · cases h
      rw [hos, toList_toUTF8 (String.fromUTF8 _ _)]
      rfl
    · cases h
  · intro h
    have hself : (⟨t.toUTF8.toList.toArray⟩ : ByteArray) = t.toByteArray := by
      rw [toList_eq]
      rfl
    unfold decode
    rw [h]
    simp only [Option.bind_eq_bind, Option.bind_some]
    rw [hself]
    unfold String.fromUTF8?
    rw [dif_pos t.isValidUTF8]
    rfl

/-- A written text is read back. -/
theorem decode_encode (s : String) : decode (encode s) = some s := by
  have hoctets : (encode s).toUTF8.toList = octets (encodeOctets s.toUTF8.toList) :=
    toList_octets fun c hc => (mem_encodeOctets hc).2
  rw [decode_eq_some_iff, hoctets, decodeOctets_encodeOctets]

theorem decodeOctets_ne_nil {bs os : List UInt8} (h : decodeOctets bs = some os) (hbs : bs ≠ []) :
    os ≠ [] := by
  rintro rfl
  cases bs with
  | nil => exact hbs rfl
  | cons b bs =>
    by_cases hb : b = 37
    · subst hb
      match bs with
      | [] => simp [decodeOctets] at h
      | [hi] => simp [decodeOctets] at h
      | hi :: lo :: rest =>
        cases he : escaped hi lo with
        | none => simp [decodeOctets, he] at h
        | some o => simp [decodeOctets_escape he] at h
    · simp [decodeOctets_plain hb] at h

/-- Only the empty text stands for the empty text. -/
theorem decode_ne_empty {s v : String} (h : decode s = some v) (hs : s ≠ "") : v ≠ "" := by
  rintro rfl
  have hoctets : s.toUTF8.toList ≠ [] := by
    intro hnil
    rw [toList_toUTF8] at hnil
    have hbytes : s.toByteArray = "".toByteArray := ByteArray.ext (Array.toList_inj.1 hnil)
    exact hs (String.toByteArray_inj.1 hbytes)
  exact decodeOctets_ne_nil (decode_eq_some_iff.1 h) hoctets (by decide +kernel)

@[simp] theorem encode_eq_empty {s : String} : encode s = "" ↔ s = "" := by
  constructor
  · intro h
    have hs := decode_encode s
    have hempty : decode "" = some "" := by
      have := decode_encode ""
      rwa [show encode "" = "" from by decide +kernel] at this
    rw [h, hempty] at hs
    exact (Option.some.inj hs).symm
  · rintro rfl
    decide +kernel

end TypedRoutes.Text.Percent
