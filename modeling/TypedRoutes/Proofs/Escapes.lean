import TypedRoutes.Proofs.Percent

/-!
# Percent coding: the form of written texts, and the texts that are read

* `Coded` : runs of unreserved characters and escapes of two upper-case digits;
* `encode_lossless` : a written text is of this form, and is read back as the text it was written for;
* `Denotes` : the octets that an octet string stands for, with or without signs in its escapes;
* `decodeOctets_eq_some_iff` : the reader of octets finds just these octets;
* `beginsSigned` : whether some escape begins with a plus sign;
* `decode_eq_some_iff_denotes` : what is read, and when an escape is two digits and nothing else.
-/

namespace TypedRoutes.Text.Percent

/-! ## The form of written texts -/

/-- A character that is written as itself. -/
def isPlain (c : Char) : Bool :=
  c.isAlphanum || c == '-' || c == '.' || c == '_' || c == '~'

def isUpperHex (c : Char) : Bool :=
  c.isDigit || ('A' ≤ c && c ≤ 'F')

/-- Characters written as themselves, and escapes of two upper-case hexadecimal digits. -/
inductive Coded : List Char → Prop
  | nil : Coded []
  | plain {c : Char} {cs : List Char} : isPlain c = true → Coded cs → Coded (c :: cs)
  | escape {hi lo : Char} {cs : List Char} :
      isUpperHex hi = true → isUpperHex lo = true → Coded cs → Coded ('%' :: hi :: lo :: cs)

theorem isUpperHex_hexDigit : ∀ n < 16, isUpperHex (hexDigit n) = true := by
  decide

theorem isPlain_of_isUnreserved {b : UInt8} (h : isUnreserved b = true) :
    isPlain (Char.ofNat b.toNat) = true :=
  (Bool.and_eq_true_iff.1 h).2

theorem coded_encodeOctet_append (b : UInt8) {cs : List Char} (h : Coded cs) :
    Coded (encodeOctet b ++ cs) := by
  have hb : b.toNat < 256 := b.toNat_lt
  unfold encodeOctet
  split
  · next hu => exact .plain (isPlain_of_isUnreserved hu) h
  · exact .escape (isUpperHex_hexDigit _ (by omega)) (isUpperHex_hexDigit _ (by omega)) h

theorem coded_encodeOctets (bs : List UInt8) : Coded (encodeOctets bs) := by
  induction bs with
  | nil => exact .nil
  | cons b bs ih => exact coded_encodeOctet_append b ih

theorem encode_injective : Function.Injective encode := by
  intro s t heq
  have hs : decode (encode s) = some s := decode_encode s
  rw [heq, decode_encode t] at hs
  exact (Option.some.inj hs).symm

/-- A written text is read back, has the form of percent-coded texts, and has no mark of
locations in it. -/
theorem encode_lossless :
    Function.Injective encode ∧
      ∀ s, decode (encode s) = some s ∧ Coded (encode s).toList ∧
        '/' ∉ (encode s).toList ∧ '?' ∉ (encode s).toList ∧
        '&' ∉ (encode s).toList ∧ '=' ∉ (encode s).toList := by
  refine ⟨encode_injective, fun s => ⟨decode_encode s, ?_, ?_⟩⟩
  · rw [encode, String.toList_ofList]
    exact coded_encodeOctets _
  · have hmark : ∀ c, isWritten c = false → c ∉ (encode s).toList := fun c h => not_mem_encode h s
    exact ⟨hmark '/' (by decide), hmark '?' (by decide), hmark '&' (by decide), hmark '=' (by decide)⟩

/-! ## What octets stand for -/

/-- The octets that an octet string stands for. A percent sign begins an escape of two hexadecimal
digits, or of a plus sign and one digit if signs are allowed; any other octet stands for itself. -/
inductive Denotes (signs : Bool) : List UInt8 → List UInt8 → Prop
  | nil : Denotes signs [] []
  | plain {b : UInt8} {bs os : List UInt8} :
      b ≠ 37 → Denotes signs bs os → Denotes signs (b :: bs) (b :: os)
  | escape {hi lo : UInt8} {h l : Nat} {bs os : List UInt8} :
      hexValue hi = some h → hexValue lo = some l → Denotes signs bs os →
      Denotes signs (37 :: hi :: lo :: bs) (UInt8.ofNat (16 * h + l) :: os)
  | signed {lo : UInt8} {l : Nat} {bs os : List UInt8} :
      signs = true → hexValue lo = some l → Denotes signs bs os →
      Denotes signs (37 :: 43 :: lo :: bs) (UInt8.ofNat l :: os)

theorem hexValue_plus : hexValue 43 = none := by
  decide

theorem ne_plus_of_hexValue {b : UInt8} {n : Nat} (h : hexValue b = some n) : b ≠ 43 := by
  rintro rfl
  rw [hexValue_plus] at h
  cases h

theorem escaped_digits {hi lo : UInt8} {h l : Nat} (hh : hexValue hi = some h)
    (hl : hexValue lo = some l) : escaped hi lo = some (UInt8.ofNat (16 * h + l)) := by
  unfold escaped
  rw [if_neg (ne_plus_of_hexValue hh), hh, hl]

theorem escaped_signed {lo : UInt8} {l : Nat} (hl : hexValue lo = some l) :
    escaped 43 lo = some (UInt8.ofNat l) := by
  unfold escaped
  rw [if_pos rfl, hl]
  rfl

/-- An escape is two digits, or a plus sign and a digit. -/
theorem escaped_ok {hi lo b : UInt8} (h : escaped hi lo = some b) :
    (∃ m n, hexValue hi = some m ∧ hexValue lo = some n ∧ b = UInt8.ofNat (16 * m + n)) ∨
      hi = 43 ∧ ∃ n, hexValue lo = some n ∧ b = UInt8.ofNat n := by
  unfold escaped at h
  split at h
  · next hplus =>
    obtain ⟨n, hn, rfl⟩ := Option.map_eq_some_iff.1 h
    exact .inr ⟨hplus, n, hn, rfl⟩
  · split at h
    · next m n hm hn => exact .inl ⟨m, n, hm, hn, (Option.some.inj h).symm⟩
    · cases h

theorem decodeOctets_of_denotes {signs : Bool} {bs os : List UInt8} (h : Denotes signs bs os) :
    decodeOctets bs = some os := by
  induction h with
  | nil => exact decodeOctets_nil
  | plain hb _ ih =>
    rw [decodeOctets_plain hb, ih]
    rfl
  | escape hh hl _ ih =>
    rw [decodeOctets_escape (escaped_digits hh hl), ih]
    rfl
  | signed _ hl _ ih =>
    rw [decodeOctets_escape (escaped_signed hl), ih]
    rfl

theorem denotes_of_decodeOctets (bs : List UInt8) :
    ∀ {os : List UInt8}, decodeOctets bs = some os → Denotes true bs os := by
  -- An escape is read as a whole, so the induction steps over three octets there.
  induction bs using decodeOctets.induct with
  | case1 =>
    intro os h
    rw [decodeOctets_nil] at h
    cases h
    exact .nil
  | case2 hi lo bs ih =>
    intro os h
    cases he : escaped hi lo with
    | none => simp [decodeOctets, he] at h
    | some b =>
      rw [decodeOctets_escape he] at h
      obtain ⟨os, hos, rfl⟩ := Option.map_eq_some_iff.1 h
      rcases escaped_ok he with ⟨m, n, hm, hn, rfl⟩ | ⟨rfl, n, hn, rfl⟩
      · exact .escape hm hn (ih hos)
      · exact .signed rfl hn (ih hos)
  | case3 bs hshort =>
    intro os h
    rcases bs with _ | ⟨hi, _ | ⟨lo, bs⟩⟩
    · simp [decodeOctets] at h
    · simp [decodeOctets] at h
    · exact absurd rfl (hshort hi lo bs)
  | case4 b bs hb ih =>
    intro os h
    rw [decodeOctets_plain hb] at h
    obtain ⟨os, hos, rfl⟩ := Option.map_eq_some_iff.1 h
    exact .plain hb (ih hos)

theorem decodeOctets_eq_some_iff {bs os : List UInt8} :
    decodeOctets bs = some os ↔ Denotes true bs os :=
  ⟨denotes_of_decodeOctets bs, decodeOctets_of_denotes⟩

/-! ## Signs -/

/-- Whether some escape begins with a plus sign. -/
def beginsSigned : List UInt8 → Bool
  | [] => false
  | b :: bs =>
    if b = 37 then
      match bs with
      | hi :: _ :: bs => hi == 43 || beginsSigned bs
      | _ => false
    else beginsSigned bs

/-- What stands for octets without signs in escapes is what has no signs in them. -/
theorem denotes_false_iff {bs os : List UInt8} :
    Denotes false bs os ↔ Denotes true bs os ∧ beginsSigned bs = false := by
  constructor
  · intro h
    induction h with
    | nil => exact ⟨.nil, rfl⟩
    | plain hb _ ih => exact ⟨.plain hb ih.1, by rw [beginsSigned.eq_def]; simpa [hb] using ih.2⟩
    | escape hh hl _ ih =>
      refine ⟨.escape hh hl ih.1, ?_⟩
      rw [beginsSigned.eq_def]
      simpa [ne_plus_of_hexValue hh] using ih.2
    | signed hsigns => cases hsigns
  · rintro ⟨h, hno⟩
    induction h with
    | nil => exact .nil
    | plain hb _ ih =>
      rw [beginsSigned.eq_def] at hno
      exact .plain hb (ih (by simpa [hb] using hno))
    | escape hh hl _ ih =>
      rw [beginsSigned.eq_def] at hno
      exact .escape hh hl (ih (by simpa [ne_plus_of_hexValue hh] using hno))
    | signed _ hl _ _ =>
      rw [beginsSigned.eq_def] at hno
      simp at hno

/-! ## Texts -/

theorem isSome_decode_iff {s : String} :
    (decode s).isSome = true ↔
      ∃ os, Denotes true s.toUTF8.toList os ∧ (⟨os.toArray⟩ : ByteArray).IsValidUTF8 := by
  constructor
  · intro h
    obtain ⟨t, ht⟩ := Option.isSome_iff_exists.1 h
    refine ⟨t.toUTF8.toList, decodeOctets_eq_some_iff.1 (decode_eq_some_iff.1 ht), ?_⟩
    rw [toList_eq]
    exact t.isValidUTF8
  · rintro ⟨os, hos, hvalid⟩
    refine Option.isSome_iff_exists.2 ⟨String.fromUTF8 ⟨os.toArray⟩ hvalid, ?_⟩
    rw [decode_eq_some_iff, decodeOctets_eq_some_iff, toList_toUTF8 (String.fromUTF8 _ hvalid)]
    exact hos

/-- A text is read just if its escapes are complete and the octets it stands for are UTF-8, and it
is read as the text of these octets. Escapes are two digits unless one begins with a plus sign. -/
theorem decode_eq_some_iff_denotes (s : String) :
    ((decode s).isSome = true ↔
        ∃ os, Denotes true s.toUTF8.toList os ∧ (⟨os.toArray⟩ : ByteArray).IsValidUTF8) ∧
      (∀ t, decode s = some t ↔ Denotes true s.toUTF8.toList t.toUTF8.toList) ∧
      ((∀ t, decode s = some t ↔ Denotes false s.toUTF8.toList t.toUTF8.toList) ↔
        decode s = none ∨ beginsSigned s.toUTF8.toList = false) := by
  have hread : ∀ t, decode s = some t ↔ Denotes true s.toUTF8.toList t.toUTF8.toList :=
    fun t => decode_eq_some_iff.trans decodeOctets_eq_some_iff
  refine ⟨isSome_decode_iff, hread, ?_⟩
  constructor
  · intro hdigits
    cases hs : decode s with
    | none => exact .inl rfl
    | some t => exact .inr (denotes_false_iff.1 ((hdigits t).1 hs)).2
  · rintro (hnone | hno) t
    · rw [denotes_false_iff, ← hread, hnone]
      simp
    · rw [denotes_false_iff, ← hread]
      exact ⟨fun h => ⟨h, hno⟩, And.left⟩

/-- A plus sign stands for no digit, and yet is taken for one. -/
example : decode "%+5" = some "\x05" := by
  decide +kernel

end TypedRoutes.Text.Percent
