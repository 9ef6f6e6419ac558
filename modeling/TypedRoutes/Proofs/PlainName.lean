import TypedRoutes.Binding
import TypedRoutes.Proofs.Lexing
import TypedRoutes.Proofs.Template

/-!
# Plain identifiers as tokens

* `afterLiteral_eq_none_of_name` : no literal is written in name characters after one that begins a
  name;
* `leaf_of_plain`, `lex_of_plain` : a plain identifier is cut into one token, itself;
* `parseIdent_eq_of_plain` : it is read as itself, unless it is a reserved word;
* `isUsableName_iff` : a text is a usable name just if it is a plain identifier and the language has
  no other use for it.
-/

namespace TypedRoutes

open Text (isNameChar isNameStart isPlainIdentifier isIdentStart isIdentContinue)

namespace Syntax

theorem isNameChar_ascii {c : Char} (h : isNameChar c = true) : c.toNat < 128 := by
  unfold isNameChar Char.isAlphanum Char.isAlpha Char.isUpper Char.isLower Char.isDigit at h
  simp only [Bool.or_eq_true, Bool.and_eq_true, decide_eq_true_eq, beq_iff_eq, ge_iff_le,
    UInt32.le_iff_toNat_le] at h
  have hbounds : 'Z'.val.toNat = 90 ∧ 'z'.val.toNat = 122 ∧ '9'.val.toNat = 57 := ⟨rfl, rfl, rfl⟩
  show c.val.toNat < 128
  rcases h with ((h | h) | h) | rfl
  · omega
  · omega
  · omega
  · decide

/-- The scan and the lexer take a character of a plain identifier for a part of a name. -/
theorem continuesName_of_isNameChar {c : Char} (h : isNameChar c = true) :
    Emission.continuesName c = true ∧ isIdentContinue c = true := by
  have hall : ∀ n < 128, isNameChar (Char.ofNat n) = true →
      Emission.continuesName (Char.ofNat n) = true ∧ isIdentContinue (Char.ofNat n) = true := by
    decide
  have hc := hall c.toNat (isNameChar_ascii h)
  rw [Char.ofNat_toNat] at hc
  exact hc h

theorem isNameChar_of_plain {text : String} (hplain : isPlainIdentifier text = true) {c : Char}
    (hc : c ∈ text.toList) : isNameChar c = true := by
  rw [← String.ofList_toList (s := text)] at hplain
  cases hcs : text.toList with
  | nil =>
    rw [hcs] at hc
    cases hc
  | cons d cs =>
    rw [hcs] at hc hplain
    exact (PathTemplate.isPlainIdentifier_cons.1 hplain).2 c hc

section Names

variable {c : Char} {cs : List Char}

theorem isNameChar_of_isNameStart (h : isNameStart c = true) : isNameChar c = true := by
  unfold isNameStart at h
  unfold isNameChar
  rw [Char.isAlphanum]
  simp only [Bool.or_eq_true] at h ⊢
  exact h.imp_left Or.inl

/-- The character that begins a name begins an identifier, and it is no digit. -/
theorem isIdentStart_of_isNameStart (h : isNameStart c = true) :
    isIdentStart c = true ∧ c.isDigit = false := by
  have hall : ∀ n < 128, isNameStart (Char.ofNat n) = true →
      isIdentStart (Char.ofNat n) = true ∧ (Char.ofNat n).isDigit = false := by
    decide
  have hc := hall c.toNat (isNameChar_ascii (isNameChar_of_isNameStart h))
  rw [Char.ofNat_toNat] at hc
  exact hc h

/-- A character that is in no name is none of one. -/
theorem ne_of_isNameChar {d : Char} (h : isNameChar c = true) (hd : isNameChar d = false) : c ≠ d := by
  rintro rfl
  rw [h] at hd
  cases hd

namespace Literal

theorem afterRaw_eq_none_of_name {kind : Kind} (h : ∀ d ∈ cs, isNameChar d = true) :
    afterRaw kind cs = none := by
  have hhashes : cs.dropWhile (· == '#') = cs := by
    cases cs with
    | nil => rfl
    | cons d cs =>
      have hd : d ≠ '#' := ne_of_isNameChar (h d List.mem_cons_self) (by decide)
      rw [List.dropWhile_cons_of_neg (by simpa using hd)]
  unfold afterRaw
  rw [hhashes]
  split
  · exact absurd rfl (ne_of_isNameChar (h '"' List.mem_cons_self) (by decide))
  · rfl

theorem afterQuoted_eq_none_of_name (h : ∀ d ∈ cs, isNameChar d = true) : afterQuoted cs = none := by
  have hquote : '"' ∉ cs := fun hmem => ne_of_isNameChar (h '"' hmem) (by decide) rfl
  unfold afterQuoted
  split
  · simp at hquote
  · exact afterRaw_eq_none_of_name fun d hd => h d (List.mem_cons_of_mem _ hd)
  · simp at hquote
  · exact afterRaw_eq_none_of_name fun d hd => h d (by simp [hd])
  · simp at hquote
  · exact afterRaw_eq_none_of_name fun d hd => h d (by simp [hd])
  · rfl

theorem afterNumber_eq_none_of_name (h : isNameStart c = true) : afterNumber (c :: cs) = none := by
  have hdigit := (isIdentStart_of_isNameStart h).2
  have hzero : c ≠ '0' := by
    rintro rfl
    exact absurd hdigit (by decide)
  have hdigits : afterDigits 10 false (c :: cs) = none := by
    rw [afterDigits]
    by_cases hc : c = '_'
    · simp [hc]
    · cases hhex : hexValue c with
      | none => simp [hc]
      | some d =>
        -- a hexadecimal digit that is no decimal one stands for ten at least
        have hten : ¬d < 10 := by
          unfold hexValue at hhex
          simp only [hdigit, Bool.false_eq_true, if_false] at hhex
          split at hhex
          · next hlower =>
            have : 'a'.toNat ≤ c.toNat := hlower.1
            obtain rfl := Option.some.inj hhex
            have ha : 'a'.toNat = 97 := rfl
            omega
          · split at hhex
            · next hupper =>
              have : 'A'.toNat ≤ c.toNat := hupper.1
              obtain rfl := Option.some.inj hhex
              have hA : 'A'.toNat = 65 := rfl
              omega
            · cases hhex
        simp [hc, hten, hdigit]
  have hinteger : afterInteger (c :: cs) = none := by
    unfold afterInteger
    split
    · next h => exact absurd (List.cons.inj h).1 hzero
    · next h => exact absurd (List.cons.inj h).1 hzero
    · next h => exact absurd (List.cons.inj h).1 hzero
    · rw [hdigits]
      rfl
  simp [afterNumber, afterDecimal, hdigit, hinteger]

/-- No literal is written in name characters after one that begins a name. -/
theorem afterLiteral_eq_none_of_name (hstart : isNameStart c = true)
    (h : ∀ d ∈ c :: cs, isNameChar d = true) : afterLiteral (c :: cs) = none := by
  have hquote : '\'' ∉ c :: cs := fun hmem => ne_of_isNameChar (h '\'' hmem) (by decide) rfl
  have hbyte : afterByte (c :: cs) = none := by
    unfold afterByte
    split <;> simp_all
  have hchar : afterChar (c :: cs) = none := by
    unfold afterChar
    split <;> simp_all
  simp [afterLiteral, afterQuoted_eq_none_of_name h, hbyte, hchar, afterNumber_eq_none_of_name hstart]

end Literal

/-- A name in a text is read as one identifier. -/
theorem leaf_of_name (hstart : isNameStart c = true) (h : ∀ d ∈ c :: cs, isNameChar d = true) :
    leaf (c :: cs) = some (.ident (String.ofList (c :: cs)), []) := by
  have hc : isNameChar c = true := h c List.mem_cons_self
  have hpunct : startsPunct (c :: cs) = false := by
    refine Bool.eq_false_iff.2 fun hpunct => ?_
    have hname := (continuesName_of_isNameChar hc).1
    rw [continuesName_of_isPunct (isPunct_of_startsPunct hpunct)] at hname
    cases hname
  have hmark : Literal.errorMark.isPrefixOf (c :: cs) = false := by
    have hcons : Literal.errorMark = '(' :: Literal.errorMark.tail := by decide
    rw [hcons, List.isPrefixOf_cons_cons, beq_false_of_ne (ne_of_isNameChar hc (by decide)).symm,
      Bool.false_and]
  -- every such beginning has a quote or a hash in it
  have hliteral : startsLiteral (c :: cs) = false := by
    refine Bool.eq_false_iff.2 fun hliteral => ?_
    obtain ⟨p, hp, hprefix⟩ := List.any_eq_true.1 hliteral
    have hother : ∀ p ∈ ["r\"", "r#\"", "r##", "b\"", "b'", "br\"", "br#", "c\"", "cr\"", "cr#"],
        p.toList.all isNameChar = false := by
      decide
    have hall : p.toList.all isNameChar = true := by
      refine List.all_eq_true.2 fun d hd => h d ?_
      exact (List.isPrefixOf_iff_prefix.1 hprefix).subset hd
    rw [hother p hp] at hall
    cases hall
  have htail : ∀ d ∈ cs, isIdentContinue d = true := fun d hd =>
    (continuesName_of_isNameChar (h d (List.mem_cons_of_mem c hd))).2
  have hplain : anyIdent (c :: cs) = some (c :: cs, []) := by
    have hread : plainIdent (c :: cs) = some (c :: cs, []) := by
      rw [plainIdent, if_pos (isIdentStart_of_isNameStart hstart).1,
        List.takeWhile_eq_self_iff.2 htail, List.dropWhile_eq_nil_iff.2 htail]
    unfold anyIdent
    split
    · next rest heq =>
      exact absurd rfl (ne_of_isNameChar (h '#' (by rw [heq]; simp)) (by decide))
    · exact hread
  simp [leaf, Literal.afterLiteral_eq_none_of_name hstart h, hpunct, hmark, hliteral, hplain]

/-- A plain identifier is cut into one token, itself. -/
theorem lex_of_plain {text : String} (h : isPlainIdentifier text = true) :
    lex text = some [.ident text] := by
  obtain ⟨c, cs, htext⟩ : ∃ c cs, text.toList = c :: cs := by
    cases hcs : text.toList with
    | nil => rw [isPlainIdentifier, hcs] at h; cases h
    | cons c cs => exact ⟨c, cs, rfl⟩
  have hchars : ∀ d ∈ c :: cs, isNameChar d = true := fun d hd => isNameChar_of_plain h (htext ▸ hd)
  have hstart : isNameStart c = true := by
    rw [isPlainIdentifier, htext, Bool.and_eq_true] at h
    exact h.1
  have hname := (continuesName_of_isNameChar (hchars c List.mem_cons_self)).1
  have hcut : lexemesFrom ((c :: cs).length + 1) (c :: cs) = some [.leaf (.ident text)] := by
    have hblank : skipBlank cs.length [] = [] := by
      cases cs.length <;> rfl
    rw [lexemesFrom_name hname, leaf_of_name hstart hchars, ← htext, String.ofList_toList, htext]
    simp [lexemesFrom, hblank]
  unfold lex
  rw [htext]
  split
  · next hmark =>
    rw [(List.cons.inj hmark).1] at hname
    exact absurd hname (by decide +kernel)
  · dsimp only
    rw [hcut]
    rfl

end Names

/-- A plain identifier is read as itself unless the language has another use for it. -/
theorem parseIdent_eq_of_plain {text : String} (h : isPlainIdentifier text = true) :
    parseIdent text = if isIdentifier text then some text else none := by
  unfold parseIdent
  rw [lex_of_plain h]
  cases hident : isIdentifier text <;> simp [Parse.all, Parse.ident, hident]

theorem parseIdent_of_plain {text name : String} (hplain : isPlainIdentifier text = true)
    (h : parseIdent text = some name) : name = text := by
  rw [parseIdent_eq_of_plain hplain] at h
  split at h
  · exact (Option.some.inj h).symm
  · cases h

end Syntax

/-- A text is a usable name just if it is a plain identifier and the language has no other use for
it. -/
theorem isUsableName_iff {name : String} :
    isUsableName name = true ↔ isPlainIdentifier name = true ∧ Syntax.isIdentifier name = true := by
  unfold isUsableName
  rw [Bool.and_eq_true]
  refine and_congr_right fun hplain => ?_
  rw [Syntax.parseIdent_eq_of_plain hplain]
  cases Syntax.isIdentifier name <;> simp

end TypedRoutes
