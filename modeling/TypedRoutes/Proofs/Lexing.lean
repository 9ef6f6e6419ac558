import Mathlib.Data.Option.Basic
import TypedRoutes.Proofs.HelperScan
import TypedRoutes.Proofs.Mention
import TypedRoutes.Syntax.Lexer

/-!
# Identifiers that a text is cut into

* `afterLiteral_ok` : what follows a literal does not go on with an underscore;
* `isIdentContinue_of_isIdentStart` : the table of `XID_Continue` holds that of `XID_Start`;
* `Boundary` : where a name with an underscore in front may begin;
* `leaf_ok`, `leaf_eq_none` : what is next to a token;
* `standsIn_of_lex` : an identifier of a text stands in it as a whole.

The scan for helpers takes letters and digits for parts of a name, the lexer goes by the tables of
identifiers. The two differ in marks and in numbers without a decimal value, where text cannot be cut.
-/

namespace TypedRoutes.Syntax

open Text (isIdentStart isIdentContinue)
open Literal (errorMark)

/-! ## Literals -/

namespace Literal

variable {cs rest : List Char} {kind : Kind}

theorem afterIdent_suffix (h : afterIdent cs = some rest) : rest <:+ cs := by
  cases cs with
  | nil => cases h
  | cons c cs =>
    rw [afterIdent] at h
    split at h
    · obtain rfl := Option.some.inj h
      exact (List.dropWhile_suffix _).trans (List.suffix_cons c cs)
    · cases h

theorem afterSuffix_suffix (cs : List Char) : afterSuffix cs <:+ cs := by
  unfold afterSuffix
  cases h : afterIdent cs with
  | none => exact List.suffix_rfl
  | some rest => exact afterIdent_suffix h

theorem head?_dropWhile_ne (cs : List Char) :
    (cs.dropWhile isIdentContinue).head? ≠ some '_' := by
  intro h
  have hhead := List.head?_dropWhile_not isIdentContinue cs
  rw [h] at hhead
  revert hhead
  decide

/-- A literal with its suffix takes an underscore that follows. -/
theorem head?_afterSuffix_ne (cs : List Char) : (afterSuffix cs).head? ≠ some '_' := by
  unfold afterSuffix
  cases cs with
  | nil => decide
  | cons c cs =>
    rw [afterIdent]
    split
    · exact head?_dropWhile_ne cs
    · next hstart =>
      rintro h
      obtain rfl := Option.some.inj h
      exact hstart (by decide)

/-- What follows a literal that ends somewhere in `cs`. -/
def EndsLiteral (cs rest : List Char) : Prop :=
  ∃ cs', cs' <:+ cs ∧ rest = afterSuffix cs'

theorem EndsLiteral.of_suffix {cs' : List Char} (h : EndsLiteral cs' rest) (hsuffix : cs' <:+ cs) :
    EndsLiteral cs rest := by
  obtain ⟨after, hafter, hrest⟩ := h
  exact ⟨after, hafter.trans hsuffix, hrest⟩

theorem afterCodePoint_suffix {value digits n : Nat}
    (h : afterCodePoint value digits cs = some (n, rest)) : rest <:+ cs := by
  fun_induction afterCodePoint value digits cs <;> grind [List.suffix_cons, List.IsSuffix.trans]

theorem afterContinuation_suffix {last : Char} (h : afterContinuation last cs = some rest) :
    rest <:+ cs := by
  fun_induction afterContinuation last cs <;> grind [List.suffix_cons, List.IsSuffix.trans]

theorem afterEscape_suffix {multiline : Bool} (h : afterEscape kind multiline cs = some rest) :
    rest <:+ cs := by
  unfold afterEscape at h
  split at h
  · cases h
  · next a b rest' =>
    have hrest : rest = rest' := by
      obtain ⟨x, -, h⟩ := Option.bind_eq_some_iff.1 h
      obtain ⟨y, -, h⟩ := Option.bind_eq_some_iff.1 h
      grind
    subst hrest
    exact ⟨['x', a, b], rfl⟩
  · next rest' =>
    split at h
    · cases h
    · obtain ⟨⟨n, after⟩, hcode, h⟩ := Option.bind_eq_some_iff.1 h
      have hrest : rest = after := by grind
      subst hrest
      exact (afterCodePoint_suffix hcode).trans ⟨['u', '\x7b'], rfl⟩
  · grind [List.suffix_cons, List.IsSuffix.trans, → afterContinuation_suffix]

theorem afterCooked_ok {n : Nat} (h : afterCooked kind n cs = some rest) : EndsLiteral cs rest := by
  induction n generalizing cs with
  | zero => cases h
  | succ n ih =>
    cases cs with
    | nil => cases h
    | cons c cs =>
      have hstep : ∀ {after}, after <:+ cs → afterCooked kind n after = some rest →
          EndsLiteral (c :: cs) rest := by
        intro after hafter hrest
        exact (ih hrest).of_suffix (hafter.trans (List.suffix_cons c cs))
      rw [afterCooked.eq_def] at h
      dsimp only at h
      split at h
      · exact ⟨cs, List.suffix_cons c cs, (Option.some.inj h).symm⟩
      split at h
      · split at h
        · exact hstep (List.suffix_cons _ _) h
        · cases h
      split at h
      · obtain ⟨after, hescape, h⟩ := Option.bind_eq_some_iff.1 h
        exact hstep (afterEscape_suffix hescape) h
      split at h
      · exact hstep List.suffix_rfl h
      · cases h

theorem afterRawBody_ok {hashes : List Char} (h : afterRawBody kind hashes cs = some rest) : EndsLiteral cs rest := by
  fun_induction afterRawBody kind hashes cs <;>
    grind [EndsLiteral, List.suffix_cons, List.IsSuffix.trans, List.drop_suffix]

theorem afterRaw_ok (h : afterRaw kind cs = some rest) : EndsLiteral cs rest := by
  unfold afterRaw at h
  dsimp only at h
  split at h
  · next body hbody =>
    split at h
    · have hsuffix : body <:+ cs := by
        have hquote := List.dropWhile_suffix (l := cs) (· == '#')
        rw [hbody] at hquote
        exact (List.suffix_cons _ _).trans hquote
      exact (afterRawBody_ok h).of_suffix hsuffix
    · cases h
  · cases h

theorem afterQuoted_ok (h : afterQuoted cs = some rest) : EndsLiteral cs rest := by
  unfold afterQuoted at h
  split at h <;>
    grind [EndsLiteral, List.suffix_cons, List.IsSuffix.trans, → afterCooked_ok, → afterRaw_ok]

theorem afterApostrophe_ok (h : afterApostrophe cs = some rest) : EndsLiteral cs rest := by
  unfold afterApostrophe at h
  split at h <;> grind [EndsLiteral, List.suffix_cons]

theorem afterChar_ok (h : afterChar cs = some rest) : EndsLiteral cs rest := by
  unfold afterChar at h
  split at h
  · next cs' =>
    obtain ⟨after, hescape, h⟩ := Option.bind_eq_some_iff.1 h
    have hsuffix := (afterEscape_suffix hescape).trans ⟨['\'', '\\'], rfl⟩
    exact (afterApostrophe_ok h).of_suffix hsuffix
  · next c cs' _ => exact (afterApostrophe_ok h).of_suffix ⟨['\'', c], rfl⟩
  · cases h

theorem afterByte_ok (h : afterByte cs = some rest) : EndsLiteral cs rest := by
  unfold afterByte at h
  split at h
  · next cs' =>
    obtain ⟨after, hescape, h⟩ := Option.bind_eq_some_iff.1 h
    have hsuffix := (afterEscape_suffix hescape).trans ⟨['b', '\'', '\\'], rfl⟩
    exact (afterApostrophe_ok h).of_suffix hsuffix
  · next c cs' _ =>
    split at h
    · exact (afterApostrophe_ok h).of_suffix ⟨['b', '\'', c], rfl⟩
    · cases h
  · cases h

theorem afterDigits_suffix {base : Nat} {found : Bool} (h : afterDigits base found cs = some rest) :
    rest <:+ cs := by
  fun_induction afterDigits base found cs <;> grind [List.suffix_cons, List.IsSuffix.trans]

theorem afterExponent_suffix {signed found : Bool} (h : afterExponent signed found cs = some rest) :
    rest <:+ cs := by
  fun_induction afterExponent signed found cs <;> grind [List.suffix_cons, List.IsSuffix.trans]

theorem afterDecimalDigits_suffix {point : Bool} (h : afterDecimalDigits point cs = some rest) :
    rest <:+ cs := by
  fun_induction afterDecimalDigits point cs <;>
    grind [List.suffix_cons, List.IsSuffix.trans, → afterExponent_suffix]

theorem wordBreak_ok (h : wordBreak cs = some rest) : rest = cs := by
  cases cs with
  | nil => exact (Option.some.inj h).symm
  | cons c cs =>
    rw [wordBreak] at h
    split at h
    · cases h
    · exact (Option.some.inj h).symm

theorem afterInteger_ok (h : afterInteger cs = some rest) : EndsLiteral cs rest := by
  have hdigits : ∃ base after, (∃ cs', cs' <:+ cs ∧ afterDigits base false cs' = some after) ∧
      wordBreak (afterSuffix after) = some rest := by
    unfold afterInteger at h
    dsimp only at h
    split at h <;> obtain ⟨after, hdigits, h⟩ := Option.bind_eq_some_iff.1 h
    · exact ⟨16, after, ⟨_, ⟨['0', 'x'], rfl⟩, hdigits⟩, h⟩
    · exact ⟨8, after, ⟨_, ⟨['0', 'o'], rfl⟩, hdigits⟩, h⟩
    · exact ⟨2, after, ⟨_, ⟨['0', 'b'], rfl⟩, hdigits⟩, h⟩
    · exact ⟨10, after, ⟨_, List.suffix_rfl, hdigits⟩, h⟩
  obtain ⟨base, after, ⟨cs', hcs', hdigits⟩, h⟩ := hdigits
  exact ⟨after, (afterDigits_suffix hdigits).trans hcs', wordBreak_ok h⟩

theorem afterDecimal_ok (h : afterDecimal cs = some rest) : EndsLiteral cs rest := by
  unfold afterDecimal at h
  split at h
  · next c cs =>
    split at h
    · obtain ⟨after, hdigits, h⟩ := Option.bind_eq_some_iff.1 h
      exact ⟨after, (afterDecimalDigits_suffix hdigits).trans (List.suffix_cons c cs), wordBreak_ok h⟩
    · cases h
  · cases h

/-- What follows a literal is a rest of the text that does not go on with an underscore. -/
theorem afterLiteral_ok (h : afterLiteral cs = some rest) : rest <:+ cs ∧ rest.head? ≠ some '_' := by
  have hends : EndsLiteral cs rest := by
    unfold afterLiteral afterNumber at h
    simp only [Option.or_eq_some_iff] at h
    rcases h with ((h | ⟨-, h⟩) | ⟨-, h⟩) | ⟨-, h | ⟨-, h⟩⟩
    · exact afterQuoted_ok h
    · exact afterByte_ok h
    · exact afterChar_ok h
    · exact afterDecimal_ok h
    · exact afterInteger_ok h
  obtain ⟨cs', hcs', rfl⟩ := hends
  exact ⟨(afterSuffix_suffix cs').trans hcs', head?_afterSuffix_ne cs'⟩

end Literal

/-! ## Tables of characters -/

/-- Whether the stretches of `fs` lie in those of `gs`, where `a` and `b` say whether the current
character lies in one. At most `n` changes are looked at. -/
def within : Nat → Bool → Bool → List Nat → List Nat → Bool
  | 0, _, _, _, _ => false
  | _, a, b, [], [] => !a || b
  | n + 1, a, b, _ :: fs, [] => (!a || b) && within n (!a) b fs []
  | n + 1, a, b, [], _ :: gs => (!a || b) && within n a (!b) [] gs
  | n + 1, a, b, f :: fs, g :: gs =>
    (!a || b) &&
      if f < g then within n (!a) b fs (g :: gs)
      else if g < f then within n a (!b) (f :: fs) gs
      else within n (!a) (!b) fs gs

theorem inside_of_within {n : Nat} {a b : Bool} {fs gs : List Nat} (h : within n a b fs gs) (c : Nat)
    (ha : (a ^^ Text.CharClass.inside fs c) = true) : (b ^^ Text.CharClass.inside gs c) = true := by
  fun_induction within n a b fs gs <;> grind [Text.CharClass.inside]

/-- The table of `XID_Continue` holds that of `XID_Start`, and the underscore. -/
theorem isIdentContinue_of_isIdentStart {c : Char} (h : isIdentStart c) : isIdentContinue c := by
  have hwithin : within 3000 false false Text.xidStart.flips Text.xidContinue.flips := by
    decide +kernel
  rw [isIdentStart, Bool.or_eq_true, beq_iff_eq] at h
  rcases h with rfl | h
  · decide
  · have hinside := inside_of_within hwithin c.toNat (by rw [Bool.false_xor]; exact h)
    rwa [Bool.false_xor] at hinside

open Emission (continuesName)

theorem continuesName_eq_true {c : Char} :
    continuesName c ↔ Text.alphanumeric.contains c ∨ c.toNat = 95 := by
  have hunderscore : c = '_' ↔ c.toNat = 95 := by
    rw [← Char.toNat_inj]
    rfl
  simp [continuesName, Text.isAlphanumeric, hunderscore]

/-- Up to the end of ASCII, what the scan takes for a part of a name the lexer does, too. -/
theorem isIdentContinue_of_ascii {c : Char} (hc : continuesName c) (hascii : c.toNat < 128) :
    isIdentContinue c := by
  have hall : ∀ n < 128, Text.CharClass.inside Text.alphanumeric.flips n ∨ n = 95 →
      Text.CharClass.inside Text.xidContinue.flips n := by
    decide
  exact hall c.toNat hascii (continuesName_eq_true.1 hc)

theorem continuesName_of_isBlank {c : Char} (h : isBlank c) : continuesName c = false := by
  have hlow : ∀ n < 48, Text.CharClass.inside Text.alphanumeric.flips n = false := by
    decide
  have hspace : ∀ i < 16, Text.CharClass.inside Text.alphanumeric.flips (0x2000 + i) = false := by
    decide +kernel
  have hother : ∀ n ∈ [0x85, 0xa0, 0x1680, 0x2028, 0x2029, 0x202f, 0x205f, 0x3000],
      Text.CharClass.inside Text.alphanumeric.flips n = false := by
    decide +kernel
  have hcases : c.toNat < 48 ∨ (0x2000 ≤ c.toNat ∧ c.toNat < 0x2010) ∨
      c.toNat ∈ [0x85, 0xa0, 0x1680, 0x2028, 0x2029, 0x202f, 0x205f, 0x3000] := by
    simp only [isBlank, Bool.or_eq_true, Bool.and_eq_true, beq_iff_eq, decide_eq_true_eq] at h
    simp only [List.mem_cons, List.not_mem_nil, or_false]
    omega
  have htable : Text.CharClass.inside Text.alphanumeric.flips c.toNat = false := by
    rcases hcases with h | ⟨h, h'⟩ | h
    · exact hlow _ h
    · have hi := hspace (c.toNat - 0x2000) (by omega)
      rwa [Nat.add_sub_cancel' h] at hi
    · exact hother _ h
  refine Bool.eq_false_iff.2 fun hname => ?_
  rcases continuesName_eq_true.1 hname with h | h
  · rw [Text.CharClass.contains, htable] at h
    cases h
  · simp only [h, List.mem_cons, List.not_mem_nil, or_false] at hcases
    omega

theorem continuesName_of_isPunct {c : Char} (h : isPunct c) : continuesName c = false := by
  have hall : "~!@#$%^&*-=+|;:,<.>/?'".toList.all (!continuesName ·) := by
    decide
  simpa using List.all_eq_true.1 hall c (of_decide_eq_true h)

/-! ## Blanks -/

/-- A name that begins with an underscore may begin in front of `rest`. -/
def Boundary (before rest : List Char) : Prop :=
  rest.head? = some '_' → before.getLast?.any continuesName = false

section Boundary

variable {before cs rest : List Char}

theorem Boundary.of_head? (h : rest.head? ≠ some '_') : Boundary before rest :=
  fun hhead => absurd hhead h

theorem Boundary.concat {c : Char} (h : continuesName c = false) : Boundary (before ++ [c]) rest :=
  fun _ => by simp [h]

/-- A step over some text keeps boundaries. -/
def StepsTo (cs rest : List Char) : Prop :=
  ∃ taken, cs = taken ++ rest ∧ ∀ before, Boundary before cs → Boundary (before ++ taken) rest

theorem StepsTo.refl (cs : List Char) : StepsTo cs cs :=
  ⟨[], rfl, fun before h => by rwa [List.append_nil]⟩

theorem StepsTo.trans {mid : List Char} (h : StepsTo cs mid) (h' : StepsTo mid rest) :
    StepsTo cs rest := by
  obtain ⟨taken, rfl, hkeeps⟩ := h
  obtain ⟨taken', rfl, hkeeps'⟩ := h'
  refine ⟨taken ++ taken', by rw [List.append_assoc], fun before hb => ?_⟩
  rw [← List.append_assoc]
  exact hkeeps' _ (hkeeps before hb)

theorem StepsTo.of_head? (hsuffix : rest <:+ cs) (h : rest.head? ≠ some '_') : StepsTo cs rest := by
  obtain ⟨taken, rfl⟩ := hsuffix
  exact ⟨taken, rfl, fun before _ => .of_head? h⟩

/-- After a character that continues no name a name may begin. -/
theorem StepsTo.concat (taken : List Char) {c : Char} (h : continuesName c = false) :
    StepsTo (taken ++ c :: rest) rest :=
  ⟨taken ++ [c], by simp, fun before _ => by rw [← List.append_assoc]; exact .concat h⟩

theorem StepsTo.cons {c : Char} (h : continuesName c = false) : StepsTo (c :: rest) rest :=
  StepsTo.concat [] h

theorem afterBlockComment_ok {depth : Nat} (h : afterBlockComment depth cs = some rest) :
    ∃ taken, cs = taken ++ '/' :: rest := by
  have hcons : ∀ {c : Char} {cs' : List Char}, (∃ taken, cs' = taken ++ '/' :: rest) →
      ∃ taken, c :: cs' = taken ++ '/' :: rest := by
    rintro c cs' ⟨taken, rfl⟩
    exact ⟨c :: taken, rfl⟩
  fun_induction afterBlockComment depth cs with
  | case1 => cases h
  | case2 rest' =>
    obtain rfl := Option.some.inj h
    exact ⟨['*'], rfl⟩
  | case3 rest' depth ih => exact hcons (hcons (ih h))
  | case4 depth rest' ih => exact hcons (hcons (ih h))
  | case5 depth c rest' _ _ ih => exact hcons (ih h)

theorem afterLine_ok (cs : List Char) : afterLine cs <:+ cs ∧ (afterLine cs).head? ≠ some '_' := by
  refine ⟨List.dropWhile_suffix _, fun h => ?_⟩
  have hhead := List.head?_dropWhile_not (· ≠ '\n') cs
  rw [afterLine] at h
  rw [h] at hhead
  revert hhead
  decide

theorem skipBlank_stepsTo (n : Nat) (cs : List Char) : StepsTo cs (skipBlank n cs) := by
  fun_induction skipBlank n cs with
  | case3 n c rest _ ih =>
    obtain ⟨hsuffix, hhead⟩ := afterLine_ok rest
    exact (StepsTo.of_head? (hsuffix.trans ⟨[c, '/'], rfl⟩) hhead).trans ih
  | case4 n c rest rest' hcomment _ ih =>
    obtain ⟨taken, rfl⟩ := afterBlockComment_ok hcomment
    exact (StepsTo.concat (c :: '*' :: taken) (by decide)).trans ih
  | case7 n c rest _ hblank ih => exact (StepsTo.cons (continuesName_of_isBlank hblank)).trans ih
  | case1 | case2 | case5 | case6 | case8 => exact StepsTo.refl _

/-- A documentation comment stands for an attribute. -/
theorem docComment_ok {ls : List Lexeme} (h : docComment cs = some (ls, rest)) :
    StepsTo cs rest ∧ ∃ inner text, ls = docAttribute inner text := by
  obtain ⟨-, -, h⟩ := Option.bind_eq_some_iff.1 h
  dsimp only at h
  split at h
  · obtain ⟨⟨text, rest'⟩, hbody, h⟩ := Option.bind_eq_some_iff.1 h
    obtain ⟨-, -, h⟩ := Option.bind_eq_some_iff.1 h
    obtain ⟨rfl, rfl⟩ := Prod.mk.inj (Option.some.inj h)
    obtain ⟨rfl, rfl⟩ := Prod.mk.inj (Option.some.inj hbody)
    obtain ⟨hsuffix, hhead⟩ := afterLine_ok (cs.drop 3)
    exact ⟨.of_head? (hsuffix.trans (List.drop_suffix 3 cs)) hhead, _, _, rfl⟩
  · obtain ⟨rest', hcomment, h⟩ := Option.bind_eq_some_iff.1 h
    obtain ⟨body, hbody, h⟩ := Option.bind_eq_some_iff.1 h
    obtain rfl := Option.some.inj hbody
    obtain ⟨-, -, h⟩ := Option.bind_eq_some_iff.1 h
    obtain ⟨rfl, rfl⟩ := Prod.mk.inj (Option.some.inj h)
    obtain ⟨taken, htaken⟩ := afterBlockComment_ok hcomment
    refine ⟨?_, _, _, rfl⟩
    rw [← List.take_append_drop 3 cs, htaken, ← List.append_assoc]
    exact .concat _ (by decide)

/-! ## Tokens -/

theorem plainIdent_ok {name : List Char} (h : plainIdent cs = some (name, rest)) :
    cs = name ++ rest ∧ rest.head?.any isIdentContinue = false := by
  cases cs with
  | nil => cases h
  | cons c cs =>
    rw [plainIdent] at h
    split at h
    · obtain ⟨rfl, rfl⟩ := Prod.mk.inj (Option.some.inj h)
      refine ⟨by rw [List.cons_append, List.takeWhile_append_dropWhile], ?_⟩
      have hhead := List.head?_dropWhile_not isIdentContinue cs
      cases hnext : (cs.dropWhile isIdentContinue).head? with
      | none => rfl
      | some d => simpa [hnext] using hhead
    · cases h

theorem anyIdent_ok {name : List Char} (h : anyIdent cs = some (name, rest)) :
    cs = name ++ rest ∧ rest.head?.any isIdentContinue = false := by
  unfold anyIdent at h
  split at h
  · next cs =>
    obtain ⟨⟨plain, rest'⟩, hplain, h⟩ := Option.bind_eq_some_iff.1 h
    dsimp only at h
    split at h
    · cases h
    · obtain ⟨rfl, rfl⟩ := Prod.mk.inj (Option.some.inj h)
      obtain ⟨rfl, hhead⟩ := plainIdent_ok hplain
      exact ⟨rfl, hhead⟩
  · exact plainIdent_ok h

theorem head?_ne_of_any (h : rest.head?.any isIdentContinue = false) : rest.head? ≠ some '_' := by
  intro hhead
  rw [hhead] at h
  revert h
  decide

theorem lifetime_ok {t : Token} (h : lifetime cs = some (t, rest)) :
    StepsTo ('\'' :: cs) rest ∧ (∀ name, t ≠ .ident name) ∧ ∀ d inner, t ≠ .group d inner := by
  obtain ⟨⟨name, after⟩, hname, h⟩ := Option.bind_eq_some_iff.1 h
  dsimp only at h
  split at h
  · cases h
  split at h
  · obtain ⟨rfl, rfl⟩ := Prod.mk.inj (Option.some.inj h)
    exact ⟨StepsTo.cons (by decide), nofun, nofun⟩
  · obtain ⟨rfl, rfl⟩ := Prod.mk.inj (Option.some.inj h)
    obtain ⟨rfl, hhead⟩ := anyIdent_ok hname
    exact ⟨.of_head? ⟨'\'' :: name, rfl⟩ (head?_ne_of_any hhead), nofun, nofun⟩

theorem isPunct_of_startsPunct {c : Char} (h : startsPunct (c :: cs)) : isPunct c := by
  unfold startsPunct at h
  split at h <;> simp_all

theorem errorMark_stepsTo (h : errorMark.isPrefixOf cs) : StepsTo cs (cs.drop errorMark.length) := by
  obtain ⟨rest, rfl⟩ := List.isPrefixOf_iff_prefix.1 h
  have hmark : errorMark = errorMark.dropLast ++ [')'] := by decide
  rw [List.drop_left, hmark, List.append_assoc]
  exact .concat _ (by decide)

/-- A token is no group. An identifier stands where the token is read, and what follows it goes on
with no character of an identifier. -/
theorem leaf_ok {t : Token} (h : leaf cs = some (t, rest)) :
    StepsTo cs rest ∧ (∀ d inner, t ≠ .group d inner) ∧
      ∀ name, t = .ident name → cs = name.toList ++ rest ∧ rest.head?.any isIdentContinue = false := by
  unfold leaf at h
  split at h
  · next rest' hliteral =>
    obtain ⟨rfl, rfl⟩ := Prod.mk.inj (Option.some.inj h)
    obtain ⟨hsuffix, hhead⟩ := Literal.afterLiteral_ok hliteral
    exact ⟨.of_head? hsuffix hhead, by simp, by simp⟩
  · split at h
    · cases h
    · next c cs =>
      split at h
      · next hpunct =>
        split at h
        · next hquote =>
          subst hquote
          obtain ⟨hsteps, hident, hgroup⟩ := lifetime_ok h
          exact ⟨hsteps, hgroup, fun name hname => absurd hname (hident name)⟩
        · obtain ⟨rfl, rfl⟩ := Prod.mk.inj (Option.some.inj h)
          have hname := continuesName_of_isPunct (isPunct_of_startsPunct hpunct)
          exact ⟨.cons hname, by simp, by simp⟩
      split at h
      · next hmark =>
        obtain ⟨rfl, rfl⟩ := Prod.mk.inj (Option.some.inj h)
        exact ⟨errorMark_stepsTo hmark, by simp, by simp⟩
      split at h
      · cases h
      · obtain ⟨⟨name, after⟩, hname, h⟩ := Option.map_eq_some_iff.1 h
        obtain ⟨rfl, rfl⟩ := Prod.mk.inj h
        obtain ⟨hcs, hhead⟩ := anyIdent_ok hname
        refine ⟨?_, by simp, fun name' hname' => ?_⟩
        · rw [hcs]
          exact .of_head? ⟨name, rfl⟩ (head?_ne_of_any hhead)
        · obtain rfl := Token.ident.inj hname'
          rw [String.toList_ofList]
          exact ⟨hcs, hhead⟩

/-- No literal begins beyond ASCII. -/
theorem afterLiteral_eq_none {c : Char} (hascii : 128 ≤ c.toNat) (cs : List Char) :
    Literal.afterLiteral (c :: cs) = none := by
  have hne : ∀ d : Char, d.toNat < 128 → c ≠ d := by
    rintro d hd rfl
    omega
  have hle : ∀ d : Char, d.toNat < 128 → ¬c ≤ d := fun d hd h => by
    have hval : c.toNat ≤ d.toNat := h
    omega
  have hdigit : c.isDigit = false := by
    have h9 : ¬c ≤ '9' := hle '9' (by decide)
    exact Bool.and_eq_false_iff.2 (Or.inr (decide_eq_false h9))
  have hhex : Literal.hexValue c = none := by
    have hf : ¬c ≤ 'f' := hle 'f' (by decide)
    have hF : ¬c ≤ 'F' := hle 'F' (by decide)
    simp [Literal.hexValue, hdigit, hf, hF]
  have hquoted : Literal.afterQuoted (c :: cs) = none := by
    unfold Literal.afterQuoted
    split <;> simp_all
  have hbyte : Literal.afterByte (c :: cs) = none := by
    unfold Literal.afterByte
    split <;> simp_all
  have hchar : Literal.afterChar (c :: cs) = none := by
    unfold Literal.afterChar
    split <;> simp_all
  have hinteger : Literal.afterInteger (c :: cs) = none := by
    have hdigits : Literal.afterDigits 10 false (c :: cs) = none := by
      simp [Literal.afterDigits, hhex, hne '_' (by decide)]
    unfold Literal.afterInteger
    split
    · next h => exact absurd (List.cons.inj h).1 (hne '0' (by decide))
    · next h => exact absurd (List.cons.inj h).1 (hne '0' (by decide))
    · next h => exact absurd (List.cons.inj h).1 (hne '0' (by decide))
    · simp [hdigits]
  have hdecimal : Literal.afterDecimal (c :: cs) = none := by
    simp [Literal.afterDecimal, hdigit]
  simp [Literal.afterLiteral, Literal.afterNumber, hquoted, hbyte, hchar, hinteger, hdecimal]

/-- No token begins with a character that the scan takes for a part of a name and the lexer does not. -/
theorem leaf_eq_none {c : Char} (hname : continuesName c) (hident : isIdentContinue c = false)
    (cs : List Char) : leaf (c :: cs) = none := by
  have hascii : 128 ≤ c.toNat := by
    by_contra h
    rw [isIdentContinue_of_ascii hname (by omega)] at hident
    cases hident
  have hne : ∀ d : Char, d.toNat < 128 → c ≠ d := by
    rintro d hd rfl
    omega
  have hpunct : startsPunct (c :: cs) = false := by
    refine Bool.eq_false_iff.2 fun h => ?_
    rw [continuesName_of_isPunct (isPunct_of_startsPunct h)] at hname
    cases hname
  have hmark : errorMark.isPrefixOf (c :: cs) = false := by
    have hcons : errorMark = '(' :: errorMark.tail := by decide
    rw [hcons, List.isPrefixOf_cons_cons, beq_false_of_ne (hne '(' (by decide)).symm, Bool.false_and]
  have hstart : isIdentStart c = false := by
    refine Bool.eq_false_iff.2 fun h => ?_
    rw [isIdentContinue_of_isIdentStart h] at hident
    cases hident
  have hanyIdent : anyIdent (c :: cs) = none := by
    unfold anyIdent
    split
    · next h => exact absurd (List.cons.inj h).1 (hne 'r' (by decide))
    · simp [plainIdent, hstart]
  simp [leaf, afterLiteral_eq_none hascii, hpunct, hmark, hanyIdent]

theorem continuesName_of_opens {c : Char} {d : Delim} (h : opens? c = some d) :
    continuesName c = false := by
  unfold opens? at h
  split at h
  · decide
  · decide
  · decide
  · cases h

theorem continuesName_of_closes {c : Char} {d : Delim} (h : closes? c = some d) :
    continuesName c = false := by
  unfold closes? at h
  split at h
  · decide
  · decide
  · decide
  · cases h

/-- Where a name may begin, a token is cut off and neither a blank nor a delimiter. -/
theorem lexemesFrom_name {n : Nat} {c : Char} (hname : continuesName c) (cs : List Char) :
    lexemesFrom (n + 1) (c :: cs) = (do
      let (t, rest) ← leaf (c :: cs)
      let ls ← lexemesFrom n rest
      return .leaf t :: ls) := by
  have hslash : c ≠ '/' := by
    rintro rfl
    revert hname
    decide
  have hblank : isBlank c = false := by
    refine Bool.eq_false_iff.2 fun h => ?_
    rw [continuesName_of_isBlank h] at hname
    cases hname
  have hskip : ∀ n, skipBlank n (c :: cs) = c :: cs := by
    intro n
    cases n <;> simp [skipBlank, hslash, hblank]
  have hdoc : docComment (c :: cs) = none := by
    have hstarts : startsDoc (c :: cs) = false := by
      unfold startsDoc
      split <;> simp_all
    unfold docComment
    rw [hstarts]
    rfl
  have hopens : opens? c = none := by
    refine Option.eq_none_iff_forall_ne_some.2 fun d h => ?_
    rw [continuesName_of_opens h] at hname
    cases hname
  have hcloses : closes? c = none := by
    refine Option.eq_none_iff_forall_ne_some.2 fun d h => ?_
    rw [continuesName_of_closes h] at hname
    cases hname
  rw [lexemesFrom, hskip]
  simp only [hdoc, hopens, hcloses, ite_self]

/-- Text that can be cut into lexemes does not begin with such a character either. -/
theorem lexemesFrom_eq_none {n : Nat} {c : Char} (hname : continuesName c)
    (hident : isIdentContinue c = false) (cs : List Char) : lexemesFrom n (c :: cs) = none := by
  cases n with
  | zero => rfl
  | succ n =>
    rw [lexemesFrom_name hname, leaf_eq_none hname hident]
    rfl

/-! ## Texts -/

/-- Cutting a text goes over blanks and then reads some lexemes, of which only an identifier of its
own or the word of a documentation comment is an identifier. -/
theorem lexemesFrom_ok {n : Nat} {ls : List Lexeme} (h : lexemesFrom (n + 1) cs = some ls) :
    ls = [] ∨ ∃ mid rest read ls', ls = read ++ ls' ∧ StepsTo cs mid ∧ StepsTo mid rest ∧
      lexemesFrom n rest = some ls' ∧
      ∀ t, Lexeme.leaf t ∈ read → (∀ d inner, t ≠ .group d inner) ∧
        ∀ name, t = .ident name → name = "doc" ∨
          mid = name.toList ++ rest ∧ rest.head?.any isIdentContinue = false := by
  rw [lexemesFrom] at h
  have hskip := skipBlank_stepsTo n cs
  split at h
  · exact Or.inl (Option.some.inj h).symm
  · next c rest hmid =>
    rw [hmid] at hskip
    refine Or.inr ⟨c :: rest, ?_⟩
    split at h
    · next ls₀ rest' hdoc =>
      obtain ⟨hsteps, inner, text, rfl⟩ := docComment_ok hdoc
      obtain ⟨ls', hls', rfl⟩ := Option.map_eq_some_iff.1 h
      refine ⟨rest', _, ls', rfl, hskip, hsteps, hls', fun t ht => ?_⟩
      have ht : t = .ident "doc" ∨ (∀ d inner, t ≠ .group d inner) ∧ ∀ name, t ≠ .ident name := by
        cases inner <;> simp [docAttribute] at ht <;> grind
      rcases ht with rfl | ⟨hgroup, hident⟩
      · exact ⟨nofun, fun name hname => Or.inl (Token.ident.inj hname).symm⟩
      · exact ⟨hgroup, fun name hname => absurd hname (hident name)⟩
    · split at h
      · next d hopens =>
        obtain ⟨ls', hls', rfl⟩ := Option.map_eq_some_iff.1 h
        have hname := continuesName_of_opens (Option.ite_none_left_eq_some.1 hopens).2
        exact ⟨rest, [.opening d], ls', rfl, hskip, .cons hname, hls', by simp⟩
      · next d hcloses _ =>
        obtain ⟨ls', hls', rfl⟩ := Option.map_eq_some_iff.1 h
        have hname := continuesName_of_closes hcloses
        exact ⟨rest, [.closing d], ls', rfl, hskip, .cons hname, hls', by simp⟩
      · obtain ⟨⟨t, rest'⟩, hleaf, h⟩ := Option.bind_eq_some_iff.1 h
        obtain ⟨ls', hls', h⟩ := Option.bind_eq_some_iff.1 h
        obtain rfl := Option.some.inj h
        obtain ⟨hsteps, hgroup, hident⟩ := leaf_ok hleaf
        refine ⟨rest', [.leaf t], ls', rfl, hskip, hsteps, hls', fun t' ht' => ?_⟩
        obtain rfl := Lexeme.leaf.inj (List.mem_singleton.1 ht')
        exact ⟨hgroup, fun name hname => Or.inr (hident name hname)⟩

end Boundary

/-- An identifier among the lexemes of a text stands in it as a whole. -/
theorem standsIn_of_lexemesFrom {name : String} (hname : name.toList.head? = some '_') {n : Nat}
    {cs : List Char} {ls : List Lexeme} (h : lexemesFrom n cs = some ls)
    (hmem : Lexeme.leaf (.ident name) ∈ ls) {before : List Char} (hbefore : Boundary before cs) :
    Emission.StandsIn name.toList (before ++ cs) := by
  induction n generalizing cs ls before with
  | zero => cases h
  | succ n ih =>
    obtain rfl | ⟨mid, rest, read, ls', rfl, ⟨skipped, rfl, hskip⟩, ⟨taken, htaken, hkeeps⟩, hls', hread⟩ :=
      lexemesFrom_ok h
    · cases hmem
    · rcases List.mem_append.1 hmem with hmem | hmem
      · rcases (hread _ hmem).2 name rfl with rfl | ⟨rfl, hrest⟩
        · exact absurd hname (by decide)
        · refine ⟨before ++ skipped, rest, by simp, ?_, ?_⟩
          · refine hskip before hbefore ?_
            rw [List.head?_append, hname]
            rfl
          · cases rest with
            | nil => rfl
            | cons d rest =>
              refine Bool.eq_false_iff.2 fun hd => ?_
              rw [lexemesFrom_eq_none hd hrest] at hls'
              cases hls'
      · have hstands := ih hls' hmem (hkeeps _ (hskip before hbefore))
        simpa [htaken] using hstands

theorem leaf_group_notMem {n : Nat} {cs : List Char} {ls : List Lexeme}
    (h : lexemesFrom n cs = some ls) (d : Delim) (inner : List Token) :
    Lexeme.leaf (.group d inner) ∉ ls := by
  induction n generalizing cs ls with
  | zero => cases h
  | succ n ih =>
    obtain rfl | ⟨mid, rest, read, ls', rfl, -, -, hls', hread⟩ := lexemesFrom_ok h
    · exact List.not_mem_nil
    · intro hmem
      rcases List.mem_append.1 hmem with hmem | hmem
      · exact (hread _ hmem).1 d inner rfl
      · exact ih hls' hmem

/-- An identifier of a text that begins with an underscore stands in the text as a whole. -/
theorem standsIn_of_lex {name text : String} (hname : name.toList.head? = some '_')
    {ts : List Token} (h : lex text = some ts) (hmentions : Emission.Mentions name ts) :
    Emission.StandsIn name.toList text.toList := by
  obtain ⟨ls, hls, hnest⟩ := Option.bind_eq_some_iff.1 h
  have hleaves := leaf_group_notMem hls
  rw [Emission.Mentions, Emission.flatten_of_nest hleaves hnest] at hmentions
  generalize text.toList = cs at hls ⊢
  split at hls
  · next rest =>
    have hmark : Boundary ['\ufeff'] rest := fun _ => by decide +kernel
    exact standsIn_of_lexemesFrom hname hls hmentions hmark
  · have hstart : Boundary [] cs := fun _ => rfl
    exact standsIn_of_lexemesFrom hname hls hmentions hstart

end TypedRoutes.Syntax
