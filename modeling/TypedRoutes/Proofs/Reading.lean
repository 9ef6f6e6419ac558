import TypedRoutes.Emission.Code
import TypedRoutes.Proofs.Readers
import Mathlib.Data.List.Forall2

/-!
# Reading code off the front

* `Parse.Takes` : a reader takes a piece of code off in front of the rest, with one rule for each
  composite reader;
* `Parse.Row` : a reader takes pieces off one after the other; `Row.takes_manyWhile` reads a row,
  `takes_pieces` one that ends with the code;
* `takes_commaUntil`, `takes_terminated` : lists with a comma between neighbours;
* `isPathName` : the words that name something in a path; `startsWord_of_isPathName` tells them from
  all other words.
-/

namespace TypedRoutes

namespace Emission

open Syntax

/-! ## Tokens -/

theorem count_pos (t : Token) : 0 < t.count := by
  cases t <;> simp [Token.count]

theorem countAll_append (as bs : List Token) :
    Token.countAll (as ++ bs) = Token.countAll as + Token.countAll bs := by
  induction as with
  | nil => simp [Token.countAll]
  | cons a as ih => simp [Token.countAll, ih, Nat.add_assoc]

theorem commaSeparated_singleton (c : Code) : Tokens.commaSeparated [c] = c :=
  List.intercalate_singleton

theorem commaSeparated_cons_cons (c c' : Code) (cs : List Code) :
    Tokens.commaSeparated (c :: c' :: cs) =
      c ++ .punct ',' false :: Tokens.commaSeparated (c' :: cs) := by
  unfold Tokens.commaSeparated
  rw [List.intercalate_cons_cons, List.append_assoc]
  rfl

theorem length_commaSeparated (cs : List Code) :
    cs.length ≤ (Tokens.commaSeparated cs).length + 1 := by
  induction cs with
  | nil => simp
  | cons c cs ih =>
    cases cs with
    | nil => simp
    | cons c' cs =>
      rw [commaSeparated_cons_cons, List.length_append, List.length_cons]
      simp only [List.length_cons] at ih ⊢
      omega

theorem countAll_le_commaSeparated {c : Code} {cs : List Code} (h : c ∈ cs) :
    Token.countAll c ≤ Token.countAll (Tokens.commaSeparated cs) := by
  induction cs with
  | nil => cases h
  | cons c' cs ih =>
    cases cs with
    | nil =>
      obtain rfl := List.mem_singleton.1 h
      exact Nat.le_of_eq (congrArg Token.countAll (commaSeparated_singleton c).symm)
    | cons c'' cs =>
      rw [commaSeparated_cons_cons, countAll_append, Token.countAll]
      rcases List.mem_cons.1 h with rfl | h
      · omega
      · have := ih h
        omega

end Emission

namespace Syntax

open Emission (Code countAll_append commaSeparated_singleton commaSeparated_cons_cons
  length_commaSeparated)

namespace Parse

variable {α β : Type} {p : Parse α} {f : α → Parse β} {a : α} {b : β} {c c' rest : Code}

/-! ## Composite readers -/

/-- A reader takes `c` off in front of `rest` and makes `a` of it. -/
def Takes (p : Parse α) (c : Code) (a : α) (rest : Code) : Prop :=
  p (c ++ rest) = some (a, rest)

namespace Takes

theorem pure : Takes (Pure.pure a : Parse α) [] a rest :=
  rfl

theorem bind (h : Takes p c a (c' ++ rest)) (h' : Takes (f a) c' b rest) :
    Takes (p >>= f) (c ++ c') b rest := by
  unfold Takes
  rw [List.append_assoc]
  exact bind_eq_some.2 ⟨a, _, h, h'⟩

/-- What is read last may leave nothing to be read. -/
theorem last (h : Takes p c a rest) (h' : Takes (f a) [] b rest) : Takes (p >>= f) c b rest :=
  bind_eq_some.2 ⟨a, _, h, h'⟩

/-- What is read first may take nothing off. -/
theorem skip (h : Takes p [] a (c ++ rest)) (h' : Takes (f a) c b rest) :
    Takes (p >>= f) c b rest :=
  bind_eq_some.2 ⟨a, _, h, h'⟩

theorem look {f : β → Parse α} {q : List Token → β} (h : Takes (f (q (c ++ rest))) c a rest) :
    Takes (ahead q >>= f) c a rest :=
  h

theorem isTrue {t : Prop} [Decidable t] {q : Parse α} (ht : t) (h : Takes p c a rest) :
    Takes (if t then p else q) c a rest := by
  rwa [if_pos ht]

theorem isFalse {t : Prop} [Decidable t] {q : Parse α} (ht : ¬t) (h : Takes q c a rest) :
    Takes (if t then p else q) c a rest := by
  rwa [if_neg ht]

/-- What is asked about the tokens ahead does not hold. -/
theorem no {t : Bool} {q : Parse α} (ht : t = false) (h : Takes q c a rest) :
    Takes (if t then p else q) c a rest :=
  isFalse (by simp [ht]) h

theorem no_op? {text : String} (h : startsOp text rest = false) :
    Takes (op? text) [] false rest :=
  if_neg (by simp [h])

theorem no_word? {text : String} (h : startsWord text rest = false) :
    Takes (word? text) [] false rest :=
  if_neg (by simp [h])

theorem within {d : Delim} {inner : Code} (h : Takes p inner a []) :
    Takes (within d p) [.group d inner] a rest := by
  have hall : p.all inner = some a := all_eq_some.2 (by simpa [Takes] using h)
  simp [Takes, Parse.within, hall]

theorem whenAhead {q : List Token → Bool} (hq : q (c ++ rest) = true) (h : Takes p c a rest) :
    Takes (whenAhead q p) c (some a) rest := by
  unfold Takes
  rw [whenAhead_apply, if_pos hq, h]
  rfl

theorem whenAhead_none {q : List Token → Bool} (hq : q rest = false) :
    Takes (Parse.whenAhead q p) [] none rest := by
  unfold Takes
  rw [whenAhead_apply, if_neg (by simp [hq])]
  rfl

end Takes

/-! ## Rows -/

/-- `item` takes pieces off a token list one after the other, as long as `more` holds, up to `rest`. -/
inductive Row (more : List Token → Bool) (item : Parse α) (rest : List Token) :
    List Token → List α → Prop
  | stop : more rest = false → Row more item rest rest []
  | next {ts ts' : List Token} {a : α} {as : List α} : more ts = true → item ts = some (a, ts') →
      ts'.length < ts.length → Row more item rest ts' as → Row more item rest ts (a :: as)

variable {more : List Token → Bool} {item : Parse α} {as : List α}

theorem Row.whileAhead {ts : List Token} (h : Row more item rest ts as) {n : Nat}
    (hn : ts.length ≤ n) : whileAhead more item n ts = some (as, rest) := by
  induction h generalizing n with
  | stop hmore =>
    cases n with
    | zero => rfl
    | succ n => exact bind_eq_some.2 ⟨_, _, rfl, by rw [hmore]; rfl⟩
  | next hmore hitem hlength _ ih =>
    cases n with
    | zero => omega
    | succ n =>
      refine bind_eq_some.2 ⟨_, _, rfl, ?_⟩
      rw [if_pos hmore]
      exact bind_eq_some.2 ⟨_, _, hitem, bind_eq_some.2 ⟨_, _, ih (by omega), rfl⟩⟩

theorem Row.takes_manyWhile (h : Row more item rest (c ++ rest) as) :
    Takes (manyWhile more item) c as rest :=
  bind_eq_some.2 ⟨_, _, rfl, h.whileAhead (Nat.le_refl _)⟩

/-- Pieces that are read off in front of any rest are read up to the end, where there is room for the
nesting of all of them. -/
theorem takes_pieces {R : Code → α → Prop} {n k : Nat}
    (hitem : ∀ {c a}, R c a → c ≠ [] ∧ ∀ rest, 2 * Token.countAll c + k ≤ n → Takes item c a rest)
    {cs : List Code} (h : List.Forall₂ R cs as) (hn : 2 * Token.countAll cs.flatten + k ≤ n) :
    Takes (manyWhile (fun ts => !ts.isEmpty) item) cs.flatten as [] := by
  have hrow : Row (fun ts => !ts.isEmpty) item [] cs.flatten as := by
    induction h with
    | nil => exact .stop rfl
    | cons h _ ih =>
      rw [List.flatten_cons, countAll_append] at hn
      rw [List.flatten_cons]
      obtain ⟨hne, htakes⟩ := hitem h
      refine .next (by simp [hne]) (htakes _ (by omega)) ?_ (ih (by omega))
      simpa using List.length_pos_iff.2 hne
  exact Row.takes_manyWhile (by rwa [List.append_nil])

/-! ## Commas -/

section Commas

variable {stop : List Token → Bool} (Ends : List Token → Prop) {cs : List Code}

/-- Pieces that are read in front of a comma or of the end are read as a list. -/
theorem takes_commaUntilFrom
    (h : List.Forall₂ (fun c a => ∀ behind, Ends behind →
      Takes item c a behind ∧ stop (c ++ behind) = false) cs as)
    (hcomma : ∀ behind, Ends (Code.op "," ++ behind) ∧ stop (Code.op "," ++ behind) = false)
    (hend : Ends rest) (hstop : stop rest = true) {n : Nat} (hn : cs.length ≤ n) :
    Takes (commaUntilFrom stop item n) (Tokens.commaSeparated cs) (as, false) rest := by
  induction h generalizing n with
  | nil =>
    cases n with
    | zero => exact .pure
    | succ n => exact .look (.isTrue hstop .pure)
  | @cons c a cs as hitem hitems ih =>
    cases n with
    | zero => cases hn
    | succ n =>
      unfold commaUntilFrom
      cases hitems with
      | nil =>
        obtain ⟨htake, hno⟩ := hitem rest hend
        rw [commaSeparated_singleton]
        exact .look (.isFalse (by simp [hno]) (.last htake (.look (.isTrue hstop .pure))))
      | @cons c' a' cs as hitem' hitems =>
        have ih := ih (n := n) (by simpa using hn)
        obtain ⟨htake, hno⟩ := hitem _ (hcomma (Tokens.commaSeparated (c' :: cs) ++ rest)).1
        have hno' : stop (Tokens.commaSeparated (c' :: cs) ++ rest) = false := by
          cases hitems with
          | nil =>
            rw [commaSeparated_singleton]
            exact (hitem' rest hend).2
          | cons _ _ =>
            rw [commaSeparated_cons_cons, List.append_assoc]
            exact (hitem' _ (hcomma _).1).2
        rw [commaSeparated_cons_cons]
        show Takes _ (c ++ (Code.op "," ++ Tokens.commaSeparated (c' :: cs))) _ _
        refine .look (.isFalse ?_ (.bind (by rwa [List.append_assoc]) (.look (.isFalse ?_ ?_))))
        · rw [List.append_assoc, List.append_assoc, hno]
          exact Bool.false_ne_true
        · rw [List.append_assoc, (hcomma _).2]
          exact Bool.false_ne_true
        · exact .bind rfl (.look (.isFalse (by simp [hno']) (.last ih .pure)))

theorem takes_commaUntil
    (h : List.Forall₂ (fun c a => ∀ behind, Ends behind →
      Takes item c a behind ∧ stop (c ++ behind) = false) cs as)
    (hcomma : ∀ behind, Ends (Code.op "," ++ behind) ∧ stop (Code.op "," ++ behind) = false)
    (hend : Ends rest) (hstop : stop rest = true) :
    Takes (commaUntil stop item) (Tokens.commaSeparated cs) (as, false) rest := by
  refine .look (takes_commaUntilFrom Ends h hcomma hend hstop ?_)
  have := length_commaSeparated cs
  simp only [List.length_append]
  omega

/-- Pieces that are read in front of a comma or at the end are read as the list up to the end. -/
theorem takes_terminated
    (h : List.Forall₂ (fun c a => c ≠ [] ∧ ∀ behind, Ends behind → Takes item c a behind) cs as)
    (hcomma : ∀ behind, Ends (Code.op "," ++ behind)) (hend : Ends []) :
    Takes (terminated item) (Tokens.commaSeparated cs) as [] := by
  refine .last (takes_commaUntil Ends (h.imp fun c a hitem behind hbehind => ?_)
    (fun behind => ⟨hcomma behind, rfl⟩) hend rfl) .pure
  refine ⟨hitem.2 behind hbehind, ?_⟩
  simp [hitem.1]

end Commas

end Parse

/-! ## Names in paths -/

open Parse (Takes)

/-- A word that names something in a path. -/
def isPathName (text : String) : Bool :=
  isIdentifier text || ["super", "self", "Self", "crate"].contains text

section Names

variable {t w : String} {rest : Code}

theorem isPathName_of_isIdentifier (h : isIdentifier t = true) : isPathName t = true := by
  unfold isPathName
  rw [h, Bool.true_or]

theorem startsWord_of_isPathName (h : isPathName t = true) (hw : isPathName w = false) :
    startsWord w (.ident t :: rest) = false := by
  refine Bool.eq_false_iff.2 fun hstarts => ?_
  obtain rfl : t = w := of_decide_eq_true hstarts
  rw [h] at hw
  cases hw

theorem startsWord_of_isIdentifier (h : isIdentifier t = true) (hw : isIdentifier w = false) :
    startsWord w (.ident t :: rest) = false := by
  refine Bool.eq_false_iff.2 fun hstarts => ?_
  obtain rfl : t = w := of_decide_eq_true hstarts
  rw [h] at hw
  cases hw

theorem takes_ident (h : isIdentifier t = true) : Takes Parse.ident (Code.word t) t rest :=
  if_pos h

theorem takes_name : Takes Parse.name (Code.word t) t rest :=
  rfl

end Names

end Syntax

end TypedRoutes
