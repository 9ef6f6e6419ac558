import TypedRoutes.Syntax.Parser.Source

/-!
# Readers

* `startsOp_ident`, `startsOp_colon`, `startsWord_iff`, … : what stands in front of a list;
* `Parse.bind_eq_some`, `Parse.all_eq_some`, … : how composite readers read;
* `Parse.Extends` : a reader reads whatever another one reads, and reads it alike;
* `Parse.Yields` : whatever a reader reads has a property.
-/

set_option synthInstance.maxSize 20000

namespace TypedRoutes.Syntax

open Parse

/-! ## What stands in front -/

section Ahead

variable {text t : String} {rest ts : List Token}

theorem startsWord_iff : startsWord text ts = true ↔ ∃ rest, ts = .ident text :: rest := by
  constructor
  · intro h
    unfold startsWord at h
    split at h
    · next t rest =>
      obtain rfl : t = text := of_decide_eq_true h
      exact ⟨rest, rfl⟩
    · cases h
  · rintro ⟨rest, rfl⟩
    exact decide_eq_true rfl

theorem startsOp_ident : startsOp text (.ident t :: rest) = false := by
  unfold startsOp
  rcases text.toList with _ | ⟨c, _ | ⟨c', cs⟩⟩ <;> rfl

theorem startsChars_one {c : Char} :
    startsChars [c] ts = true ↔ ∃ joint rest, ts = .punct c joint :: rest := by
  constructor
  · intro h
    rcases ts with _ | ⟨_ | _ | _ | ⟨d, joint⟩ | _, rest⟩ <;> simp [startsChars] at h
    exact ⟨joint, rest, by rw [h]⟩
  · rintro ⟨joint, rest, rfl⟩
    simp [startsChars]

theorem startsChars_cons {c c' : Char} {cs : List Char} :
    startsChars (c :: c' :: cs) ts = true ↔
      ∃ rest, ts = .punct c true :: rest ∧ startsChars (c' :: cs) rest = true := by
  constructor
  · intro h
    rcases ts with _ | ⟨_ | _ | _ | ⟨d, joint⟩ | _, rest⟩ <;> simp [startsChars] at h
    obtain ⟨⟨rfl, rfl⟩, h⟩ := h
    exact ⟨rest, rfl, h⟩
  · rintro ⟨rest, rfl, h⟩
    simp [startsChars, h]

theorem startsOp_colon : startsOp ":" ts = true ↔ ∃ joint rest, ts = .punct ':' joint :: rest :=
  startsChars_one

theorem startsOp_dots :
    startsOp "..." ts = true ↔
      ∃ joint rest, ts = .punct '.' true :: .punct '.' true :: .punct '.' joint :: rest := by
  unfold startsOp
  rw [show ("..." : String).toList = ['.', '.', '.'] from rfl, startsChars_cons]
  constructor
  · rintro ⟨ts₁, rfl, h⟩
    obtain ⟨ts₂, rfl, h⟩ := startsChars_cons.1 h
    obtain ⟨joint, rest, rfl⟩ := startsChars_one.1 h
    exact ⟨joint, rest, rfl⟩
  · rintro ⟨joint, rest, rfl⟩
    exact ⟨_, rfl, startsChars_cons.2 ⟨_, rfl, startsChars_one.2 ⟨joint, rest, rfl⟩⟩⟩

end Ahead

namespace Parse

variable {α β : Type} {p : Parse α} {f : α → Parse β} {ts : List Token}

/-! ## Composite readers -/

theorem bind_apply (p : Parse α) (f : α → Parse β) (ts : List Token) :
    (p >>= f) ts = (p ts).bind fun r => f r.1 r.2 := rfl

theorem bind_eq_some {r : β × List Token} :
    (p >>= f) ts = some r ↔ ∃ a rest, p ts = some (a, rest) ∧ f a rest = some r := by
  rw [bind_apply, Option.bind_eq_some_iff, Prod.exists]

theorem pure_eq_some {a : α} {r : α × List Token} :
    (pure a : Parse α) ts = some r ↔ r = (a, ts) := by
  rw [eq_comm]
  exact Option.some_inj

theorem map_apply (f : α → β) (p : Parse α) (ts : List Token) :
    (f <$> p) ts = (p ts).map fun r => (f r.1, r.2) := by
  cases h : p ts <;> simp [Functor.map, StateT.map, h]

theorem pure_apply (a : α) (ts : List Token) : (pure a : Parse α) ts = some (a, ts) := rfl

theorem all_eq_some {a : α} : p.all ts = some a ↔ p ts = some (a, []) := by
  unfold Parse.all
  split
  · next b hread => simp [hread]
  · next hno => exact ⟨nofun, fun hread => absurd hread (hno a)⟩

theorem whenAhead_apply (c : List Token → Bool) (p : Parse α) (ts : List Token) :
    whenAhead c p ts =
      if c ts then (p ts).map fun r => (some r.1, r.2) else some (none, ts) := by
  unfold whenAhead ahead
  rw [bind_apply, Option.bind_some]
  split
  · exact map_apply _ _ _
  · rfl

/-! ## Readers that read more -/

/-- A reader reads whatever another one reads, and reads it alike. -/
class Extends (p q : Parse α) : Prop where
  reads : ∀ {ts r}, p ts = some r → q ts = some r

namespace Extends

variable {q p' q' : Parse α} {f' : α → Parse β}

instance refl (p : Parse α) : Extends p p := ⟨id⟩

instance fail : Extends Parse.fail q where
  reads h := by cases h

theorem andThen (hp : Extends p q) (hf : ∀ a, Extends (f a) (f' a)) :
    Extends (p >>= f) (q >>= f') where
  reads h := by
    obtain ⟨⟨a, rest⟩, ha, h⟩ := Option.bind_eq_some_iff.1 h
    exact Option.bind_eq_some_iff.2 ⟨(a, rest), hp.reads ha, (hf a).reads h⟩

instance bind [hp : Extends p q] [hf : ∀ a, Extends (f a) (f' a)] :
    Extends (p >>= f) (q >>= f') :=
  hp.andThen hf

instance ite {c : Prop} [Decidable c] [hp : Extends p q] [hq : Extends p' q'] :
    Extends (if c then p else p') (if c then q else q') := by
  by_cases hc : c
  · simpa only [if_pos hc] using hp
  · simpa only [if_neg hc] using hq

theorem all [hp : Extends p q] {ts : List Token} {a : α} (h : p.all ts = some a) :
    q.all ts = some a :=
  all_eq_some.2 (hp.reads (all_eq_some.1 h))

instance map {f : α → β} [hp : Extends p q] : Extends (f <$> p) (f <$> q) where
  reads h := by
    obtain ⟨r, hr, h⟩ := Option.bind_eq_some_iff.1 h
    exact Option.bind_eq_some_iff.2 ⟨r, hp.reads hr, h⟩

/-- Reading goes on at given tokens. -/
instance rewind {ts : List Token} [hp : Extends p q] :
    Extends (fun _ => p ts : Parse α) (fun _ => q ts) where
  reads h := hp.reads h

instance within {d : Delim} [hp : Extends p q] : Extends (within d p) (within d q) where
  reads {ts r} h := by
    unfold Parse.within at h ⊢
    split at h
    · next d' inner rest =>
      by_cases hd : d = d'
      · rw [if_pos hd] at h ⊢
        obtain ⟨a, ha, rfl⟩ := Option.map_eq_some_iff.1 h
        exact Option.map_eq_some_iff.2 ⟨a, all ha, rfl⟩
      · rw [if_neg hd] at h
        cases h
    · cases h

instance whenAhead {c : List Token → Bool} [Extends p q] :
    Extends (whenAhead c p) (whenAhead c q) := by
  unfold Parse.whenAhead
  infer_instance

instance taking [hp : Extends p q] : Extends (taking p) (taking q) where
  reads h := by
    obtain ⟨r, hr, h⟩ := Option.map_eq_some_iff.1 h
    exact Option.map_eq_some_iff.2 ⟨r, hp.reads hr, h⟩

instance whileAhead {c : List Token → Bool} [Extends p q] (n : Nat) :
    Extends (whileAhead c p n) (whileAhead c q n) := by
  induction n with
  | zero => exact refl _
  | succ n ih =>
    unfold Parse.whileAhead
    infer_instance

instance manyWhile {c : List Token → Bool} [Extends p q] :
    Extends (manyWhile c p) (manyWhile c q) := by
  unfold Parse.manyWhile
  infer_instance

instance commaUntilFrom {c : List Token → Bool} [Extends p q] (n : Nat) :
    Extends (commaUntilFrom c p n) (commaUntilFrom c q n) := by
  induction n with
  | zero => exact refl _
  | succ n ih =>
    unfold Parse.commaUntilFrom
    dsimp only
    infer_instance

instance commaUntil {c : List Token → Bool} [Extends p q] :
    Extends (commaUntil c p) (commaUntil c q) := by
  unfold Parse.commaUntil
  infer_instance

instance terminated [Extends p q] : Extends (terminated p) (terminated q) := by
  unfold Parse.terminated
  infer_instance

instance plusWhileFrom {c : List Token → Bool} [Extends p q] (n : Nat) :
    Extends (plusWhileFrom c p n) (plusWhileFrom c q n) := by
  induction n with
  | zero => exact refl _
  | succ n ih =>
    unfold Parse.plusWhileFrom
    infer_instance

instance plusWhile {c : List Token → Bool} [Extends p q] :
    Extends (plusWhile c p) (plusWhile c q) := by
  unfold Parse.plusWhile
  infer_instance

end Extends

/-! ## What is read -/

/-- Whatever a reader reads has a property. -/
def Yields (P : α → Prop) (p : Parse α) : Prop :=
  ∀ ts r, p ts = some r → P r.1

namespace Yields

variable {P : β → Prop} {Q : α → Prop} {q : Parse β}

theorem pure {b : β} (h : P b) : Yields P (pure b : Parse β) := by
  rintro ts r hr
  rw [pure_eq_some.1 hr]
  exact h

theorem fail : Yields P (Parse.fail : Parse β) := by
  rintro ts r hr
  cases hr

/-- What is read first has a property that the rest goes on from. -/
theorem bindOf (hp : Yields Q p) (hf : ∀ a, Q a → Yields P (f a)) : Yields P (p >>= f) := by
  intro ts r hr
  obtain ⟨a, rest, ha, hr⟩ := bind_eq_some.1 hr
  exact hf a (hp ts _ ha) rest r hr

theorem bind (hf : ∀ a, Yields P (f a)) : Yields P (p >>= f) := by
  intro ts r hr
  obtain ⟨a, rest, -, hr⟩ := bind_eq_some.1 hr
  exact hf a rest r hr

theorem ite {c : Prop} [Decidable c] {q' : Parse β} (h : Yields P q) (h' : Yields P q') :
    Yields P (if c then q else q') := by
  split
  · exact h
  · exact h'

theorem iteOf {c : Prop} [Decidable c] {q' : Parse β} (h : c → Yields P q)
    (h' : ¬c → Yields P q') : Yields P (if c then q else q') := by
  split
  · next hc => exact h hc
  · next hc => exact h' hc

theorem within {d : Delim} (h : Yields P q) : Yields P (within d q) := by
  intro ts r hr
  unfold Parse.within at hr
  split at hr
  · next d' inner rest =>
    split at hr
    · obtain ⟨b, hb, rfl⟩ := Option.map_eq_some_iff.1 hr
      exact h inner (b, []) (all_eq_some.1 hb)
    · cases hr
  · cases hr

theorem trivial : Yields (fun _ => True) p :=
  fun _ _ _ => True.intro

theorem mono {Q' : α → Prop} (hp : Yields Q p) (h : ∀ a, Q a → Q' a) : Yields Q' p :=
  fun ts r hr => h _ (hp ts r hr)

end Yields

end Parse

end TypedRoutes.Syntax
