import TypedRoutes.Proofs.Readers

/-!
# Readers in front of a block

* `Steady` : a look at the tokens ahead comes out alike with a block behind them;
* `Carries` : what a reader reads it reads alike with a block behind the list;
* `Consumes` : a reader takes a token at least.

The block may have anything behind it.
-/

set_option synthInstance.maxSize 20000

namespace TypedRoutes.Syntax.Parse

variable {α β : Type} {more : Bool}

/-- A look at the tokens ahead comes out alike with a block behind them. With `more` it need not
where nothing else is ahead. -/
class Steady (more : Bool) (c : List Token → β) : Prop where
  steady {inner behind ts : List Token} : (more = true → ts ≠ []) →
    c (ts ++ .group .brace inner :: behind) = c ts

/-- What a reader reads it reads alike with a block behind the list. With `more` it need not where
it reads the list to its end. -/
class Carries (more : Bool) (p : Parse α) : Prop where
  reads {inner behind ts r : List Token} {a : α} : p ts = some (a, r) → (more = true → r ≠ []) →
    p (ts ++ .group .brace inner :: behind) = some (a, r ++ .group .brace inner :: behind)
  shrinks {ts r : List Token} {a : α} : p ts = some (a, r) → r.length ≤ ts.length

/-- A reader takes a token at least. -/
class Consumes (p : Parse α) : Prop where
  shorter {ts r : List Token} {a : α} : p ts = some (a, r) → r.length < ts.length

/-! ## Looking ahead -/

/-- A look at the tokens ahead finds nothing at the end. -/
class Stops (c : List Token → Bool) : Prop where
  nil : c [] = false

instance {text : String} : Stops (startsOp text) where
  nil := by
    unfold startsOp
    rcases text.toList with _ | ⟨c, _ | ⟨c', cs⟩⟩ <;> rfl

instance {text : String} : Stops (startsWord text) where
  nil := rfl

instance {c d : List Token → Bool} [hc : Stops c] : Stops (fun ts => c ts && d ts) where
  nil := by rw [hc.nil, Bool.false_and]

theorem and_congr_of {a b c : Bool} (h : a = true → b = c) : (a && b) = (a && c) := by
  cases a with
  | false => rfl
  | true => exact h rfl

section Steady

variable {c d : List Token → Bool}

section Append

variable {inner behind ts : List Token} {text : String}

theorem startsChars_append (cs : List Char) :
    startsChars cs (ts ++ .group .brace inner :: behind) = startsChars cs ts := by
  induction cs generalizing ts with
  | nil => rfl
  | cons c cs ih =>
    rcases ts with _ | ⟨_ | _ | _ | ⟨c', joint⟩ | _, rest⟩ <;> rcases cs with _ | ⟨d, cs⟩ <;>
      simp [startsChars]
    rw [ih]

theorem startsOp_append : startsOp text (ts ++ .group .brace inner :: behind) = startsOp text ts :=
  startsChars_append _

theorem startsWord_append :
    startsWord text (ts ++ .group .brace inner :: behind) = startsWord text ts := by
  rcases ts with _ | ⟨_ | _ | _ | _ | _, rest⟩ <;> rfl

theorem startsIdent_append : startsIdent (ts ++ .group .brace inner :: behind) = startsIdent ts := by
  rcases ts with _ | ⟨_ | _ | _ | _ | _, rest⟩ <;> rfl

theorem startsName_append : startsName (ts ++ .group .brace inner :: behind) = startsName ts := by
  rcases ts with _ | ⟨_ | _ | _ | _ | _, rest⟩ <;> rfl

theorem startsLifetime_append :
    startsLifetime (ts ++ .group .brace inner :: behind) = startsLifetime ts := by
  rcases ts with _ | ⟨_ | _ | _ | _ | _, rest⟩ <;> rfl

theorem startsLit_append : startsLit (ts ++ .group .brace inner :: behind) = startsLit ts := by
  rcases ts with _ | ⟨_ | _ | _ | ⟨c', joint⟩ | _, rest⟩ <;> try rfl
  by_cases hminus : c' = '-'
  · subst hminus
    rcases rest with _ | ⟨_ | _ | _ | _ | _, rest⟩ <;> rfl
  · simp [startsLit, hminus]

theorem startsGroup_append {d : Delim} (h : d ≠ .brace) :
    startsGroup d (ts ++ .group .brace inner :: behind) = startsGroup d ts := by
  rcases ts with _ | ⟨_ | _ | _ | _ | _, rest⟩ <;> try rfl
  exact decide_eq_false h

end Append

instance {text : String} : Steady more (startsOp text) where
  steady _ := startsOp_append

instance {text : String} : Steady more (startsWord text) where
  steady _ := startsWord_append

instance : Steady more startsIdent where
  steady _ := startsIdent_append

instance : Steady more startsName where
  steady _ := startsName_append

instance : Steady more startsLifetime where
  steady _ := startsLifetime_append

instance : Steady more startsLit where
  steady _ := startsLit_append

instance : Steady more (startsGroup .paren) where
  steady _ := startsGroup_append (by decide)

instance : Steady more (startsGroup .bracket) where
  steady _ := startsGroup_append (by decide)

instance : Steady true (startsGroup .brace) where
  steady {_ _ ts} h := by
    cases ts with
    | nil => exact absurd rfl (h rfl)
    | cons t ts => cases t <;> rfl

instance : Steady true (List.isEmpty (α := Token)) where
  steady {_ _ ts} h := by
    cases ts with
    | nil => exact absurd rfl (h rfl)
    | cons t ts => cases t <;> rfl

instance {b : β} : Steady more (fun _ => b) where
  steady _ := rfl

instance {words : List String} : Steady more (fun ts => words.any (startsWord · ts)) where
  steady h := congrArg (words.any ·) (funext fun _ => Steady.steady h)

instance [Steady more c] [Steady more d] : Steady more (fun ts => c ts && d ts) where
  steady h := congr (congrArg and (Steady.steady h)) (Steady.steady h)

instance [Steady more c] [Steady more d] : Steady more (fun ts => c ts || d ts) where
  steady h := congr (congrArg or (Steady.steady h)) (Steady.steady h)

instance [Steady more c] : Steady more (fun ts => !c ts) where
  steady h := congrArg not (Steady.steady h)

/-- What is behind the first token is looked at where there is one. -/
instance [hc : Steady false c] : Steady true (fun ts => c (ts.drop 1)) where
  steady {_ _ ts} h := by
    cases ts with
    | nil => exact absurd rfl (h rfl)
    | cons t ts => exact hc.steady nofun

/-- What is asked behind something else is asked where that stands ahead. -/
instance [hc : Steady more c] [hnil : Stops c] [hd : Steady true d] :
    Steady more (fun ts => c ts && d ts) where
  steady {_ _ ts} h := by
    refine (congrArg (· && _) (hc.steady h)).trans (and_congr_of fun hts => hd.steady fun _ => ?_)
    rintro rfl
    rw [hnil.nil] at hts
    cases hts

theorem steady_colons {inner behind ts : List Token} (hc : Steady false c) :
    (startsOp "::" (ts ++ .group .brace inner :: behind) &&
      c ((ts ++ .group .brace inner :: behind).drop 2)) =
        (startsOp "::" ts && c (ts.drop 2)) := by
  rw [startsOp_append]
  refine and_congr_of fun hts => ?_
  obtain ⟨ts, rfl, hts⟩ := startsChars_cons.1 hts
  obtain ⟨joint, ts, rfl⟩ := startsChars_one.1 hts
  exact hc.steady nofun

instance [hc : Steady false c] : Steady more (fun ts => startsOp "::" ts && c (ts.drop 2)) where
  steady _ := steady_colons hc

instance [hc : Steady false c] : Steady more (fun ts => startsOp "::" ts && !c (ts.drop 2)) where
  steady _ := steady_colons (c := fun ts => !c ts) inferInstance

end Steady

/-! ## Single tokens -/

namespace Carries

theorem startsChars_length {cs : List Char} {ts : List Token} (h : startsChars cs ts = true) :
    cs ≠ [] ∧ cs.length ≤ ts.length := by
  induction cs generalizing ts with
  | nil => simp [startsChars] at h
  | cons c cs ih =>
    refine ⟨List.cons_ne_nil _ _, ?_⟩
    cases cs with
    | nil =>
      obtain ⟨joint, rest, rfl⟩ := startsChars_one.1 h
      simp
    | cons d cs =>
      obtain ⟨rest, rfl, hrest⟩ := startsChars_cons.1 h
      simpa using (ih hrest).2

theorem startsOp_length {text : String} {ts : List Token} (h : startsOp text ts = true) :
    0 < text.length ∧ text.length ≤ ts.length := by
  obtain ⟨hne, hle⟩ := startsChars_length h
  rw [String.length_toList] at hle
  exact ⟨by rw [← String.length_toList]; exact List.length_pos_iff.2 hne, hle⟩

instance pure (a : α) : Carries more (pure a : Parse α) where
  reads h _ := by
    cases h
    rfl
  shrinks h := by
    cases h
    exact Nat.le_refl _

instance fail : Carries more (Parse.fail : Parse α) where
  reads h := nomatch h
  shrinks h := nomatch h

instance ahead {c : List Token → β} [Steady more c] : Carries more (ahead c) where
  reads {inner behind ts r a} h hr := by
    cases h
    exact congrArg (fun b => some (b, ts ++ Token.group .brace inner :: behind)) (Steady.steady hr)
  shrinks h := by
    cases h
    exact Nat.le_refl _

instance op {text : String} : Carries more (op text) where
  reads {inner behind ts r a} h _ := by
    unfold Parse.op at h ⊢
    split at h
    · next hstarts =>
      cases h
      rw [if_pos (by rwa [startsOp_append]), List.drop_append_of_le_length
        (startsOp_length hstarts).2]
    · cases h
  shrinks h := by
    unfold Parse.op at h
    split at h
    · cases h
      simp
    · cases h

instance op? {text : String} : Carries more (op? text) where
  reads {inner behind ts r a} h _ := by
    unfold Parse.op? at h ⊢
    split at h
    · next hstarts =>
      cases h
      rw [if_pos (by rwa [startsOp_append]), List.drop_append_of_le_length
        (startsOp_length hstarts).2]
    · next hstarts =>
      cases h
      rw [if_neg (by rwa [startsOp_append])]
  shrinks h := by
    unfold Parse.op? at h
    split at h
    · cases h
      simp
    · cases h
      exact Nat.le_refl _

end Carries

/-- A reader looks at the token in front alone and takes it. -/
class Single (p : Parse α) : Prop where
  nil : p [] = none
  cons (t : Token) (rest : List Token) : p (t :: rest) = (p [t]).map fun r => (r.1, rest)

namespace Single

variable {p : Parse α} [Single p]

theorem exists_cons {ts r : List Token} {a : α} (h : p ts = some (a, r)) :
    ∃ t, ts = t :: r ∧ ∀ rest, p (t :: rest) = some (a, rest) := by
  cases ts with
  | nil =>
    rw [Single.nil (p := p)] at h
    cases h
  | cons t rest =>
    rw [Single.cons (p := p)] at h
    obtain ⟨⟨a', r'⟩, hread, heq⟩ := Option.map_eq_some_iff.1 h
    cases heq
    exact ⟨t, rfl, fun rest' => by rw [Single.cons (p := p), hread]; rfl⟩

instance : Carries more p where
  reads h _ := by
    obtain ⟨t, rfl, hread⟩ := exists_cons h
    exact hread _
  shrinks h := by
    obtain ⟨t, rfl, -⟩ := exists_cons h
    simp

instance : Consumes p where
  shorter h := by
    obtain ⟨t, rfl, -⟩ := exists_cons h
    simp

end Single

instance {text : String} : Single (word text) where
  nil := rfl
  cons t rest := by
    cases t with
    | ident t => by_cases ht : t = text <;> simp [word, startsWord, ht]
    | _ => rfl

instance : Single ident where
  nil := rfl
  cons t rest := by
    cases t with
    | ident t => by_cases ht : isIdentifier t = true <;> simp [ident, ht]
    | _ => rfl

instance : Single member where
  nil := rfl
  cons t rest := by
    cases t with
    | ident t => by_cases ht : isIdentifier t = true <;> simp [member, ht]
    | literal t =>
      simp only [member]
      cases Literal.index? t <;> rfl
    | _ => rfl

instance : Single name where
  nil := rfl
  cons t rest := by cases t <;> rfl

instance : Single lifetime where
  nil := rfl
  cons t rest := by cases t <;> rfl

instance : Single literal where
  nil := rfl
  cons t rest := by
    cases t with
    | ident t => by_cases ht : t = "true" ∨ t = "false" <;> simp [literal, ht]
    | _ => rfl

instance {d : Delim} {p : Parse α} : Single (within d p) where
  nil := rfl
  cons t rest := by
    cases t with
    | group d' inner =>
      by_cases hd : d = d'
      · cases h : p.all inner <;> simp [within, hd, h]
      · simp [within, hd]
    | _ => rfl

instance : Single invocationBody where
  nil := rfl
  cons t rest := by cases t <;> rfl

namespace Carries

variable {p q : Parse α} {f : α → Parse β}

instance word? {text : String} : Carries more (word? text) where
  reads {inner behind ts r a} h hr := by
    unfold Parse.word? at h ⊢
    split at h
    · next hstarts =>
      cases h
      obtain ⟨rest, rfl⟩ := startsWord_iff.1 hstarts
      exact if_pos (startsWord_iff.2 ⟨_, rfl⟩)
    · next hstarts =>
      cases h
      rw [if_neg (by rwa [startsWord_append])]
  shrinks h := by
    unfold Parse.word? at h
    split at h
    · cases h
      simp
    · cases h
      exact Nat.le_refl _

instance lifetime? : Carries more lifetime? where
  reads {inner behind ts r a} h hr := by
    rcases ts with _ | ⟨_ | _ | _ | _ | _, rest⟩ <;> cases h <;> rfl
  shrinks {ts r a} h := by
    rcases ts with _ | ⟨_ | _ | _ | _ | _, rest⟩ <;> cases h <;> simp

/-! ## Composite readers -/

theorem ne_nil_of_le {ts r : List Token} (hr : more = true → r ≠ []) (h : r.length ≤ ts.length) :
    more = true → ts ≠ [] := by
  rintro hmore rfl
  exact hr hmore (List.length_eq_zero_iff.1 (Nat.le_zero.1 h))

instance bind [hp : Carries more p] [hf : ∀ a, Carries more (f a)] :
    Carries more (p >>= f) where
  reads h hr := by
    obtain ⟨a, rest, ha, h⟩ := bind_eq_some.1 h
    have hrest : more = true → rest ≠ [] := by
      rintro hmore rfl
      exact hr hmore (List.length_eq_zero_iff.1 (Nat.le_zero.1 ((hf a).shrinks h)))
    exact bind_eq_some.2 ⟨a, _, hp.reads ha hrest, (hf a).reads h hr⟩
  shrinks h := by
    obtain ⟨a, rest, ha, h⟩ := bind_eq_some.1 h
    exact Nat.le_trans ((hf a).shrinks h) (hp.shrinks ha)

/-- A reader whose rest is not empty, since another one goes on there. -/
theorem closed (hp : Carries true p) (hf : ∀ a, Carries more (f a))
    (hnil : ∀ a, f a [] = none) : Carries more (p >>= f) where
  reads h hr := by
    obtain ⟨a, rest, ha, h⟩ := bind_eq_some.1 h
    have hrest : rest ≠ [] := by
      rintro rfl
      rw [hnil] at h
      cases h
    exact bind_eq_some.2 ⟨a, _, hp.reads ha fun _ => hrest, (hf a).reads h hr⟩
  shrinks h := by
    obtain ⟨a, rest, ha, h⟩ := bind_eq_some.1 h
    exact Nat.le_trans ((hf a).shrinks h) (hp.shrinks ha)

/-- A look at the tokens ahead of a reader that needs one. -/
theorem opened {c : List Token → α} (hc : Steady true c) (hf : ∀ a, Carries more (f a))
    (hnil : ∀ a, f a [] = none) : Carries more (Parse.ahead c >>= f) where
  reads {inner behind ts r a} h hr := by
    have hts : ts ≠ [] := by
      rintro rfl
      rw [bind_apply, Parse.ahead, Option.bind_some, hnil] at h
      cases h
    have hread : Parse.ahead c (ts ++ .group .brace inner :: behind) =
        some (c ts, ts ++ .group .brace inner :: behind) :=
      congrArg (fun b => some (b, ts ++ Token.group .brace inner :: behind)) (hc.steady fun _ => hts)
    exact bind_eq_some.2 ⟨_, _, hread, (hf _).reads h hr⟩
  shrinks h := (hf _).shrinks h

instance ite {c : Prop} [Decidable c] [hp : Carries more p] [hq : Carries more q] :
    Carries more (if c then p else q) := by
  split
  · exact hp
  · exact hq

instance map {f : α → β} [hp : Carries more p] : Carries more (f <$> p) where
  reads h hr := by
    rw [map_apply] at h ⊢
    obtain ⟨⟨a, rest⟩, ha, h⟩ := Option.map_eq_some_iff.1 h
    cases h
    rw [hp.reads ha hr]
    rfl
  shrinks h := by
    rw [map_apply] at h
    obtain ⟨⟨a, rest⟩, ha, h⟩ := Option.map_eq_some_iff.1 h
    cases h
    exact hp.shrinks ha

instance whenAhead {c : List Token → Bool} [Steady more c] [Carries more p] :
    Carries more (whenAhead c p) := by
  unfold Parse.whenAhead
  infer_instance

instance taking [hp : Carries more p] : Carries more (taking p) where
  reads {inner behind ts r a} h hr := by
    obtain ⟨⟨a', rest⟩, ha, h⟩ := Option.map_eq_some_iff.1 h
    cases h
    have hle := hp.shrinks ha
    refine Option.map_eq_some_iff.2 ⟨_, hp.reads ha hr, ?_⟩
    simp only [List.length_append, Nat.add_sub_add_right]
    rw [List.take_append_of_le_length (Nat.sub_le _ _)]
  shrinks h := by
    obtain ⟨⟨a', rest⟩, ha, h⟩ := Option.map_eq_some_iff.1 h
    cases h
    exact hp.shrinks ha

theorem op?_shorter {text : String} {ts r : List Token}
    (h : Parse.op? text ts = some (true, r)) : r.length < ts.length := by
  unfold Parse.op? at h
  split at h
  · next hstarts =>
    cases h
    have := startsOp_length hstarts
    rw [List.length_drop]
    omega
  · cases h

end Carries

/-! ## Consuming readers -/

namespace Consumes

variable {p : Parse α} {f : α → Parse β}

instance op {text : String} : Consumes (op text) where
  shorter h := by
    unfold Parse.op at h
    split at h
    · next hstarts =>
      cases h
      have := Carries.startsOp_length hstarts
      rw [List.length_drop]
      omega
    · cases h

instance bind [hp : Consumes p] [hf : ∀ a, Carries true (f a)] : Consumes (p >>= f) where
  shorter h := by
    obtain ⟨a, rest, ha, h⟩ := bind_eq_some.1 h
    exact Nat.lt_of_le_of_lt ((hf a).shrinks h) (hp.shorter ha)

end Consumes

/-! ## Loops -/

/-- Of lists with fewer than `k` tokens `q` reads, with a block behind, what `p` reads without. -/
structure Follows (more : Bool) (inner behind : List Token) (k : Nat) (p q : Parse α) : Prop where
  reads {ts r : List Token} {a : α} : ts.length < k → p ts = some (a, r) →
    (more = true → r ≠ []) →
      q (ts ++ .group .brace inner :: behind) = some (a, r ++ .group .brace inner :: behind)
  shrinks {ts r : List Token} {a : α} : ts.length < k → p ts = some (a, r) → r.length ≤ ts.length

namespace Follows

variable {inner behind : List Token} {k : Nat} {p q p' q' : Parse α} {f f' : α → Parse β}

theorem of_carries [Carries more p] : Follows more inner behind k p p :=
  ⟨fun _ => Carries.reads, fun _ => Carries.shrinks more⟩

theorem mono {k' : Nat} (h : Follows more inner behind k p q) (hk : k' ≤ k) :
    Follows more inner behind k' p q :=
  ⟨fun hlt => h.reads (Nat.lt_of_lt_of_le hlt hk), fun hlt => h.shrinks (Nat.lt_of_lt_of_le hlt hk)⟩

theorem none : Follows more inner behind 0 p q :=
  ⟨fun h => absurd h (Nat.not_lt_zero _), fun h => absurd h (Nat.not_lt_zero _)⟩

theorem bind (hp : Follows more inner behind k p q)
    (hf : ∀ a, Follows more inner behind k (f a) (f' a)) :
    Follows more inner behind k (p >>= f) (q >>= f') where
  reads hk h hr := by
    obtain ⟨a, rest, ha, h⟩ := bind_eq_some.1 h
    have hlt := Nat.lt_of_le_of_lt (hp.shrinks hk ha) hk
    have hne := Carries.ne_nil_of_le hr ((hf a).shrinks hlt h)
    exact bind_eq_some.2 ⟨a, _, hp.reads hk ha hne, (hf a).reads hlt h hr⟩
  shrinks hk h := by
    obtain ⟨a, rest, ha, h⟩ := bind_eq_some.1 h
    have hle := hp.shrinks hk ha
    exact Nat.le_trans ((hf a).shrinks (Nat.lt_of_le_of_lt hle hk) h) hle

/-- What goes on behind a reader that may take a token has fewer ahead if it does. -/
theorem bindTaking (took : α → Bool) [hp : Carries more p]
    (hshort : ∀ ts a r, p ts = some (a, r) → took a = true → r.length < ts.length)
    (hf : ∀ a, took a = true → Follows more inner behind k (f a) (f' a))
    (hf' : ∀ a, took a = false → Follows more inner behind (k + 1) (f a) (f' a)) :
    Follows more inner behind (k + 1) (p >>= f) (p >>= f') := by
  have hstep {ts r : List Token} {a : α} (hk : ts.length < k + 1) (ha : p ts = some (a, r)) :
      ∃ k', r.length < k' ∧ Follows more inner behind k' (f a) (f' a) := by
    cases htook : took a with
    | true =>
      exact ⟨k, Nat.lt_of_lt_of_le (hshort ts a r ha htook) (Nat.le_of_lt_succ hk), hf a htook⟩
    | false => exact ⟨k + 1, Nat.lt_of_le_of_lt (hp.shrinks ha) hk, hf' a htook⟩
  constructor
  · intro ts r b hk h hr
    obtain ⟨a, rest, ha, h⟩ := bind_eq_some.1 h
    obtain ⟨k', hlt, hfollows⟩ := hstep hk ha
    have hne := Carries.ne_nil_of_le hr (hfollows.shrinks hlt h)
    exact bind_eq_some.2 ⟨a, _, hp.reads ha hne, hfollows.reads hlt h hr⟩
  · intro ts r b hk h
    obtain ⟨a, rest, ha, h⟩ := bind_eq_some.1 h
    obtain ⟨k', hlt, hfollows⟩ := hstep hk ha
    exact Nat.le_trans (hfollows.shrinks hlt h) (hp.shrinks ha)

/-- What goes on behind a token has fewer ahead. -/
theorem bindShorter [Carries more p] [hshort : Consumes p]
    (hf : ∀ a, Follows more inner behind k (f a) (f' a)) :
    Follows more inner behind (k + 1) (p >>= f) (p >>= f') :=
  bindTaking (fun _ => true) (fun _ _ _ h _ => hshort.shorter h) (fun a _ => hf a) nofun

theorem ite {c : Prop} [Decidable c] (hp : Follows more inner behind k p q)
    (hp' : Follows more inner behind k p' q') :
    Follows more inner behind k (if c then p else p') (if c then q else q') := by
  split
  · exact hp
  · exact hp'

/-- What goes on behind an operator that may stand in front. -/
theorem opThen {text : String} (hp : Follows more inner behind k p q)
    (hp' : Follows more inner behind (k + 1) p' q') :
    Follows more inner behind (k + 1) (op? text >>= fun b => if b then p else p')
      (op? text >>= fun b => if b then q else q') :=
  bindTaking id (by rintro ts _ r h rfl; exact Carries.op?_shorter h) (by rintro _ rfl; exact hp)
    (by rintro _ rfl; exact hp')

/-- The tokens that have been taken since a start are the same. -/
theorem taken {start : List Token} (f : List Token → α) :
    Follows more inner behind (start.length + 1)
      (remaining >>= fun n => pure (f (start.take (start.length - n))))
      (remaining >>= fun n => pure (f ((start ++ Token.group .brace inner :: behind).take
        ((start ++ Token.group .brace inner :: behind).length - n)))) where
  reads {ts r a} hk h _ := by
    cases h
    refine bind_eq_some.2 ⟨_, _, rfl, ?_⟩
    simp only [List.length_append, Nat.add_sub_add_right]
    rw [List.take_append_of_le_length (Nat.sub_le _ _)]
    rfl
  shrinks _ h := by
    cases h
    exact Nat.le_refl _

/-- What is read may depend on the tokens ahead. -/
theorem look {f f' : List Token → Parse β}
    (h : ∀ ts, ts.length < k →
      Follows more inner behind (ts.length + 1) (f ts) (f' (ts ++ .group .brace inner :: behind))) :
    Follows more inner behind k (Parse.ahead id >>= f) (Parse.ahead id >>= f') where
  reads {ts _ _} hk := (h ts hk).reads (Nat.lt_succ_self _)
  shrinks {ts _ _} hk := (h ts hk).shrinks (Nat.lt_succ_self _)

theorem carries {p : Parse α} (h : ∀ inner behind k, Follows more inner behind k p p) :
    Carries more p where
  reads {inner behind ts _ _} := (h inner behind _).reads (Nat.lt_succ_self ts.length)
  shrinks {ts _ _} := (h [] [] _).shrinks (Nat.lt_succ_self ts.length)

/-- A loop whose fuel exceeds the number of tokens ahead. -/
theorem ofFuel {p : Nat → Parse α}
    (h : ∀ inner behind n m, n < m → Follows more inner behind n (p n) (p m)) :
    Carries more (remaining >>= fun n => p (n + 1)) where
  reads {inner behind ts _ _} := (h inner behind (ts.length + 1) _ (by simp)).reads (Nat.lt_succ_self _)
  shrinks {ts _ _} :=
    (h [] [] (ts.length + 1) _ (Nat.lt_succ_self _)).shrinks (Nat.lt_succ_self _)

end Follows

namespace Carries

variable {inner behind : List Token} {p : Parse α} {c : List Token → Bool} [Carries more p]
  [Steady more c]

theorem whileAhead_follows [Consumes p] (hnil : c [] = false) {n m : Nat} (hm : n < m) :
    Follows more inner behind (n + 1) (whileAhead c p n) (whileAhead c p m) := by
  obtain ⟨m, rfl⟩ := Nat.exists_eq_succ_of_ne_zero (Nat.ne_zero_of_lt hm)
  induction n generalizing m with
  | zero =>
    constructor
    · intro ts r as hk h hr
      obtain rfl := List.length_eq_zero_iff.1 (Nat.lt_one_iff.1 hk)
      cases h
      have hc : c ([] ++ .group .brace inner :: behind) = false := (Steady.steady hr).trans hnil
      exact bind_eq_some.2 ⟨_, _, congrArg some (Prod.ext hc rfl), rfl⟩
    · intro ts r as hk h
      cases h
      exact Nat.le_refl _
  | succ n ih =>
    obtain ⟨m, rfl⟩ := Nat.exists_eq_succ_of_ne_zero (n := m) (by omega)
    exact .bind .of_carries fun go => .ite
      (.bindShorter fun a => .bind (ih m (by omega)) fun as => .of_carries) .of_carries

theorem plusWhileFrom_follows {n m : Nat} (hm : n < m) :
    Follows more inner behind n (plusWhileFrom c p n) (plusWhileFrom c p m) := by
  induction n generalizing m with
  | zero => exact .none
  | succ n ih =>
    obtain ⟨m, rfl⟩ := Nat.exists_eq_succ_of_ne_zero (Nat.ne_zero_of_lt hm)
    exact .bind .of_carries fun go => .ite (.bind .of_carries fun a => .opThen
      (.bind (ih (by omega)) fun as => .of_carries) .of_carries) .of_carries

theorem commaUntilFrom_follows {n m : Nat} (hm : n < m) :
    Follows more inner behind n (commaUntilFrom c p n) (commaUntilFrom c p m) := by
  induction n generalizing m with
  | zero => exact .none
  | succ n ih =>
    obtain ⟨m, rfl⟩ := Nat.exists_eq_succ_of_ne_zero (Nat.ne_zero_of_lt hm)
    exact .bind .of_carries fun _ => .ite .of_carries <| .bind .of_carries fun a =>
      .bind .of_carries fun _ => .ite .of_carries <| .bindShorter fun _ => .bind .of_carries
        fun _ => .ite .of_carries <| .bind (ih (by omega)) fun _ => .of_carries

instance manyWhile [Consumes p] [hstop : Stops c] : Carries more (manyWhile c p) where
  reads {inner behind ts r as} h hr :=
    (whileAhead_follows hstop.nil (n := ts.length) (by simp)).reads (Nat.lt_succ_self _) h hr
  shrinks {ts r as} h := by
    have hloop : Follows more [] [] (ts.length + 1) (Parse.whileAhead c p ts.length)
        (Parse.whileAhead c p (ts.length + 1)) :=
      whileAhead_follows hstop.nil (Nat.lt_succ_self _)
    exact hloop.shrinks (Nat.lt_succ_self _) h

instance plusWhile : Carries more (plusWhile c p) :=
  Follows.ofFuel fun _ _ _ _ => plusWhileFrom_follows

instance commaUntil : Carries more (commaUntil c p) :=
  Follows.ofFuel fun _ _ _ _ => commaUntilFrom_follows

end Carries

end TypedRoutes.Syntax.Parse
