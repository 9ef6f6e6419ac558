import Mathlib.Data.List.DropRight
import Mathlib.Data.List.Infix
import TypedRoutes.Navigation.Match

/-!
# Two ways to join paths

Templates are joined by `joinChars`, which puts every path below the one above it; the navigator
joins by `pathBelow`, which takes a path that begins with a slash as it stands.

* `generated`, `navigated` : a list of paths joined either way;
* `Continues` : a path that both ways place alike, up to slashes at the end;
* `Aligned` : a list of such paths;
* `dropSlashesEnd_generated_eq_iff` : both ways agree up to slashes at the end just on such lists;
* `navigated_eq_generated_iff` : when both ways agree.
-/

namespace TypedRoutes

open Navigation

/-! ## Slashes -/

/-- No other characters than slashes. -/
def Bare (cs : List Char) : Prop :=
  dropSlashes cs = []

instance (cs : List Char) : Decidable (Bare cs) :=
  inferInstanceAs (Decidable (dropSlashes cs = []))

theorem bare_iff {cs : List Char} : Bare cs ↔ ∀ c ∈ cs, c = '/' := by
  unfold Bare dropSlashes
  rw [List.dropWhile_eq_nil_iff]
  simp

theorem bare_nil : Bare [] :=
  rfl

theorem not_bare_append (xs : List Char) {ys : List Char} (h : ¬Bare ys) : ¬Bare (xs ++ ys) := by
  rw [bare_iff] at h ⊢
  intro hall
  exact h fun c hc => hall c (List.mem_append_right xs hc)

theorem not_bare_cons {c : Char} {cs : List Char} (h : ¬Bare cs) : ¬Bare (c :: cs) :=
  not_bare_append [c] h

theorem dropSlashesEnd_eq_nil {cs : List Char} : dropSlashesEnd cs = [] ↔ Bare cs := by
  rw [bare_iff, show dropSlashesEnd cs = cs.rdropWhile (· == '/') from rfl,
    List.rdropWhile_eq_nil_iff]
  simp

/-- Slashes are dropped behind the last of the other characters. -/
theorem dropSlashesEnd_append {ys : List Char} (h : ¬Bare ys) (xs : List Char) :
    dropSlashesEnd (xs ++ ys) = xs ++ dropSlashesEnd ys := by
  have hne : dropSlashes ys.reverse ≠ [] := by
    intro hnil
    exact h (dropSlashesEnd_eq_nil.1 (by rw [dropSlashesEnd, hnil, List.reverse_nil]))
  have hempty : (ys.reverse.dropWhile (· == '/')).isEmpty = false := by
    simpa [dropSlashes] using hne
  unfold dropSlashesEnd dropSlashes
  rw [List.reverse_append, List.dropWhile_append, hempty]
  simp

theorem dropSlashesEnd_below {ys : List Char} (h : ¬Bare ys) (xs : List Char) :
    dropSlashesEnd (xs ++ '/' :: ys) = xs ++ '/' :: dropSlashesEnd ys := by
  rw [dropSlashesEnd_append (not_bare_cons h)]
  exact congrArg (xs ++ ·) (dropSlashesEnd_append h ['/'])

theorem dropSlashesEnd_append_bare {ys : List Char} (h : Bare ys) (xs : List Char) :
    dropSlashesEnd (xs ++ ys) = dropSlashesEnd xs := by
  have hall : ∀ c ∈ ys.reverse, (c == '/') = true := by
    intro c hc
    rw [bare_iff.1 h c (List.mem_reverse.1 hc)]
    rfl
  unfold dropSlashesEnd dropSlashes
  rw [List.reverse_append, List.dropWhile_append_of_pos hall]

theorem dropSlashesEnd_dropSlashesEnd (cs : List Char) :
    dropSlashesEnd (dropSlashesEnd cs) = dropSlashesEnd cs :=
  List.rdropWhile_idempotent (· == '/') cs

theorem dropSlashes_of_head {cs : List Char} (h : cs.head? ≠ some '/') : dropSlashes cs = cs := by
  cases cs with
  | nil => rfl
  | cons c rest =>
    have hc : ¬c = '/' := by simpa using h
    simp [dropSlashes, hc]

theorem bare_dropSlashes {cs : List Char} : Bare (dropSlashes cs) ↔ Bare cs := by
  unfold Bare dropSlashes
  rw [List.dropWhile_idempotent]

/-- Without the slashes in front the other characters are all there. -/
theorem exists_slashes (cs : List Char) : ∃ ss, Bare ss ∧ cs = ss ++ dropSlashes cs := by
  refine ⟨cs.takeWhile (· == '/'), bare_iff.2 ?_, List.takeWhile_append_dropWhile.symm⟩
  intro c hc
  simpa using List.mem_takeWhile_imp hc

theorem not_bare_of_head {cs : List Char} (h : cs.head? ≠ some '/') (hne : cs ≠ []) : ¬Bare cs := by
  rw [Bare, dropSlashes_of_head h]
  exact hne

/-! ## One path below another -/

section Step

variable {above path : List Char}

theorem joinChars_nil : joinChars [] path = path := by
  simp [joinChars]

theorem joinChars_bare (ha : above ≠ []) (h : Bare path) : joinChars above path = above := by
  unfold joinChars
  simp only [List.isEmpty_iff, ha, ↓reduceIte]
  by_cases hp : path = []
  · rw [if_pos hp]
  · rw [if_neg hp, if_pos (show dropSlashes path = [] from h)]

theorem joinChars_nil_right : joinChars above [] = above := by
  by_cases ha : above = []
  · rw [ha, joinChars_nil]
  · exact joinChars_bare ha bare_nil

theorem joinChars_of_not_bare (ha : above ≠ []) (h : ¬Bare path) :
    joinChars above path = dropSlashesEnd above ++ '/' :: dropSlashes path := by
  have hp : path ≠ [] := by
    rintro rfl
    exact h bare_nil
  unfold joinChars
  simp only [List.isEmpty_iff, ha, hp, ↓reduceIte]
  rw [if_neg (show ¬dropSlashes path = [] from h)]

theorem pathBelow_of_head (h : path.head? = some '/') :
    pathBelow above path = '/' :: dropSlashes path := by
  rw [pathBelow, if_pos (Or.inl h)]

theorem pathBelow_of_head_ne (h : path.head? ≠ some '/') :
    pathBelow above path = dropSlashesEnd above ++ '/' :: path := by
  unfold pathBelow
  by_cases ha : above = []
  · rw [if_pos (Or.inr (by rw [ha]; rfl)), ha, dropSlashes_of_head h]
    rfl
  · rw [if_neg (by simp [h, ha])]

/-- A path that both ways of joining place alike, up to slashes at the end. With a slash in front it
must stand at the top, and there it may have only one; without a slash it must not stand there. -/
def Continues (above path : List Char) : Prop :=
  if path.head? = some '/' then
    Bare above ∧ (above = [] → Bare path ∨ path = '/' :: dropSlashes path)
  else path = [] ∨ above ≠ []

instance (above path : List Char) : Decidable (Continues above path) :=
  inferInstanceAs (Decidable (ite _ _ _))

theorem continues_of_head (h : path.head? = some '/') :
    Continues above path ↔
      Bare above ∧ (above = [] → Bare path ∨ path = '/' :: dropSlashes path) := by
  rw [Continues, if_pos h]

theorem continues_of_head_ne (h : path.head? ≠ some '/') :
    Continues above path ↔ path = [] ∨ above ≠ [] := by
  rw [Continues, if_neg h]

end Step

section Steps

variable {g r path : List Char}

/-- A path below two paths that agree up to slashes at the end, where it begins with none. -/
theorem dropSlashesEnd_step_of_head_ne (hpath : path.head? ≠ some '/') :
    dropSlashesEnd (joinChars g path) = dropSlashesEnd (pathBelow r path) ↔
      dropSlashesEnd g = dropSlashesEnd r ∧ (path = [] ∨ g ≠ []) := by
  rw [pathBelow_of_head_ne hpath]
  by_cases hp : path = []
  · have hr : dropSlashesEnd (dropSlashesEnd r ++ ['/']) = dropSlashesEnd r := by
      rw [dropSlashesEnd_append_bare (by decide), dropSlashesEnd_dropSlashesEnd]
    simp [hp, hr, joinChars_nil_right]
  have htext : ¬Bare path := not_bare_of_head hpath hp
  have hr := dropSlashesEnd_below htext (dropSlashesEnd r)
  by_cases hg : g = []
  · -- the left side begins with the path itself, the right side has a slash more
    rw [hr, hg, joinChars_nil]
    have hlength : dropSlashesEnd path ≠ dropSlashesEnd r ++ '/' :: dropSlashesEnd path := by
      intro h
      have := congrArg List.length h
      simp at this
      omega
    simp [hlength, hp]
  · have hl := dropSlashesEnd_below htext (dropSlashesEnd g)
    rw [hr, joinChars_of_not_bare hg htext, dropSlashes_of_head hpath, hl,
      List.append_left_inj]
    simp [hg]

/-! A path on top, with one slash in front, ends like the joined one just if it is joined to slashes
alone. -/

/-- A path of slashes alone on top. -/
theorem dropSlashesEnd_top_of_bare (hp : Bare path) :
    dropSlashesEnd (joinChars g path) = dropSlashesEnd ('/' :: dropSlashes path) ↔ Bare g := by
  have hr : dropSlashesEnd ('/' :: dropSlashes path) = [] := by
    rw [show dropSlashes path = [] from hp]
    rfl
  rw [hr, dropSlashesEnd_eq_nil]
  by_cases hg : g = []
  · subst hg
    rw [joinChars_nil]
    exact iff_of_true hp bare_nil
  · rw [joinChars_bare hg hp]

theorem dropSlashesEnd_top (hp : ¬Bare path) :
    dropSlashesEnd ('/' :: dropSlashes path) = ['/'] ++ dropSlashesEnd (dropSlashes path) := by
  have htext : ¬Bare (dropSlashes path) := by rwa [bare_dropSlashes]
  exact dropSlashesEnd_append htext ['/']

/-- A path on top that is joined to nothing stays as it is. -/
theorem dropSlashesEnd_top_of_nil (hp : ¬Bare path) :
    dropSlashesEnd (joinChars [] path) = dropSlashesEnd ('/' :: dropSlashes path) ↔
      path = '/' :: dropSlashes path := by
  obtain ⟨ss, -, hss⟩ := exists_slashes path
  have hl : dropSlashesEnd path = ss ++ dropSlashesEnd (dropSlashes path) := by
    have htext : ¬Bare (dropSlashes path) := by rwa [bare_dropSlashes]
    conv_lhs => rw [hss]
    exact dropSlashesEnd_append htext ss
  have hslash : path = '/' :: dropSlashes path ↔ ss = ['/'] := by
    conv_lhs => lhs; rw [hss]
    rw [← List.singleton_append, List.append_left_inj]
  rw [joinChars_nil, hl, dropSlashesEnd_top hp, List.append_left_inj, hslash]

/-- A path on top that is joined to another one. -/
theorem dropSlashesEnd_top_of_ne_nil (hg : g ≠ []) (hp : ¬Bare path) :
    dropSlashesEnd (joinChars g path) = dropSlashesEnd ('/' :: dropSlashes path) ↔ Bare g := by
  have htext : ¬Bare (dropSlashes path) := by rwa [bare_dropSlashes]
  rw [joinChars_of_not_bare hg hp, dropSlashesEnd_below htext, dropSlashesEnd_top hp,
    ← dropSlashesEnd_eq_nil]
  constructor
  · intro h
    have := congrArg List.length h
    simpa using this
  · intro h
    rw [h]
    rfl

/-- A path that begins with a slash. The navigator places it on top whatever is above. -/
theorem dropSlashesEnd_step_of_head (h : Bare g → Bare r) (hpath : path.head? = some '/') :
    dropSlashesEnd (joinChars g path) = dropSlashesEnd (pathBelow r path) ↔
      dropSlashesEnd g = dropSlashesEnd r ∧
        Bare g ∧ (g = [] → Bare path ∨ path = '/' :: dropSlashes path) := by
  have hagree : Bare g → dropSlashesEnd g = dropSlashesEnd r := by
    intro hg
    rw [dropSlashesEnd_eq_nil.2 hg, dropSlashesEnd_eq_nil.2 (h hg)]
  have htop : dropSlashesEnd (joinChars g path) = dropSlashesEnd ('/' :: dropSlashes path) ↔
      Bare g ∧ (g = [] → Bare path ∨ path = '/' :: dropSlashes path) := by
    by_cases hp : Bare path
    · rw [dropSlashesEnd_top_of_bare hp]
      exact (and_iff_left fun _ => Or.inl hp).symm
    by_cases hg : g = []
    · subst hg
      rw [dropSlashesEnd_top_of_nil hp]
      simp [hp, bare_nil]
    · rw [dropSlashesEnd_top_of_ne_nil hg hp]
      exact (and_iff_left fun hnil => absurd hnil hg).symm
  rw [pathBelow_of_head hpath, htop]
  exact ⟨fun hg => ⟨hagree hg.1, hg⟩, And.right⟩

/-- Of two paths that agree up to slashes at the end, those joined from them agree so just if the
path placed below continues them. -/
theorem dropSlashesEnd_step (h : Bare g → Bare r) :
    dropSlashesEnd (joinChars g path) = dropSlashesEnd (pathBelow r path) ↔
      dropSlashesEnd g = dropSlashesEnd r ∧ Continues g path := by
  by_cases hpath : path.head? = some '/'
  · rw [continues_of_head hpath]
    exact dropSlashesEnd_step_of_head h hpath
  · rw [continues_of_head_ne hpath]
    exact dropSlashesEnd_step_of_head_ne hpath

/-- Where templates have only slashes, so has the navigator. -/
theorem bare_step (h : Bare g → Bare r) (hb : Bare (joinChars g path)) :
    Bare (pathBelow r path) := by
  by_cases hpath : path.head? = some '/'
  · rw [pathBelow_of_head hpath]
    by_cases hp : Bare path
    · rw [show dropSlashes path = [] from hp]
      decide
    exfalso
    by_cases hg : g = []
    · rw [hg, joinChars_nil] at hb
      exact hp hb
    · rw [joinChars_of_not_bare hg hp] at hb
      exact not_bare_append _ (not_bare_cons (mt bare_dropSlashes.1 hp)) hb
  by_cases hp : path = []
  · have hg : joinChars g [] = g := joinChars_nil_right
    rw [hp, hg] at hb
    rw [pathBelow_of_head_ne hpath, hp, dropSlashesEnd_eq_nil.2 (h hb)]
    decide
  · have htext : ¬Bare path := not_bare_of_head hpath hp
    exfalso
    by_cases hg : g = []
    · rw [hg, joinChars_nil] at hb
      exact htext hb
    · rw [joinChars_of_not_bare hg htext, dropSlashes_of_head hpath] at hb
      exact not_bare_append _ (not_bare_cons htext) hb

/-- What the navigator makes of a path of slashes ends in one slash. -/
theorem pathBelow_bare (h : Bare path) :
    pathBelow r path = dropSlashesEnd (pathBelow r path) ++ ['/'] := by
  by_cases hpath : path.head? = some '/'
  · rw [pathBelow_of_head hpath, show dropSlashes path = [] from h]
    rfl
  · have hp : path = [] := by
      by_contra hp
      exact not_bare_of_head hpath hp h
    rw [pathBelow_of_head_ne hpath, hp, dropSlashesEnd_append_bare (by decide),
      dropSlashesEnd_dropSlashesEnd]

/-- Any other path that continues the one above is placed alike. -/
theorem pathBelow_eq_joinChars (h : dropSlashesEnd g = dropSlashesEnd r) (hc : Continues g path)
    (hp : ¬Bare path) : pathBelow r path = joinChars g path := by
  by_cases hpath : path.head? = some '/'
  · obtain ⟨hg, htop⟩ := (continues_of_head hpath).1 hc
    rw [pathBelow_of_head hpath]
    by_cases hnil : g = []
    · rw [hnil, joinChars_nil]
      exact ((htop hnil).resolve_left hp).symm
    · rw [joinChars_of_not_bare hnil hp, dropSlashesEnd_eq_nil.2 hg]
      rfl
  · have hne : path ≠ [] := by
      rintro rfl
      exact hp bare_nil
    have hg : g ≠ [] := ((continues_of_head_ne hpath).1 hc).resolve_left hne
    rw [pathBelow_of_head_ne hpath, joinChars_of_not_bare hg hp, dropSlashes_of_head hpath, h]

end Steps

/-! ## Lists of paths -/

/-- The template of a list of paths, each below the one before. -/
def generated (ps : List (List Char)) : List Char :=
  ps.foldl joinChars []

/-- The path that the navigator joins of a list of paths. -/
def navigated (ps : List (List Char)) : List Char :=
  ps.foldl pathBelow []

/-- Every path of a list continues the template of those before it. -/
def Aligned (ps : List (List Char)) : Prop :=
  ∀ above path, above ++ [path] <+: ps → Continues (generated above) path

theorem generated_concat (ps : List (List Char)) (path : List Char) :
    generated (ps ++ [path]) = joinChars (generated ps) path := by
  rw [generated, List.foldl_concat]
  rfl

theorem navigated_concat (ps : List (List Char)) (path : List Char) :
    navigated (ps ++ [path]) = pathBelow (navigated ps) path := by
  rw [navigated, List.foldl_concat]
  rfl

theorem aligned_nil : Aligned [] := by
  intro above path h
  exact absurd (List.prefix_nil.1 h) (by simp)

theorem aligned_concat {ps : List (List Char)} {path : List Char} :
    Aligned (ps ++ [path]) ↔ Aligned ps ∧ Continues (generated ps) path := by
  constructor
  · intro h
    exact ⟨fun above p hp => h above p (hp.trans (List.prefix_append ps [path])),
      h ps path List.prefix_rfl⟩
  · rintro ⟨hps, hpath⟩ above p hp
    rcases List.prefix_concat_iff.1 hp with heq | hp
    · obtain ⟨habove, hlast⟩ := List.append_inj' heq rfl
      rw [habove, List.singleton_inj.1 hlast]
      exact hpath
    · exact hps above p hp

theorem bare_navigated (ps : List (List Char)) (h : Bare (generated ps)) :
    Bare (navigated ps) := by
  induction ps using List.reverseRecOn with
  | nil => exact bare_nil
  | append_singleton ps path ih =>
    rw [generated_concat] at h
    rw [navigated_concat]
    exact bare_step ih h

/-- Both ways of joining agree up to slashes at the end just if every path continues the template of
those before it. -/
theorem dropSlashesEnd_generated_eq_iff (ps : List (List Char)) :
    dropSlashesEnd (generated ps) = dropSlashesEnd (navigated ps) ↔ Aligned ps := by
  induction ps using List.reverseRecOn with
  | nil => exact iff_of_true rfl aligned_nil
  | append_singleton ps path ih =>
    rw [generated_concat, navigated_concat, dropSlashesEnd_step (bare_navigated ps), ih,
      aligned_concat]

/-- Both ways of joining agree just if every path continues the template of those before it and,
where the last has no characters but slashes, the template ends in one slash. -/
theorem navigated_eq_generated_iff (ps : List (List Char)) (path : List Char) :
    navigated (ps ++ [path]) = generated (ps ++ [path]) ↔
      Aligned (ps ++ [path]) ∧
        (Bare path → generated (ps ++ [path]) =
          dropSlashesEnd (generated (ps ++ [path])) ++ ['/']) := by
  have hbare : Bare path → navigated (ps ++ [path]) =
      dropSlashesEnd (navigated (ps ++ [path])) ++ ['/'] := by
    rw [navigated_concat]
    exact pathBelow_bare
  rw [← dropSlashesEnd_generated_eq_iff]
  constructor
  · intro h
    exact ⟨by rw [h], fun hp => by rw [← h]; exact hbare hp⟩
  · rintro ⟨hends, hslash⟩
    by_cases hp : Bare path
    · rw [hbare hp, hslash hp, hends]
    · obtain ⟨hps, hc⟩ := aligned_concat.1 ((dropSlashesEnd_generated_eq_iff _).1 hends)
      rw [navigated_concat, generated_concat]
      exact pathBelow_eq_joinChars ((dropSlashesEnd_generated_eq_iff ps).2 hps) hc hp

end TypedRoutes
