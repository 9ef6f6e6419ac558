import TypedRoutes.Path.Join
import TypedRoutes.Proofs.Joining

/-!
# Laws of joining

* `TrimsEnd`, `TrimsStart` : a text without the slashes at its end, or in front;
* `joinChars_trimmed` : two texts are joined by one slash in place of those between them;
* `joinChars_assoc` : joining is associative;
* `generated_append` : a list of paths is joined of the two halves that it is cut into;
* `joinTemplates_assoc_and_trims` : templates under joining are a monoid, with one slash at a seam;
* `LedByOneSlash`, `EndedByOneSlash`, `OnlySlashes` : how a path begins and ends;
* `pathBelow_eq_joinTemplates_iff` : the pairs that the navigator joins as templates are joined.
-/

namespace TypedRoutes

open Navigation

/-! ## Slashes at the ends of a text -/

@[simp]
theorem dropSlashes_slash (cs : List Char) : dropSlashes ('/' :: cs) = dropSlashes cs := by
  simp [dropSlashes]

theorem dropSlashes_append_bare {xs : List Char} (h : Bare xs) (ys : List Char) :
    dropSlashes (xs ++ ys) = dropSlashes ys := by
  unfold dropSlashes
  apply List.dropWhile_append_of_pos
  intro c hc
  simp [bare_iff.1 h c hc]

/-- Slashes are dropped in front of the first of the other characters. -/
theorem dropSlashes_append {xs : List Char} (h : ¬Bare xs) (ys : List Char) :
    dropSlashes (xs ++ ys) = dropSlashes xs ++ ys := by
  have hne : (xs.dropWhile (· == '/')).isEmpty = false := by
    simpa [Bare, dropSlashes] using h
  unfold dropSlashes
  rw [List.dropWhile_append, hne]
  simp

theorem head?_dropSlashes (cs : List Char) : (dropSlashes cs).head? ≠ some '/' := by
  intro h
  have hhead := List.head?_dropWhile_not (· == '/') cs
  rw [show cs.dropWhile (· == '/') = dropSlashes cs from rfl, h] at hhead
  simp at hhead

theorem getLast?_dropSlashesEnd (cs : List Char) : (dropSlashesEnd cs).getLast? ≠ some '/' := by
  rw [dropSlashesEnd, List.getLast?_reverse]
  exact head?_dropSlashes cs.reverse

theorem dropSlashesEnd_of_getLast? {cs : List Char} (h : cs.getLast? ≠ some '/') :
    dropSlashesEnd cs = cs := by
  rw [dropSlashesEnd, dropSlashes_of_head, List.reverse_reverse]
  rwa [List.head?_reverse]

theorem exists_slashes_end (cs : List Char) : ∃ ss, Bare ss ∧ cs = dropSlashesEnd cs ++ ss := by
  obtain ⟨ss, hss, heq⟩ := exists_slashes cs.reverse
  refine ⟨ss.reverse, bare_iff.2 fun c hc => bare_iff.1 hss c (List.mem_reverse.1 hc), ?_⟩
  rw [dropSlashesEnd, ← List.reverse_append, ← heq, List.reverse_reverse]

theorem bare_dropSlashesEnd {cs : List Char} : Bare (dropSlashesEnd cs) ↔ Bare cs := by
  rw [← dropSlashesEnd_eq_nil, dropSlashesEnd_dropSlashesEnd, dropSlashesEnd_eq_nil]

/-- It does not matter at which end slashes are dropped first. -/
theorem dropSlashes_dropSlashesEnd {cs : List Char} (h : ¬Bare cs) :
    dropSlashes (dropSlashesEnd cs) = dropSlashesEnd (dropSlashes cs) := by
  obtain ⟨ss, -, heq⟩ := exists_slashes_end (dropSlashes cs)
  obtain ⟨ts, hts, hcs⟩ := exists_slashes cs
  have hkept : ¬Bare (dropSlashes cs) := by rwa [bare_dropSlashes]
  have hend : dropSlashesEnd cs = ts ++ dropSlashesEnd (dropSlashes cs) := by
    conv_lhs => rw [hcs]
    exact dropSlashesEnd_append hkept ts
  rw [hend, dropSlashes_append_bare hts]
  apply dropSlashes_of_head
  intro hhead
  apply head?_dropSlashes cs
  rw [heq, List.head?_append, hhead]
  rfl

/-! ## Joining -/

/-- `kept` is `text` without the slashes at its end. -/
def TrimsEnd (text kept : List Char) : Prop :=
  (∃ n, text = kept ++ List.replicate n '/') ∧ kept.getLast? ≠ some '/'

/-- `kept` is `text` without the slashes in front. -/
def TrimsStart (text kept : List Char) : Prop :=
  (∃ n, text = List.replicate n '/' ++ kept) ∧ kept.head? ≠ some '/'

theorem eq_replicate_of_bare {cs : List Char} (h : Bare cs) :
    cs = List.replicate cs.length '/' :=
  List.eq_replicate_of_mem (bare_iff.1 h)

theorem trimsEnd_dropSlashesEnd (cs : List Char) : TrimsEnd cs (dropSlashesEnd cs) := by
  obtain ⟨ss, hss, heq⟩ := exists_slashes_end cs
  refine ⟨⟨ss.length, ?_⟩, getLast?_dropSlashesEnd cs⟩
  rw [← eq_replicate_of_bare hss]
  exact heq

theorem trimsStart_dropSlashes (cs : List Char) : TrimsStart cs (dropSlashes cs) := by
  obtain ⟨ss, hss, heq⟩ := exists_slashes cs
  refine ⟨⟨ss.length, ?_⟩, head?_dropSlashes cs⟩
  rw [← eq_replicate_of_bare hss]
  exact heq

section

variable {a b c : List Char}

theorem joinChars_ne_nil (ha : a ≠ []) : joinChars a b ≠ [] := by
  by_cases hb : Bare b
  · rwa [joinChars_bare ha hb]
  · rw [joinChars_of_not_bare ha hb]
    simp

/-- Two texts are joined by one slash in place of those between them. -/
theorem joinChars_trimmed {xs ys ss ts : List Char} (hss : Bare ss) (hts : Bare ts)
    (hxs : xs.getLast? ≠ some '/') (hys : ys.head? ≠ some '/') (ha : xs ++ ss ≠ [])
    (hne : ys ≠ []) : joinChars (xs ++ ss) (ts ++ ys) = xs ++ '/' :: ys := by
  have htext : ¬Bare ys := not_bare_of_head hys hne
  rw [joinChars_of_not_bare ha (not_bare_append ts htext), dropSlashesEnd_append_bare hss,
    dropSlashesEnd_of_getLast? hxs, dropSlashes_append_bare hts, dropSlashes_of_head hys]

/-- Joining three texts with other characters in the last two puts a slash at each seam. -/
theorem joinChars_joinChars (ha : a ≠ []) (hb : ¬Bare b) (hc : ¬Bare c) :
    joinChars (joinChars a b) c =
      dropSlashesEnd a ++ '/' :: dropSlashesEnd (dropSlashes b) ++ '/' :: dropSlashes c := by
  have hkept : ¬Bare (dropSlashes b) := by rwa [bare_dropSlashes]
  rw [joinChars_of_not_bare (joinChars_ne_nil ha) hc, joinChars_of_not_bare ha hb,
    dropSlashesEnd_below hkept]

/-- Joining is associative. -/
theorem joinChars_assoc (a b c : List Char) :
    joinChars (joinChars a b) c = joinChars a (joinChars b c) := by
  by_cases ha : a = []
  · rw [ha, joinChars_nil, joinChars_nil]
  by_cases hnil : b = []
  · rw [hnil, joinChars_nil_right, joinChars_nil]
  by_cases hc : Bare c
  · -- nothing is added on either side
    rw [joinChars_bare hnil hc, joinChars_bare (joinChars_ne_nil ha) hc]
  by_cases hb : Bare b
  · -- what `b` adds to `c` are slashes in front, which do not count below `a`
    rw [joinChars_bare ha hb, joinChars_of_not_bare hnil hc, dropSlashesEnd_eq_nil.2 hb,
      List.nil_append, joinChars_of_not_bare ha hc,
      joinChars_of_not_bare ha (not_bare_cons (mt bare_dropSlashes.1 hc)), dropSlashes_slash,
      dropSlashes_of_head (head?_dropSlashes c)]
  · have hinner : ¬Bare (dropSlashesEnd b) := mt bare_dropSlashesEnd.1 hb
    have hbelow : ¬Bare (joinChars b c) := by
      rw [joinChars_of_not_bare hnil hc]
      exact not_bare_append _ (not_bare_cons (mt bare_dropSlashes.1 hc))
    rw [joinChars_joinChars ha hb hc, joinChars_of_not_bare ha hbelow,
      joinChars_of_not_bare hnil hc, dropSlashes_append hinner, dropSlashes_dropSlashesEnd hb]
    simp

end

instance : Std.Associative joinChars :=
  ⟨joinChars_assoc⟩

/-- Paths are joined of the two halves that a list of them is cut into. -/
theorem generated_append (ps qs : List (List Char)) :
    generated (ps ++ qs) = joinChars (generated ps) (generated qs) := by
  calc generated (ps ++ qs)
      = qs.foldl joinChars (joinChars (generated ps) []) := by
        rw [joinChars_nil_right]
        exact List.foldl_append
    _ = joinChars (generated ps) (generated qs) := List.foldl_assoc

/-! ## Templates -/

theorem toList_joinTemplates (a b : String) :
    (joinTemplates a b).toList = joinChars a.toList b.toList := by
  rw [joinTemplates, String.toList_ofList]

/-- Joining templates is associative, the empty template is neutral on both sides, and a template
with other characters than slashes is put behind one that is not empty with just one slash between
what is left of them when the slashes that meet there are dropped. -/
theorem joinTemplates_assoc_and_trims (a b c : String) :
    joinTemplates (joinTemplates a b) c = joinTemplates a (joinTemplates b c) ∧
      joinTemplates "" a = a ∧ joinTemplates a "" = a ∧
      (a ≠ "" → (∃ x ∈ b.toList, x ≠ '/') →
        ∃ head tail, TrimsEnd a.toList head ∧ TrimsStart b.toList tail ∧
          joinTemplates a b = String.ofList (head ++ '/' :: tail)) := by
  refine ⟨?_, ?_, ?_, ?_⟩
  · apply String.toList_inj.1
    simp only [toList_joinTemplates]
    exact joinChars_assoc a.toList b.toList c.toList
  · apply String.toList_inj.1
    rw [toList_joinTemplates]
    exact joinChars_nil
  · apply String.toList_inj.1
    rw [toList_joinTemplates]
    exact joinChars_nil_right
  · intro ha ⟨x, hx, hslash⟩
    have hne : a.toList ≠ [] := by simpa using ha
    have htext : ¬Bare b.toList := fun hb => hslash (bare_iff.1 hb x hx)
    refine ⟨_, _, trimsEnd_dropSlashesEnd a.toList, trimsStart_dropSlashes b.toList, ?_⟩
    rw [joinTemplates, joinChars_of_not_bare hne htext]

/-- Slashes on both sides of a seam. -/
theorem joinTemplates_slashed :
    "/a//" ≠ "" ∧ (∃ x ∈ "//b/".toList, x ≠ '/') ∧
      joinTemplates (joinTemplates "/a//" "//b/") "/" =
        joinTemplates "/a//" (joinTemplates "//b/" "/") ∧
      ∃ head tail, TrimsEnd "/a//".toList head ∧ TrimsStart "//b/".toList tail ∧
        joinTemplates "/a//" "//b/" = String.ofList (head ++ '/' :: tail) := by
  have ha : "/a//" ≠ "" := by decide
  have hb : ∃ x ∈ "//b/".toList, x ≠ '/' := ⟨'b', by decide, by decide⟩
  obtain ⟨hassoc, -, -, htrims⟩ := joinTemplates_assoc_and_trims "/a//" "//b/" "/"
  exact ⟨ha, hb, hassoc, htrims ha hb⟩

example : joinTemplates "/a//" "//b/" = "/a/b/" := by decide

/-! ## Templates and the navigator -/

/-- A path begins with one slash and no second. -/
def LedByOneSlash (cs : List Char) : Prop :=
  ∃ rest, cs = '/' :: rest ∧ rest.head? ≠ some '/'

/-- A path ends with one slash and no second. -/
def EndedByOneSlash (cs : List Char) : Prop :=
  ∃ rest, cs = rest ++ ['/'] ∧ rest.getLast? ≠ some '/'

/-- One slash or more, and nothing else. -/
def OnlySlashes (cs : List Char) : Prop :=
  cs ≠ [] ∧ ∀ c ∈ cs, c = '/'

theorem eq_slash_dropSlashes_iff {cs : List Char} :
    '/' :: dropSlashes cs = cs ↔ LedByOneSlash cs := by
  constructor
  · intro h
    exact ⟨dropSlashes cs, h.symm, head?_dropSlashes cs⟩
  · rintro ⟨rest, rfl, hrest⟩
    rw [dropSlashes_slash, dropSlashes_of_head hrest]

theorem eq_dropSlashesEnd_slash_iff {cs : List Char} :
    dropSlashesEnd cs ++ ['/'] = cs ↔ EndedByOneSlash cs := by
  constructor
  · intro h
    exact ⟨dropSlashesEnd cs, h.symm, getLast?_dropSlashesEnd cs⟩
  · rintro ⟨rest, rfl, hrest⟩
    rw [dropSlashesEnd_append_bare (by decide), dropSlashesEnd_of_getLast? hrest]

section

variable {p c : List Char}

theorem onlySlashes_iff : OnlySlashes p ↔ p ≠ [] ∧ Bare p := by
  rw [OnlySlashes, bare_iff]

/-- At the top the navigator puts one slash in front. -/
theorem pathBelow_nil_eq_iff : pathBelow [] c = joinChars [] c ↔ LedByOneSlash c := by
  have htop : pathBelow [] c = '/' :: dropSlashes c := by simp [pathBelow]
  rw [← eq_slash_dropSlashes_iff, joinChars_nil, htop]

/-- For an empty path the navigator puts one slash at the end. -/
theorem pathBelow_empty_eq_iff : pathBelow p [] = joinChars p [] ↔ EndedByOneSlash p := by
  rw [← eq_dropSlashesEnd_slash_iff, joinChars_nil_right, pathBelow_of_head_ne (by simp)]

/-- A path of slashes is the root for the navigator. -/
theorem pathBelow_bare_eq_iff (hp : p ≠ []) (hc : c.head? = some '/') (hbare : Bare c) :
    pathBelow p c = joinChars p c ↔ p = ['/'] := by
  rw [pathBelow_of_head hc, joinChars_bare hp hbare, show dropSlashes c = [] from hbare]
  exact eq_comm

/-- Any other path with a slash in front stands at the top for the navigator. -/
theorem pathBelow_rooted_eq_iff (hp : p ≠ []) (hc : c.head? = some '/') (htext : ¬Bare c) :
    pathBelow p c = joinChars p c ↔ Bare p := by
  rw [pathBelow_of_head hc, joinChars_of_not_bare hp htext, ← dropSlashesEnd_eq_nil]
  constructor
  · intro h
    have hlength := congrArg List.length h
    simpa using hlength
  · intro h
    rw [h]
    rfl

/-- A path without a slash in front is put below its parent by both. -/
theorem pathBelow_relative_eq (hp : p ≠ []) (hne : c ≠ []) (hc : c.head? ≠ some '/') :
    pathBelow p c = joinChars p c := by
  rw [pathBelow_of_head_ne hc, joinChars_of_not_bare hp (not_bare_of_head hc hne),
    dropSlashes_of_head hc]

theorem pathBelow_eq_joinChars_iff :
    pathBelow p c = joinChars p c ↔
      (p = [] ∧ LedByOneSlash c) ∨
      (p ≠ [] ∧ c = [] ∧ EndedByOneSlash p) ∨
      (OnlySlashes c ∧ p = ['/']) ∨
      (c.head? = some '/' ∧ (∃ x ∈ c, x ≠ '/') ∧ OnlySlashes p) ∨
      (p ≠ [] ∧ c ≠ [] ∧ c.head? ≠ some '/') := by
  have htext : (∃ x ∈ c, x ≠ '/') ↔ ¬Bare c := by simp [bare_iff]
  rw [htext, onlySlashes_iff, onlySlashes_iff]
  by_cases hp : p = []
  · subst hp
    simp [pathBelow_nil_eq_iff]
  by_cases hne : c = []
  · subst hne
    simp [pathBelow_empty_eq_iff, hp]
  by_cases hc : c.head? = some '/'
  · by_cases hbare : Bare c
    · simp [pathBelow_bare_eq_iff hp hc hbare, hp, hne, hc, hbare]
    · simp [pathBelow_rooted_eq_iff hp hc hbare, hp, hne, hc, hbare]
  · simp [pathBelow_relative_eq hp hne hc, hp, hne, hc]

end

/-- The pairs of a parent and a child that the navigator joins as templates are joined. -/
theorem pathBelow_eq_joinTemplates_iff (parent child : String) :
    String.ofList (pathBelow parent.toList child.toList) = joinTemplates parent child ↔
      (parent = "" ∧ LedByOneSlash child.toList) ∨
      (parent ≠ "" ∧ child = "" ∧ EndedByOneSlash parent.toList) ∨
      (OnlySlashes child.toList ∧ parent = "/") ∨
      (child.toList.head? = some '/' ∧ (∃ x ∈ child.toList, x ≠ '/') ∧
        OnlySlashes parent.toList) ∨
      (parent ≠ "" ∧ child ≠ "" ∧ child.toList.head? ≠ some '/') := by
  have hparent : parent = "" ↔ parent.toList = [] := String.toList_eq_nil_iff.symm
  have hchild : child = "" ↔ child.toList = [] := String.toList_eq_nil_iff.symm
  have hroot : parent = "/" ↔ parent.toList = ['/'] := String.toList_inj.symm
  rw [joinTemplates, String.ofList_inj, pathBelow_eq_joinChars_iff]
  simp only [ne_eq, hparent, hchild, hroot]

end TypedRoutes
