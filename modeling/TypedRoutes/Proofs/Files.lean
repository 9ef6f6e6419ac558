import Mathlib.Data.List.DropRight
import TypedRoutes.Command.Disk
import TypedRoutes.Proofs.QueryKey

/-!
# Replacing files

* `pathPieces_ofPieces` : the pieces of a path that is put together from pieces;
* `Files.follow_append` : pieces are followed one part after the other;
* `Files.replace_eq_ok` : what is known of a path at which a file was put;
* `Files.find?_of_directoryOf` : a path leads into the directory around it;
* `Files.read?_replace` : what is read after a file was put: its text from there, and from elsewhere
  what was read before.
-/

namespace TypedRoutes.Command

/-! ## Pieces -/

theorem pathPieces_ne_nil (path : String) : pathPieces path ≠ [] := by
  simp [pathPieces, List.splitOnP_ne_nil]

theorem slash_not_mem {path p : String} (h : p ∈ pathPieces path) : '/' ∉ p.toList := by
  obtain ⟨cs, hcs, rfl⟩ := List.mem_map.1 h
  rw [String.toList_ofList]
  intro hslash
  simpa using Text.Words.forall_mem_splitOnP path.toList cs hcs '/' hslash

/-- The pieces of a path that is put together from pieces. -/
theorem pathPieces_ofPieces {ps : List String} (h : ∀ p ∈ ps, '/' ∉ p.toList) (hne : ps ≠ []) :
    pathPieces (ofPieces ps) = ps := by
  have hslash : ∀ l ∈ ps.map String.toList, '/' ∉ l := List.forall_mem_map.2 h
  have hsplit := List.splitOn_intercalate '/' hslash (by simpa using hne)
  have htext : (ofPieces ps).toList = ['/'].intercalate (ps.map String.toList) := by
    rw [ofPieces, String.toList_intercalate]
    rfl
  rw [List.splitOn] at hsplit
  rw [pathPieces, htext, hsplit, List.map_map]
  exact (List.map_congr_left fun p _ => String.ofList_toList).trans (List.map_id ps)

theorem pathPieces_slash (path : String) : pathPieces ("/" ++ path) = "" :: pathPieces path := by
  have hsplit : (('/' :: path.toList).splitOnP (· == '/')) =
      [] :: path.toList.splitOnP (· == '/') := by
    rw [List.splitOnP_cons_eq_if_modifyHead, if_pos (beq_self_eq_true '/')]
  unfold pathPieces
  rw [String.toList_append]
  exact congrArg (List.map String.ofList) hsplit

/-! ## Idle pieces -/

/-- The pieces at the end that lead nowhere. -/
theorem exists_idle (ps : List String) :
    ∃ idle, ps = dropIdle ps ++ idle ∧ ∀ p ∈ idle, isIdle p = true :=
  ⟨ps.rtakeWhile isIdle, List.rdropWhile_append_rtakeWhile.symm, fun _ => List.mem_rtakeWhile_imp⟩

theorem dropIdle_concat {p : String} (ps : List String) (h : isIdle p = false) :
    dropIdle (ps ++ [p]) = ps ++ [p] :=
  List.rdropWhile_concat_neg _ _ _ (by simp [h])

/-- The directory around a path that ends with a name. -/
theorem parent?_concat {path head name : String} {more : List String}
    (h : pathPieces path = head :: (more ++ [name])) (hname : isIdle name = false) :
    parent? path =
      if head = "" then some ("/" ++ ofPieces (dropIdle more))
      else some (ofPieces (head :: dropIdle more)) := by
  have hlast : dropLast (more ++ [name]) = dropIdle more := by
    rw [dropLast, dropIdle_concat more hname, List.dropLast_concat]
  have hne : (dropIdle (more ++ [name])).isEmpty = false := by
    simp [dropIdle_concat more hname]
  simp only [parent?, h, hne, hlast]
  rfl

theorem directoryOf_of_parent {path directory : String} (h : parent? path = some directory)
    (hne : directory ≠ "") : directoryOf path = directory := by
  unfold directoryOf
  rw [h]
  split
  · next heq => cases heq
  · next heq => exact absurd (Option.some.inj heq) hne
  · next heq => exact (Option.some.inj heq).symm

theorem pathPieces_directoryOf {path head name : String} {more : List String}
    (h : pathPieces path = head :: (more ++ [name])) (hname : isIdle name = false)
    (hhead : head ≠ "") : pathPieces (directoryOf path) = head :: dropIdle more := by
  have hslash : ∀ p ∈ head :: dropIdle more, '/' ∉ p.toList := by
    refine fun p hp => slash_not_mem (h ▸ ?_ : p ∈ pathPieces path)
    refine List.cons_subset_cons head (fun q hq => ?_) hp
    exact List.mem_append_left _ ((List.rdropWhile_prefix isIdle more).subset hq)
  have hpieces := pathPieces_ofPieces hslash (List.cons_ne_nil _ _)
  have hne : ofPieces (head :: dropIdle more) ≠ "" := by
    intro hempty
    rw [hempty] at hpieces
    exact hhead (List.cons.inj hpieces).1.symm
  rw [directoryOf_of_parent ((parent?_concat h hname).trans (if_neg hhead)) hne, hpieces]

/-- The directory around a path from the root has such a path, too. -/
theorem pathPieces_directoryOf_root {path name : String} {more : List String}
    (h : pathPieces path = "" :: (more ++ [name])) (hname : isIdle name = false) :
    ∃ rest, pathPieces (directoryOf path) = "" :: rest := by
  have hpieces := pathPieces_slash (ofPieces (dropIdle more))
  have hne : "/" ++ ofPieces (dropIdle more) ≠ "" := by
    intro hempty
    rw [hempty] at hpieces
    exact pathPieces_ne_nil _ (List.cons.inj hpieces).2.symm
  rw [directoryOf_of_parent ((parent?_concat h hname).trans (if_pos rfl)) hne]
  exact ⟨_, hpieces⟩

namespace Files

variable {fs fs' : Files} {place dir : List String} {path text name : String}

/-! ## Directories -/

theorem isDirectory_iff : fs.isDirectory place = true ↔
    isOuter place = true ∨ ∃ e ∈ fs.entries, place <+: e.1 ∧ place.length < e.1.length := by
  simp [isDirectory]

theorem isOuter_of_leads {q : List String} (h : isOuter place = true) (hq : q <+: place) :
    isOuter q = true := by
  simp only [isOuter, List.all_eq_true] at h ⊢
  exact fun p hp => h p (hq.subset hp)

/-- What leads to a directory is a directory. -/
theorem isDirectory_of_leads {q : List String} (h : fs.isDirectory place = true)
    (hq : q <+: place) : fs.isDirectory q = true := by
  rw [isDirectory_iff] at h ⊢
  rcases h with houter | ⟨e, he, hplace, hlength⟩
  · exact .inl (isOuter_of_leads houter hq)
  · exact .inr ⟨e, he, hq.trans hplace, Nat.lt_of_le_of_lt hq.length_le hlength⟩

theorem mem_put {e : List String × String} :
    e ∈ (fs.put place text).entries ↔ e = (place, text) ∨ e ∈ fs.entries ∧ e.1 ≠ place := by
  simp [put]

/-- A file that is put in a directory makes no new directories, nor does it remove any. -/
theorem isDirectory_put (h : fs.isDirectory dir = true) (q : List String) :
    (fs.put (dir ++ [name]) text).isDirectory q = fs.isDirectory q := by
  rw [Bool.eq_iff_iff]
  constructor
  · intro hq
    rcases isDirectory_iff.1 hq with houter | ⟨e, he, hprefix, hlength⟩
    · exact isDirectory_iff.2 (.inl houter)
    rcases mem_put.1 he with rfl | ⟨he, -⟩
    · rcases List.prefix_concat_iff.1 hprefix with rfl | hprefix
      · exact absurd hlength (Nat.lt_irrefl _)
      · exact isDirectory_of_leads h hprefix
    · exact isDirectory_iff.2 (.inr ⟨e, he, hprefix, hlength⟩)
  · intro hq
    refine isDirectory_iff.2 ?_
    rcases isDirectory_iff.1 hq with houter | ⟨e, he, hprefix, hlength⟩
    · exact .inl houter
    by_cases heq : e.1 = dir ++ [name]
    · exact .inr ⟨(dir ++ [name], text), mem_put.2 (.inl rfl), heq ▸ hprefix, heq ▸ hlength⟩
    · exact .inr ⟨e, mem_put.2 (.inr ⟨he, heq⟩), hprefix, hlength⟩

/-! ## Following pieces -/

theorem follow_append (fs : Files) (place ps qs : List String) :
    fs.follow place (ps ++ qs) = (fs.follow place ps).bind (fs.follow · qs) := by
  induction ps generalizing place with
  | nil => rfl
  | cons p ps ih =>
    simp only [List.cons_append, follow]
    split_ifs <;> first | rfl | exact ih _

theorem follow_idle {idle : List String} (h : fs.isDirectory place = true)
    (hidle : ∀ p ∈ idle, isIdle p = true) : fs.follow place idle = some place := by
  induction idle with
  | nil => rfl
  | cons p idle ih =>
    have ⟨hp, hrest⟩ := List.forall_mem_cons.1 hidle
    simp only [follow, h, hp, Bool.not_true, Bool.false_eq_true, if_false, if_true]
    exact ih hrest

theorem follow_name (h : fs.isDirectory place = true) (hname : isIdle name = false)
    (hup : name ≠ "..") : fs.follow place [name] = some (place ++ [name]) := by
  simp [follow, h, hname, hup]

/-- Where pieces lead depends on the directories only. -/
theorem follow_congr (h : ∀ q, fs'.isDirectory q = fs.isDirectory q) (place ps : List String) :
    fs'.follow place ps = fs.follow place ps := by
  induction ps generalizing place with
  | nil => rfl
  | cons p ps ih => simp only [follow, h, ih]

theorem find?_congr (h : ∀ q, fs'.isDirectory q = fs.isDirectory q) (path : String) :
    fs'.find? path = fs.find? path := by
  simp only [find?, follow_congr h]

/-! ## Paths -/

theorem find?_of_head {head : String} {rest : List String} (h : pathPieces path = head :: rest)
    (hhead : head ≠ "") : fs.find? path = fs.follow [] (head :: rest) := by
  unfold find?
  rw [h]
  split
  · next heq => cases heq
  · next heq => exact absurd (List.cons.inj heq).1 hhead
  · rfl

theorem find?_of_slash {rest : List String} (h : pathPieces path = "" :: rest) :
    fs.find? path = none := by
  unfold find?
  rw [h]
  rfl

/-- A path that ends with a name leads into the directory around it. -/
theorem find?_of_directoryOf {init : List String} (h : pathPieces path = init ++ [name])
    (hname : isIdle name = false) (hup : name ≠ "..") (hdir : fs.find? (directoryOf path) = some dir)
    (hdirectory : fs.isDirectory dir = true) : fs.find? path = some (dir ++ [name]) := by
  have hne : name ≠ "" := by
    rintro rfl
    cases hname
  cases init with
  | nil =>
    have hparent : parent? path = some "" := by simp [parent?, h, dropIdle, hne]
    have hdot : directoryOf path = "." := by rw [directoryOf, hparent]; rfl
    have houter : fs.find? "." = some [] := rfl
    rw [hdot, houter, Option.some_inj] at hdir
    subst hdir
    rw [find?_of_head h hne]
    exact follow_name hdirectory hname hup
  | cons head more =>
    by_cases hhead : head = ""
    · -- A path from the root leads nowhere, nor does the directory around it.
      subst hhead
      obtain ⟨rest, hrest⟩ := pathPieces_directoryOf_root h hname
      rw [find?_of_slash hrest] at hdir
      cases hdir
    · obtain ⟨idle, hmore, hidle⟩ := exists_idle more
      rw [find?_of_head (pathPieces_directoryOf h hname hhead) hhead] at hdir
      have hsplit : head :: (more ++ [name]) = (head :: dropIdle more) ++ (idle ++ [name]) := by
        rw [List.cons_append, ← List.append_assoc, ← hmore]
      rw [find?_of_head h hhead, List.append_eq, hsplit, follow_append, hdir, Option.bind_some,
        follow_append, follow_idle hdirectory hidle]
      exact follow_name hdirectory hname hup

/-! ## Replacing -/

theorem lookup_filter_ne {q : List String} (hq : q ≠ place) (es : List (List String × String)) :
    (es.filter fun (ps, _) => ps ≠ place).lookup q = es.lookup q := by
  induction es with
  | nil => rfl
  | cons e es ih =>
    by_cases he : e.1 = place
    · have hskip : (q == e.1) = false := beq_false_of_ne (he ▸ hq)
      rw [List.filter_cons_of_neg (by simpa using he), List.lookup_cons, hskip, ih]
    · rw [List.filter_cons_of_pos (by simpa using he), List.lookup_cons, List.lookup_cons, ih]

theorem lookup_put_of_ne {q : List String} (hq : q ≠ place) :
    (fs.put place text).entries.lookup q = fs.entries.lookup q := by
  rw [put, List.lookup_cons, beq_false_of_ne hq]
  exact lookup_filter_ne hq fs.entries

theorem move_eq_ok (h : fs.move dir path text = .ok fs') : ∃ init name,
    pathPieces path = init ++ [name] ∧ isIdle name = false ∧ name ≠ ".." ∧
      fs' = fs.put (dir ++ [name]) text := by
  unfold move at h
  split at h
  · cases h
  · cases h
  · cases h
  · next name hup hdot hname =>
    dsimp only at h
    split_ifs at h with hslash
    cases h
    obtain ⟨init, last, hpieces⟩ : ∃ init last, pathPieces path = init ++ [last] :=
      ⟨_, _, (List.dropLast_append_getLast (pathPieces_ne_nil path)).symm⟩
    have hne : last ≠ "" := by
      rintro rfl
      exact hslash (by rw [hpieces, List.getLast?_concat])
    rw [hpieces, List.filter_append, List.filter_cons_of_pos (by simpa using hne),
      List.filter_nil, List.getLast?_concat] at hname
    have hlast : last = name := Option.some.inj hname
    subst hlast
    exact ⟨init, last, hpieces, by simpa [isIdle, hne] using hdot, hup, rfl⟩

/-- A file is put under a name into a directory that is there. -/
theorem replace_eq_ok (h : fs.replace path text = .ok fs') : ∃ init name dir,
    pathPieces path = init ++ [name] ∧ isIdle name = false ∧ name ≠ ".." ∧
      fs.find? (directoryOf path) = some dir ∧ fs.isDirectory dir = true ∧
      fs' = fs.put (dir ++ [name]) text := by
  unfold replace at h
  cases hdir : fs.find? (directoryOf path) with
  | none =>
    rw [hdir] at h
    cases h
  | some dir =>
    simp only [hdir] at h
    split_ifs at h with hdirectory
    cases hmove : fs.move dir path text with
    | error e =>
      rw [hmove] at h
      cases h
    | ok fs₁ =>
      rw [hmove] at h
      cases h
      obtain ⟨init, name, hpieces, hname, hup, rfl⟩ := move_eq_ok hmove
      exact ⟨init, name, dir, hpieces, hname, hup, rfl, by simpa using hdirectory, rfl⟩

/-- What is read after a file was put: its text from there, and from elsewhere what was read
before. -/
theorem read?_replace (h : fs.replace path text = .ok fs') (other : String) :
    fs'.read? other =
      if fs.find? other = fs.find? path then some text else fs.read? other := by
  obtain ⟨init, name, dir, hpieces, hname, hup, hdir, hdirectory, rfl⟩ := replace_eq_ok h
  have hpath := find?_of_directoryOf hpieces hname hup hdir hdirectory
  unfold read?
  rw [hpath, find?_congr (isDirectory_put hdirectory)]
  cases hother : fs.find? other with
  | none => rfl
  | some place =>
    by_cases hplace : place = dir ++ [name]
    · rw [hplace, if_pos rfl]
      exact lookup_put_self fs _ text
    · rw [if_neg fun heq => hplace (Option.some.inj heq)]
      exact lookup_put_of_ne hplace

/-- A file that was put is read back. -/
theorem read?_replace_self (h : fs.replace path text = .ok fs') : fs'.read? path = some text := by
  rw [read?_replace h, if_pos rfl]

end Files

end TypedRoutes.Command
