import TypedRoutes.Proofs.Continuation
import TypedRoutes.Proofs.JoinLaws
import TypedRoutes.Proofs.Substitution

/-!
# Joined templates

* `parameters` : the parameters of a template with their constraints;
* `Fits` : texts for parameters, with characters and without slashes;
* `scan_front`, `scan_back` : reading a text with slashes at one of its ends;
* `Joins` : what the pieces of a joined text have of the pieces of its two sides;
* `Seam` : two texts that meet at a slash;
* `joins_of_scan`, `exists_scan_joinChars` : when a joined text is read, and as what;
* `parse_joinTemplates` : reading and substituting go through joining.
-/

namespace TypedRoutes

namespace PathTemplate

/-! ## Parameters -/

/-- The parameters of some pieces. -/
def parametersOf (ps : List Piece) : List Segment :=
  (ps.map Piece.segment).filter fun a => a.name?.isSome

/-- The parameters with their constraints in template order. -/
def parameters (t : PathTemplate) : List Segment :=
  t.segments.filter fun a => a.name?.isSome

theorem parametersOf_eq_flatMap (ps : List Piece) :
    parametersOf ps = ps.flatMap fun p => [p.segment].filter fun a => a.name?.isSome := by
  induction ps with
  | nil => rfl
  | cons p ps ih =>
    rw [List.flatMap_cons, ← ih, parametersOf, List.map_cons, ← List.singleton_append,
      List.filter_append]
    rfl

theorem parametersOf_glue (ps qs : List Piece) :
    parametersOf (glue ps qs) = parametersOf ps ++ parametersOf qs := by
  simp only [parametersOf_eq_flatMap]
  apply flatMap_glue
  intro xs ys
  rfl

@[simp]
theorem parametersOf_textBefore (lit : List Char) : parametersOf (textBefore lit) = [] := by
  cases lit <;> rfl

/-! ## Values -/

/-- A piece with texts for parameters. -/
def Piece.filled (value : String → List Char) : Piece → List Char
  | .text cs => cs
  | .param name _ => value (String.ofList name)

theorem written_segments (value : String → List Char) (ps : List Piece) :
    written value (ps.map Piece.segment) = ps.flatMap (Piece.filled value) := by
  induction ps with
  | nil => rfl
  | cons p ps ih => cases p <;> simp [Piece.segment, written, Piece.filled, ih]

theorem filled_glue (value : String → List Char) (ps qs : List Piece) :
    (glue ps qs).flatMap (Piece.filled value) =
      ps.flatMap (Piece.filled value) ++ qs.flatMap (Piece.filled value) := by
  apply flatMap_glue
  intro xs ys
  rfl

@[simp]
theorem filled_textBefore (value : String → List Char) (lit : List Char) :
    (textBefore lit).flatMap (Piece.filled value) = lit.reverse := by
  cases lit <;> simp [textBefore, Piece.filled]

/-- The texts for some names have characters and no slash. -/
def Fits (value : String → List Char) (names : List (List Char)) : Prop :=
  ∀ n ∈ names, value (String.ofList n) ≠ [] ∧ '/' ∉ value (String.ofList n)

section

variable {value : String → List Char} {seen : List (List Char)} {ps : List Piece} {p : Piece}

theorem written_ne_nil (hvalid : p.segment.Valid) : p.written ≠ [] := by
  cases p with
  | text cs =>
    have hcs : cs ≠ [] ∧ ':' ∉ cs := by simpa [Piece.segment, Segment.Valid] using hvalid
    exact hcs.1
  | param name k => simp [Piece.written]

theorem filled_ne_nil (hvalid : p.segment.Valid) (hfits : Fits value p.name?.toList) :
    p.filled value ≠ [] := by
  cases p with
  | text cs => exact written_ne_nil hvalid
  | param name k => exact (hfits name (by simp [Piece.name?])).1

/-- A piece ends in a slash only where it is written so. -/
theorem getLast?_filled (hfits : Fits value p.name?.toList)
    (h : p.written.getLast? ≠ some '/') : (p.filled value).getLast? ≠ some '/' := by
  cases p with
  | text cs => exact h
  | param name k =>
    intro hlast
    exact (hfits name (by simp [Piece.name?])).2 (List.mem_of_getLast? hlast)

/-- A piece begins with a slash only where it is written so. -/
theorem head?_filled (hfits : Fits value p.name?.toList) (h : p.written.head? ≠ some '/') :
    (p.filled value).head? ≠ some '/' := by
  cases p with
  | text cs => exact h
  | param name k =>
    intro hhead
    exact (hfits name (by simp [Piece.name?])).2 (List.mem_of_mem_head? hhead)

theorem Fits.mono {names names' : List (List Char)} (h : Fits value names')
    (hsub : names ⊆ names') : Fits value names :=
  fun n hn => h n (hsub hn)

theorem name?_subset_boundNames (hp : p ∈ ps) : p.name?.toList ⊆ boundNames ps := by
  intro n hn
  rw [boundNames_eq_flatMap]
  exact List.mem_flatMap.2 ⟨p, hp, hn⟩

theorem segment_valid (hread : Readable seen ps) (hp : p ∈ ps) : p.segment.Valid :=
  hread.canonical.valid _ (List.mem_map_of_mem hp)

theorem flatMap_filled_ne_nil (hread : Readable seen ps) (hfits : Fits value (boundNames ps))
    (hne : ps ≠ []) : ps.flatMap (Piece.filled value) ≠ [] := by
  obtain ⟨p, ps, rfl⟩ := List.exists_cons_of_ne_nil hne
  have hp := filled_ne_nil (segment_valid hread List.mem_cons_self)
    (hfits.mono (name?_subset_boundNames List.mem_cons_self))
  simp [hp]

theorem getLast?_flatMap_filled (hread : Readable seen ps) (hfits : Fits value (boundNames ps))
    (h : (ps.flatMap Piece.written).getLast? ≠ some '/') :
    (ps.flatMap (Piece.filled value)).getLast? ≠ some '/' := by
  cases ps using List.reverseRecOn with
  | nil => simp
  | append_singleton ps p =>
    have hp : p ∈ ps ++ [p] := by simp
    have hvalid := segment_valid hread hp
    have hfit := hfits.mono (name?_subset_boundNames hp)
    rw [List.flatMap_append, List.flatMap_singleton] at h ⊢
    rw [List.getLast?_append_of_ne_nil _ (written_ne_nil hvalid)] at h
    rw [List.getLast?_append_of_ne_nil _ (filled_ne_nil hvalid hfit)]
    exact getLast?_filled hfit h

theorem head?_flatMap_filled (hread : Readable seen ps) (hfits : Fits value (boundNames ps))
    (h : (ps.flatMap Piece.written).head? ≠ some '/') :
    (ps.flatMap (Piece.filled value)).head? ≠ some '/' := by
  cases ps with
  | nil => simp
  | cons p ps =>
    have hvalid := segment_valid hread List.mem_cons_self
    have hfit := hfits.mono (name?_subset_boundNames List.mem_cons_self)
    rw [List.flatMap_cons] at h ⊢
    rw [List.head?_append_of_ne_nil _ (written_ne_nil hvalid)] at h
    rw [List.head?_append_of_ne_nil _ (filled_ne_nil hvalid hfit)]
    exact head?_filled hfit h

end

/-! ## Slashes at the ends of a text -/

theorem bare_reverse {cs : List Char} (h : Bare cs) : Bare cs.reverse :=
  bare_iff.2 fun c hc => bare_iff.1 h c (List.mem_reverse.1 hc)

theorem colon_notMem_of_bare {cs : List Char} (h : Bare cs) : ':' ∉ cs :=
  fun hmem => absurd (bare_iff.1 h _ hmem) (by decide)

theorem scan_bare {ss : List Char} (h : Bare ss) (seen : List (List Char)) :
    scan [] seen ss = .ok (textBefore ss.reverse) :=
  scan_unmarked (colon_notMem_of_bare h) seen

/-- A text that is read is read without the slashes at its end. -/
theorem scan_front {p : List Char} {ps : List Piece} (h : scan [] [] p = .ok ps) :
    ∃ front ss, scan [] [] (dropSlashesEnd p) = .ok front ∧ Bare ss ∧
      ps = glue front (textBefore ss) := by
  obtain ⟨ss, hss, hp⟩ := exists_slashes_end p
  rw [hp] at h
  obtain ⟨front, hfront⟩ := scan_of_append_bare hss h
  have hread := scan_append hfront (stops_of_bare hss)
  rw [h, scan_bare hss] at hread
  exact ⟨front, ss.reverse, hfront, bare_reverse hss, Except.ok.inj hread⟩

/-- Slashes in front are put in front of what is read behind them. -/
theorem scan_back (c : List Char) :
    ∃ ts, Bare ts ∧
      ∀ seen, scan [] seen c = glue (textBefore ts) <$> scan [] seen (dropSlashes c) := by
  obtain ⟨ts, hts, hc⟩ := exists_slashes c
  refine ⟨ts.reverse, bare_reverse hts, fun seen => ?_⟩
  have hscan := scan_append_text (colon_notMem_of_bare hts) [] seen (dropSlashes c)
  rw [← hc, List.append_nil] at hscan
  rw [hscan]
  exact scan_eq_glue ts.reverse seen (dropSlashes c)

/-! ## Joined texts -/

/-- The pieces of a joined text have the parameters of both sides, and texts that are filled in are
joined. -/
structure Joins (ps cs js : List Piece) : Prop where
  names : boundNames js = boundNames ps ++ boundNames cs
  parameters : parametersOf js = parametersOf ps ++ parametersOf cs
  filled : ∀ value, Fits value (boundNames js) →
    js.flatMap (Piece.filled value) =
      joinChars (ps.flatMap (Piece.filled value)) (cs.flatMap (Piece.filled value))

/-- Two texts that meet at a slash, with their pieces. `front` and `back` are what is read of them
without the slashes that stand there. -/
structure Seam (p c : List Char) (ps cs js front back : List Piece) : Prop where
  readFront : scan [] [] (dropSlashesEnd p) = .ok front
  readBack : scan [] [] (dropSlashes c) = .ok back
  left : ∃ ss, Bare ss ∧ ps = glue front (textBefore ss)
  right : ∃ ts, Bare ts ∧ cs = glue (textBefore ts) back
  joined : js = glue front (glue (textBefore ['/']) back)

section

variable {p c : List Char} {ps cs js front back : List Piece}

theorem Seam.boundNames_front (h : Seam p c ps cs js front back) :
    boundNames front = boundNames ps := by
  obtain ⟨ss, -, rfl⟩ := h.left
  rw [boundNames_glue, boundNames_textBefore, List.append_nil]

theorem Seam.boundNames_back (h : Seam p c ps cs js front back) :
    boundNames back = boundNames cs := by
  obtain ⟨ts, -, rfl⟩ := h.right
  rw [boundNames_glue, boundNames_textBefore, List.nil_append]

theorem Seam.boundNames_joined (h : Seam p c ps cs js front back) :
    boundNames js = boundNames ps ++ boundNames cs := by
  rw [h.joined, boundNames_glue, boundNames_glue, boundNames_textBefore, List.nil_append,
    h.boundNames_front, h.boundNames_back]

theorem Seam.parametersOf_joined (h : Seam p c ps cs js front back) :
    parametersOf js = parametersOf ps ++ parametersOf cs := by
  obtain ⟨ss, -, rfl⟩ := h.left
  obtain ⟨ts, -, rfl⟩ := h.right
  simp [h.joined, parametersOf_glue]

theorem Seam.filled_joined (h : Seam p c ps cs js front back) (hps : ps ≠ []) (hc : ¬Bare c)
    {value : String → List Char} (hfits : Fits value (boundNames js)) :
    js.flatMap (Piece.filled value) =
      joinChars (ps.flatMap (Piece.filled value)) (cs.flatMap (Piece.filled value)) := by
  rw [h.boundNames_joined, ← h.boundNames_front, ← h.boundNames_back] at hfits
  have hfitsFront : Fits value (boundNames front) := hfits.mono (List.subset_append_left _ _)
  have hfitsBack : Fits value (boundNames back) := hfits.mono (List.subset_append_right _ _)
  obtain ⟨hfrontWritten, hfront⟩ := scan_ok_iff.1 h.readFront
  obtain ⟨hbackWritten, hback⟩ := scan_ok_iff.1 h.readBack
  have hlast : (front.flatMap (Piece.filled value)).getLast? ≠ some '/' := by
    apply getLast?_flatMap_filled hfront hfitsFront
    rw [hfrontWritten]
    exact getLast?_dropSlashesEnd p
  have hhead : (back.flatMap (Piece.filled value)).head? ≠ some '/' := by
    apply head?_flatMap_filled hback hfitsBack
    rw [hbackWritten]
    exact head?_dropSlashes c
  have hne : back.flatMap (Piece.filled value) ≠ [] := by
    apply flatMap_filled_ne_nil hback hfitsBack
    rintro rfl
    exact hc hbackWritten.symm
  obtain ⟨ss, hss, rfl⟩ := h.left
  obtain ⟨ts, hts, rfl⟩ := h.right
  have hparent : front.flatMap (Piece.filled value) ++ ss.reverse ≠ [] := by
    by_cases hnil : front = []
    · subst hnil
      cases ss with
      | nil => exact absurd rfl hps
      | cons c ss => simp
    · exact List.append_ne_nil_of_left_ne_nil (flatMap_filled_ne_nil hfront hfitsFront hnil) _
  rw [h.joined]
  simp only [filled_glue, filled_textBefore]
  rw [joinChars_trimmed (bare_reverse hss) (bare_reverse hts) hlast hhead hparent hne]
  rfl

theorem Seam.joins (h : Seam p c ps cs js front back) (hps : ps ≠ []) (hc : ¬Bare c) :
    Joins ps cs js :=
  ⟨h.boundNames_joined, h.parametersOf_joined, fun _ => h.filled_joined hps hc⟩

/-- What is read of a joined text with a seam. -/
theorem scan_joinChars (hfront : scan [] [] (dropSlashesEnd p) = .ok front) (hp : p ≠ [])
    (hc : ¬Bare c) :
    scan [] [] (joinChars p c) = (fun back => glue front (glue (textBefore ['/']) back)) <$>
      scan [] (boundNames front).reverse (dropSlashes c) := by
  have hslash : scan [] (boundNames front).reverse ('/' :: dropSlashes c) =
      glue (textBefore ['/']) <$> scan [] (boundNames front).reverse (dropSlashes c) := by
    rw [scan, if_neg (by decide)]
    exact scan_eq_glue ['/'] _ _
  rw [joinChars_of_not_bare hp hc, scan_append hfront (stops_slash _), List.append_nil, hslash]
  cases scan [] (boundNames front).reverse (dropSlashes c) <;> rfl

theorem joins_nil (ps : List Piece) : Joins [] ps ps :=
  ⟨rfl, rfl, fun _ _ => joinChars_nil.symm⟩

theorem joins_bare (hread : Readable [] ps) (hps : ps ≠ []) (hc : Bare c) :
    Joins ps (textBefore c.reverse) ps := by
  refine ⟨by simp, by simp, fun value hfits => ?_⟩
  rw [filled_textBefore, List.reverse_reverse,
    joinChars_bare (flatMap_filled_ne_nil hread hfits hps) hc]

/-- The second side of a joined text that is read is read too, and binds other names. -/
theorem joins_of_scan (h : scan [] [] p = .ok ps) (hjoined : scan [] [] (joinChars p c) = .ok js) :
    ∃ cs, scan [] [] c = .ok cs ∧ (∀ n ∈ boundNames cs, n ∉ boundNames ps) ∧ Joins ps cs js := by
  by_cases hp : p = []
  · subst hp
    rw [scan.eq_1] at h
    cases h
    rw [joinChars_nil] at hjoined
    exact ⟨js, hjoined, by simp [boundNames], joins_nil js⟩
  obtain ⟨hwritten, hread⟩ := scan_ok_iff.1 h
  have hps : ps ≠ [] := by
    rintro rfl
    exact hp hwritten.symm
  by_cases hc : Bare c
  · rw [joinChars_bare hp hc, h] at hjoined
    cases hjoined
    exact ⟨_, scan_bare hc [], by simp, joins_bare hread hps hc⟩
  obtain ⟨front, ss, hfront, hss, hleft⟩ := scan_front h
  obtain ⟨ts, hts, hback⟩ := scan_back c
  rw [scan_joinChars hfront hp hc] at hjoined
  obtain ⟨back, hscan, hjs⟩ := map_eq_ok.1 hjoined
  obtain ⟨hscan, hfresh⟩ := scan_nil_iff.1 hscan
  have hright : scan [] [] c = .ok (glue (textBefore ts) back) := by
    rw [hback, hscan]
    rfl
  have seam : Seam p c ps (glue (textBefore ts) back) js front back :=
    ⟨hfront, hscan, ⟨ss, hss, hleft⟩, ⟨ts, hts, rfl⟩, hjs.symm⟩
  refine ⟨_, hright, ?_, seam.joins hps hc⟩
  rw [← seam.boundNames_back, ← seam.boundNames_front]
  simpa using hfresh

/-- Two texts that are read and bind different names are read where they are joined. -/
theorem exists_scan_joinChars (h : scan [] [] p = .ok ps) (hc : scan [] [] c = .ok cs)
    (hfresh : ∀ n ∈ boundNames cs, n ∉ boundNames ps) :
    ∃ js, scan [] [] (joinChars p c) = .ok js := by
  by_cases hp : p = []
  · exact ⟨cs, by rw [hp, joinChars_nil, hc]⟩
  by_cases hbare : Bare c
  · exact ⟨ps, by rw [joinChars_bare hp hbare, h]⟩
  obtain ⟨front, ss, hfront, hss, hleft⟩ := scan_front h
  obtain ⟨ts, hts, hback⟩ := scan_back c
  rw [hback] at hc
  obtain ⟨back, hscan, hright⟩ := map_eq_ok.1 hc
  have seam : Seam p c ps cs (glue front (glue (textBefore ['/']) back)) front back :=
    ⟨hfront, hscan, ⟨ss, hss, hleft⟩, ⟨ts, hts, hright.symm⟩, rfl⟩
  have hreads : scan [] (boundNames front).reverse (dropSlashes c) = .ok back := by
    refine scan_nil_iff.2 ⟨hscan, ?_⟩
    rw [seam.boundNames_back, seam.boundNames_front]
    simpa using hfresh
  refine ⟨glue front (glue (textBefore ['/']) back), ?_⟩
  rw [scan_joinChars hfront hp hbare, hreads]
  rfl

end

/-! ## Templates -/

theorem mem_names_iff {text : String} {ps : List Piece} {n : List Char} :
    String.ofList n ∈ (⟨text, ps.map Piece.segment⟩ : PathTemplate).names ↔ n ∈ boundNames ps := by
  rw [names, names_segments, List.mem_map]
  simp only [String.ofList_inj, exists_eq_right]

theorem names_disjoint_iff {text text' : String} {ps cs : List Piece} :
    (∀ n ∈ (⟨text, cs.map Piece.segment⟩ : PathTemplate).names,
        n ∉ (⟨text', ps.map Piece.segment⟩ : PathTemplate).names) ↔
      ∀ n ∈ boundNames cs, n ∉ boundNames ps := by
  constructor
  · intro h n hn hmem
    exact h _ (mem_names_iff.2 hn) (mem_names_iff.2 hmem)
  · intro h n hn hmem
    rw [← String.ofList_toList (s := n), mem_names_iff] at hn hmem
    exact h _ hn hmem

/-- Substitution fills in the values of the parameters. -/
theorem substitute_segments {text : String} {ps : List Piece} {value : String → Option String}
    (v : String → String)
    (h : ∀ n ∈ boundNames ps, value (String.ofList n) = some (v (String.ofList n))) :
    (⟨text, ps.map Piece.segment⟩ : PathTemplate).substitute value =
      .ok (String.ofList (ps.flatMap (Piece.filled fun n => (v n).toList))) := by
  rw [← written_segments]
  apply substitute_ok
  intro n hn
  rw [← String.ofList_toList (s := n), mem_names_iff] at hn
  simpa using h _ hn

/-- Values without slashes that are not empty may be substituted before joining. -/
theorem Joins.substitute {p c : String} {ps cs js : List Piece} (h : Joins ps cs js)
    {value : String → Option String}
    (hvalue : ∀ n ∈ boundNames js,
      ∃ v, value (String.ofList n) = some v ∧ v ≠ "" ∧ '/' ∉ v.toList) :
    ∃ x y, (⟨p, ps.map Piece.segment⟩ : PathTemplate).substitute value = .ok x ∧
      (⟨c, cs.map Piece.segment⟩ : PathTemplate).substitute value = .ok y ∧
      (⟨joinTemplates p c, js.map Piece.segment⟩ : PathTemplate).substitute value =
        .ok (joinTemplates x y) := by
  let v : String → String := fun n => (value n).getD ""
  have hbound : ∀ n ∈ boundNames js, value (String.ofList n) = some (v (String.ofList n)) := by
    intro n hn
    obtain ⟨w, hw, -, -⟩ := hvalue n hn
    simp [v, hw]
  have hfits : Fits (fun n => (v n).toList) (boundNames js) := by
    intro n hn
    obtain ⟨w, hw, hne, hslash⟩ := hvalue n hn
    simp [v, hw, hne, hslash]
  have hsides := hbound
  rw [h.names, List.forall_mem_append] at hsides
  refine ⟨_, _, substitute_segments v hsides.1, substitute_segments v hsides.2, ?_⟩
  rw [substitute_segments v hbound, h.filled _ hfits, joinTemplates, String.toList_ofList,
    String.toList_ofList]

/-- A template below another is read just if it is read by itself and has no parameter of the other.
The joined template then has the parameters of both, and values without slashes that are not empty
can be substituted before joining as well as after. -/
theorem parse_joinTemplates {p : String} {a : PathTemplate} (ha : parse p = .ok a) (c : String) :
    ((∃ t, parse (joinTemplates p c) = .ok t) ↔
      ∃ b, parse c = .ok b ∧ ∀ n ∈ b.names, n ∉ a.names) ∧
    ∀ b t, parse c = .ok b → parse (joinTemplates p c) = .ok t →
      t.parameters = a.parameters ++ b.parameters ∧
      ∀ value : String → Option String,
        (∀ n ∈ t.names, ∃ v, value n = some v ∧ v ≠ "" ∧ '/' ∉ v.toList) →
        ∃ x y, a.substitute value = .ok x ∧ b.substitute value = .ok y ∧
          t.substitute value = .ok (joinTemplates x y) := by
  obtain ⟨ps, hps, rfl⟩ := parse_iff_scan.1 ha
  have hread : ∀ {t}, parse (joinTemplates p c) = .ok t ↔
      ∃ js, scan [] [] (joinChars p.toList c.toList) = .ok js ∧
        t = ⟨joinTemplates p c, js.map Piece.segment⟩ := by
    intro t
    rw [parse_iff_scan, toList_joinTemplates]
  refine ⟨⟨?_, ?_⟩, ?_⟩
  · rintro ⟨t, ht⟩
    obtain ⟨js, hjs, rfl⟩ := hread.1 ht
    obtain ⟨cs, hcs, hfresh, -⟩ := joins_of_scan hps hjs
    exact ⟨_, parse_iff_scan.2 ⟨cs, hcs, rfl⟩, names_disjoint_iff.2 hfresh⟩
  · rintro ⟨b, hb, hfresh⟩
    obtain ⟨cs, hcs, rfl⟩ := parse_iff_scan.1 hb
    obtain ⟨js, hjs⟩ := exists_scan_joinChars hps hcs (names_disjoint_iff.1 hfresh)
    exact ⟨_, hread.2 ⟨js, hjs, rfl⟩⟩
  · intro b t hb ht
    obtain ⟨js, hjs, rfl⟩ := hread.1 ht
    obtain ⟨cs, hcs, -, hjoins⟩ := joins_of_scan hps hjs
    obtain ⟨cs', hcs', rfl⟩ := parse_iff_scan.1 hb
    obtain rfl : cs = cs' := Except.ok.inj (hcs.symm.trans hcs')
    refine ⟨hjoins.parameters, fun value hvalue => ?_⟩
    exact hjoins.substitute fun n hn => hvalue _ (mem_names_iff.2 hn)

/-! ### Slashes behind a constraint -/

/-- A directory, its slashes at the end, a file below it and both joined. -/
def directoryTemplate : PathTemplate where
  text := "/:dir(a|b)//"
  segments := [.literal "/", .parameter "dir" (some "a|b"), .literal "//"]

def fileTemplate : PathTemplate where
  text := "/:file"
  segments := [.literal "/", .parameter "file" none]

def directoryFileTemplate : PathTemplate where
  text := "/:dir(a|b)/:file"
  segments := [.literal "/", .parameter "dir" (some "a|b"), .literal "/", .parameter "file" none]

/-- The parameters of both sides in turn, and names in the plural for values. -/
theorem parse_joinTemplates_directory :
    parse "/:dir(a|b)//" = .ok directoryTemplate ∧ parse "/:file" = .ok fileTemplate ∧
      parse (joinTemplates "/:dir(a|b)//" "/:file") = .ok directoryFileTemplate ∧
      (∀ n ∈ directoryFileTemplate.names,
        ∃ v, some (n ++ "s") = some v ∧ v ≠ "" ∧ '/' ∉ v.toList) ∧
      directoryFileTemplate.parameters = directoryTemplate.parameters ++ fileTemplate.parameters ∧
      ∃ x y, directoryTemplate.substitute (fun n => some (n ++ "s")) = .ok x ∧
        fileTemplate.substitute (fun n => some (n ++ "s")) = .ok y ∧
        directoryFileTemplate.substitute (fun n => some (n ++ "s")) = .ok (joinTemplates x y) := by
  have hdirectory : parse "/:dir(a|b)//" = .ok directoryTemplate := by cbv
  have hfile : parse "/:file" = .ok fileTemplate := by cbv
  have hvalues : ∀ n ∈ directoryFileTemplate.names,
      ∃ v, some (n ++ "s") = some v ∧ v ≠ "" ∧ '/' ∉ v.toList := by
    intro n hn
    refine ⟨n ++ "s", rfl, ?_⟩
    revert n
    decide
  have hjoined : parse (joinTemplates "/:dir(a|b)//" "/:file") = .ok directoryFileTemplate := by cbv
  obtain ⟨hparameters, hsubstitute⟩ :=
    (parse_joinTemplates hdirectory "/:file").2 _ _ hfile hjoined
  exact ⟨hdirectory, hfile, hjoined, hvalues, hparameters, hsubstitute _ hvalues⟩

end PathTemplate

end TypedRoutes
