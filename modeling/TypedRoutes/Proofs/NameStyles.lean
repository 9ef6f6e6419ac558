import Mathlib
import TypedRoutes.Proofs.Escapes
import TypedRoutes.Proofs.Hygiene
import TypedRoutes.Proofs.QueryKey

/-!
# The shape of names in the three styles

* `Words.ofChars_append_break`, `Words.ofChars_of_no_upper` : the words of a text are those of its
  parts, and a part without capitals is one word;
* `Words.flatten_ofChars` : no letter or digit is lost in words;
* `lowerWords_kebab` : the kebab form of a name has the words of the name;
* `encode_of_plain` : a text without reserved characters is written as it is;
* `WellShaped`, `styles_wellShaped` : the styles of every plain name, and the keys of parameters.
-/

namespace TypedRoutes.Text

/-! ## Words -/

namespace Words

/-- A character that is no letter or digit stands between words. -/
theorem ofChars_append_break {c : Char} (hc : c.isAlphanum = false) (xs ys : List Char) :
    ofChars (xs ++ c :: ys) = ofChars xs ++ ofChars ys := by
  rw [ofChars, List.splitOnP_append_cons xs ys (by simpa using hc), List.flatMap_append]
  rfl

/-- A run without capitals is not cut: no lower-case letter meets one, and no acronym begins. -/
theorem cut_of_no_upper {word cs : List Char} {m : Mode} (hm : m ≠ .upper)
    (hcs : ∀ c ∈ cs, c.isUpper = false) (hne : word.reverse ++ cs ≠ []) :
    cut word m cs = [word.reverse ++ cs] := by
  fun_induction cut word m cs with
  | case1 word m hempty => simp_all
  | case2 word m hempty => rw [List.append_nil]
  | case3 word m c => rw [List.reverse_cons]
  | case4 word m c next rest h ih => simp [hcs next] at h
  | case5 word m c next rest hlower h ih => exact absurd h.1 hm
  | case6 word m c next rest hlower hupper ih =>
    have hafter : m.after c ≠ .upper := by
      have hc : c.isUpper = false := hcs c List.mem_cons_self
      unfold Mode.after
      split
      · decide
      · simpa [hc] using hm
    rw [ih hafter (fun d hd => hcs d (List.mem_cons_of_mem c hd)) (by simp)]
    simp

theorem ofChars_of_no_upper {cs : List Char} (hne : cs ≠ [])
    (hcs : ∀ c ∈ cs, c.isAlphanum = true ∧ c.isUpper = false) : ofChars cs = [cs] := by
  rw [ofChars, List.splitOnP_eq_singleton fun c hc => by simpa using (hcs c hc).1,
    List.flatMap_singleton]
  exact cut_of_no_upper (by decide) (fun c hc => (hcs c hc).2) hne

/-- Words without capitals are found again in what they are joined to. -/
theorem ofChars_intercalate {x : Char} (hx : x.isAlphanum = false) {ws : List (List Char)}
    (hws : ∀ w ∈ ws, w ≠ [] ∧ ∀ c ∈ w, c.isAlphanum = true ∧ c.isUpper = false) :
    ofChars ([x].intercalate ws) = ws := by
  induction ws with
  | nil => rfl
  | cons w ws ih =>
    obtain ⟨⟨hne, hw⟩, hws⟩ := List.forall_mem_cons.1 hws
    have hone : ofChars w = [w] := ofChars_of_no_upper hne hw
    cases ws with
    | nil => rwa [List.intercalate_singleton]
    | cons v ws =>
      rw [List.intercalate_cons_cons, List.append_assoc, List.singleton_append,
        ofChars_append_break hx, hone, ih hws]
      rfl

theorem flatten_splitOnP (p : Char → Bool) (cs : List Char) :
    (cs.splitOnP p).flatten = cs.filter fun c => !p c := by
  induction cs with
  | nil => simp
  | cons c cs ih =>
    obtain ⟨run, runs, hruns⟩ := List.exists_cons_of_ne_nil (List.splitOnP_ne_nil p cs)
    rw [List.splitOnP_cons_eq_if_modifyHead]
    cases hc : p c <;> simp [hc, hruns, ← ih]

/-- The words of a text are its letters and digits. -/
theorem flatten_ofChars (cs : List Char) : (ofChars cs).flatten = cs.filter Char.isAlphanum := by
  have hcut (runs : List (List Char)) : (runs.flatMap (cut [] .start)).flatten = runs.flatten := by
    induction runs with
    | nil => rfl
    | cons run runs ih =>
      rw [List.flatMap_cons, List.flatten_append, flatten_cut, ih]
      rfl
  rw [ofChars, hcut, flatten_splitOnP]
  simp

end Words

/-! ## Joined words -/

theorem map_intercalate (f : Char → Char) (x : Char) (ws : List (List Char)) :
    ([x].intercalate ws).map f = [f x].intercalate (ws.map (List.map f)) := by
  induction ws with
  | nil => rfl
  | cons w ws ih =>
    cases ws with
    | nil => rw [List.intercalate_singleton, List.map_singleton, List.intercalate_singleton]
    | cons v ws =>
      rw [List.intercalate_cons_cons, List.map_append, List.map_append, ih, List.map_singleton,
        List.map_cons, List.map_cons, List.map_cons, List.intercalate_cons_cons]

theorem filter_intercalate {x : Char} {ws : List (List Char)} (h : ∀ w ∈ ws, x ∉ w) :
    ([x].intercalate ws).filter (· ≠ x) = ws.flatten := by
  induction ws with
  | nil => rfl
  | cons w ws ih =>
    obtain ⟨hw, hws⟩ := List.forall_mem_cons.1 h
    have hkept : w.filter (· ≠ x) = w :=
      List.filter_eq_self.2 fun c hc => by simpa using ne_of_mem_of_not_mem hc hw
    cases ws with
    | nil => simpa using hkept
    | cons v ws =>
      rw [List.intercalate_cons_cons, List.filter_append, List.filter_append, hkept, ih hws]
      simp

/-! ## Words in lower case -/

theorem lowerWords_eq (name : String) :
    (lowerWords name).map String.toList = (Words.ofChars name.toList).map (List.map Char.toLower) := by
  simp [lowerWords, Function.comp_def]

theorem isUpper_of_mem_lowerWords {name w : String} (hw : w ∈ lowerWords name) :
    ∀ c ∈ w.toList, c.isUpper = false := by
  obtain ⟨cs, -, rfl⟩ := List.mem_map.1 hw
  intro c hc
  rw [String.toList_ofList] at hc
  obtain ⟨d, -, rfl⟩ := List.mem_map.1 hc
  exact d.isUpper_toLower_eq_false

theorem toList_kebab (name : String) :
    (kebab name).toList = ['-'].intercalate ((lowerWords name).map String.toList) := by
  rw [kebab_eq, String.toList_intercalate]
  rfl

theorem toList_snake (name : String) :
    (snake name).toList = ['_'].intercalate ((lowerWords name).map String.toList) := by
  rw [snake_eq, String.toList_intercalate]
  rfl

/-- The kebab form of a name has the words of the name, each in lower case already. -/
theorem lowerWords_kebab (name : String) : lowerWords (kebab name) = lowerWords name := by
  -- words in lower case have no capitals, so each of them is read as one word again
  have hwords : Words.ofChars (kebab name).toList = (lowerWords name).map String.toList := by
    rw [toList_kebab]
    refine Words.ofChars_intercalate (by decide) fun w hw => ?_
    obtain ⟨v, hv, rfl⟩ := List.mem_map.1 hw
    obtain ⟨hne, hchars⟩ := mem_lowerWords hv
    exact ⟨hne, fun c hc => ⟨hchars c hc, isUpper_of_mem_lowerWords hv c hc⟩⟩
  have hsame (w : String) (hw : w ∈ lowerWords name) :
      String.ofList (w.toList.map Char.toLower) = w := by
    have hlower : w.toList.map Char.toLower = w.toList := by
      refine (List.map_congr_left fun c hc => ?_).trans (List.map_id' _)
      exact Char.toLower_eq_of_not_isUpper (by rw [isUpper_of_mem_lowerWords hw c hc]; decide)
    rw [hlower, String.ofList_toList]
  rw [lowerWords, hwords, List.map_map]
  exact (List.map_congr_left hsame).trans (List.map_id' _)

/-! ## Styles -/

theorem kebab_kebab (name : String) : kebab (kebab name) = kebab name := by
  rw [kebab_eq (kebab name), lowerWords_kebab, kebab_eq]

theorem snake_eq_map (name : String) :
    snake name = (kebab name).map fun c => if c = '-' then '_' else c := by
  rw [← String.toList_inj, String.toList_map, toList_snake, toList_kebab, map_intercalate,
    if_pos rfl]
  congr 1
  refine (List.map_id' _).symm.trans (List.map_congr_left fun w hw => ?_)
  obtain ⟨v, hv, rfl⟩ := List.mem_map.1 hw
  refine (List.map_id' _).symm.trans (List.map_congr_left fun c hc => (if_neg ?_).symm)
  rintro rfl
  exact absurd ((mem_lowerWords hv).2 _ hc) (by decide)

theorem screaming_eq_toUpper (name : String) : screaming name = (snake name).toUpper := by
  have hwords : (Words.ofChars name.toList).map (List.map Char.toUpper) =
      ((lowerWords name).map String.toList).map (List.map Char.toUpper) := by
    rw [lowerWords_eq, List.map_map]
    refine List.map_congr_left fun w _ => ?_
    rw [Function.comp_apply, List.map_map]
    exact List.map_congr_left fun c _ => c.toUpper_toLower_eq_toUpper.symm
  rw [← String.toList_inj, String.toUpper, String.toList_map, toList_snake, map_intercalate,
    ← hwords, screaming, String.toList_intercalate, List.map_map]
  congr 1
  exact List.map_congr_left fun w _ => String.toList_ofList

/-- Without its hyphens, the kebab form is the letters and digits of the name. -/
theorem filter_kebab (name : String) :
    (kebab name).toList.filter (· ≠ '-') = (name.toList.filter Char.isAlphanum).map Char.toLower := by
  rw [toList_kebab, filter_intercalate, lowerWords_eq, ← List.map_flatten, Words.flatten_ofChars]
  intro w hw hmem
  obtain ⟨v, hv, rfl⟩ := List.mem_map.1 hw
  exact absurd ((mem_lowerWords hv).2 _ hmem) (by decide)

theorem kebab_eq_empty {name : String} :
    kebab name = "" ↔ ∀ c ∈ name.toList, c.isAlphanum = false := by
  have hwords : kebab name = "" ↔ Words.ofChars name.toList = [] := by
    rw [← List.map_eq_nil_iff (f := List.map Char.toLower), ← lowerWords_eq,
      ← String.toList_eq_nil_iff, toList_kebab]
    refine ⟨eq_nil_of_intercalate_eq_nil fun w hw => ?_, fun h => by rw [h]; rfl⟩
    obtain ⟨v, hv, rfl⟩ := List.mem_map.1 hw
    exact (mem_lowerWords hv).1
  have hletters : Words.ofChars name.toList = [] ↔ (Words.ofChars name.toList).flatten = [] := by
    refine ⟨fun h => by rw [h]; rfl, fun h => List.eq_nil_iff_forall_not_mem.2 fun w hw => ?_⟩
    exact (Words.mem_ofChars hw).1 (List.flatten_eq_nil_iff.1 h w hw)
  rw [hwords, hletters, Words.flatten_ofChars, List.filter_eq_nil_iff]
  simp only [Bool.not_eq_true]

theorem isAlphanum_of_mem_kebab {name : String} {c : Char} (hc : c ∈ (kebab name).toList)
    (hne : c ≠ '-') : c.isAlphanum = true := by
  have hmem : c ∈ (kebab name).toList.filter (· ≠ '-') := List.mem_filter.2 ⟨hc, by simpa using hne⟩
  rw [filter_kebab] at hmem
  obtain ⟨d, hd, rfl⟩ := List.mem_map.1 hmem
  exact isAlphanum_toLower (List.mem_filter.1 hd).2

/-! ## Texts without reserved characters -/

theorem Percent.ascii_of_isPlain {c : Char} (h : isPlain c = true) : c.toNat < 128 := by
  simp only [isPlain, Bool.or_eq_true, beq_iff_eq] at h
  rcases h with (((h | rfl) | rfl) | rfl) | rfl
  · exact Syntax.isNameChar_ascii (by rw [isNameChar, h, Bool.true_or])
  all_goals decide

theorem Percent.encode_of_plain {s : String} (h : ∀ c ∈ s.toList, isPlain c = true) :
    encode s = s := by
  have hone : ∀ n < 128, isPlain (Char.ofNat n) = true →
      encodeOctet (UInt8.ofNat n) = [Char.ofNat n] := by
    decide
  have hoctets := toList_octets fun c hc => ascii_of_isPlain (h c hc)
  rw [String.ofList_toList] at hoctets
  rw [encode, hoctets, encodeOctets, List.flatMap_map, ← String.toList_inj, String.toList_ofList]
  refine (List.flatMap_congr fun c hc => ?_).trans (List.flatMap_singleton' _)
  have hc' := hone c.toNat (ascii_of_isPlain (h c hc))
  rw [Char.ofNat_toNat] at hc'
  exact hc' (h c hc)

/-! ## Styles of plain names -/

/-- What the styles of a name look like: its letters and digits in words, joined in three ways. -/
structure WellShaped (name : String) : Prop where
  words : ∃ ws : List String,
    (∀ w ∈ ws, w ≠ "" ∧ ∀ c ∈ w.toList, c.isLower = true ∨ c.isDigit = true) ∧
    kebab name = "-".intercalate ws
  empty : kebab name = "" ↔ ∀ c ∈ name.toList, c = '_'
  letters : (kebab name).toList.filter (· ≠ '-') = name.toLower.toList.filter (· ≠ '_')
  snake : snake name = (kebab name).map fun c => if c = '-' then '_' else c
  screaming : screaming name = (Text.snake name).toUpper
  kebab_kebab : kebab (kebab name) = kebab name
  key : ∀ settings : Settings, Percent.encode (settings.queryKey name) = settings.queryKey name

theorem wellShaped_of_plain {name : String} (h : isPlainIdentifier name = true) :
    WellShaped name := by
  have hchars (c : Char) (hc : c ∈ name.toList) : c.isAlphanum = true ∨ c = '_' := by
    simpa [isNameChar] using Syntax.isNameChar_of_plain h hc
  constructor
  case words =>
    refine ⟨lowerWords name, fun w hw => ⟨?_, fun c hc => ?_⟩, kebab_eq name⟩
    · rintro rfl
      exact (mem_lowerWords hw).1 rfl
    · have halphanum := (mem_lowerWords hw).2 c hc
      rw [Char.isAlphanum, Char.isAlpha, isUpper_of_mem_lowerWords hw c hc,
        Bool.false_or] at halphanum
      exact Bool.or_eq_true_iff.1 halphanum
  case empty =>
    rw [kebab_eq_empty]
    refine forall₂_congr fun c hc => ⟨fun hfalse => ?_, fun heq => by rw [heq]; decide⟩
    exact (hchars c hc).resolve_left (by rw [hfalse]; exact Bool.false_ne_true)
  case letters =>
    -- the only character of a plain name that is no letter or digit is the underscore
    rw [filter_kebab, String.toLower, String.toList_map, List.filter_map]
    congr 1
    refine List.filter_congr fun c hc => ?_
    rcases hchars c hc with halphanum | rfl
    · have hne : c.toLower ≠ '_' := by
        intro heq
        have hlower := isAlphanum_toLower halphanum
        rw [heq] at hlower
        exact absurd hlower (by decide)
      simpa [halphanum] using hne
    · decide
  case snake => exact snake_eq_map name
  case screaming => exact screaming_eq_toUpper name
  case kebab_kebab => exact kebab_kebab name
  case key =>
    intro settings
    refine Percent.encode_of_plain fun c hc => ?_
    unfold Settings.queryKey at hc
    split at hc
    · by_cases hne : c = '-'
      · rw [hne]; decide
      · simp [Percent.isPlain, isAlphanum_of_mem_kebab hc hne]
    · rcases hchars c hc with halphanum | rfl
      · simp [Percent.isPlain, halphanum]
      · decide

/-- Every plain name is well shaped in all its styles, and the parameters of a tree have keys that are
written as they are. -/
theorem styles_wellShaped :
    (∀ name, isPlainIdentifier name = true → WellShaped name) ∧
      ∀ {catalog : Catalog} {settings : Settings} {d : Declaration} {t : RouteTree},
        RouteTree.ofDeclaration catalog settings d = .ok t → ∀ n ∈ t.nodes, ∀ b ∈ n.bindings,
          Percent.encode (settings.queryKey b.name) = settings.queryKey b.name :=
  ⟨fun _ => wellShaped_of_plain, fun {_ settings _ _} ht _ hn b hb =>
    (wellShaped_of_plain (isPlainIdentifier_bindings ht hn b hb)).key settings⟩

theorem styles_wellShaped_server :
    WellShaped "HTTPServer_v2" ∧ kebab "HTTPServer_v2" = "http-server-v2" ∧
      Percent.encode (Settings.queryKey {} "pageSize") = "page-size" := by
  refine ⟨styles_wellShaped.1 _ (by decide), by decide, ?_⟩
  have hkey : Settings.queryKey {} "pageSize" = "page-size" := by decide
  obtain ⟨b, hb, hname⟩ : ∃ b ∈ pagedNode.bindings, b.name = "pageSize" := by decide
  have hplain := styles_wellShaped.2 ofDeclaration_paged pagedNode (List.mem_singleton_self _) b hb
  rwa [hname, hkey] at hplain

end TypedRoutes.Text
