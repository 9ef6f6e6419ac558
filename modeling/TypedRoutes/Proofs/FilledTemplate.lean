import TypedRoutes.Proofs.Continuation

/-!
# Filling in a template

* `Segment.filled` : a segment with the value of its parameter;
* `substitute_eq` : the outcome of a substitution, by the first parameter without a value;
* `substitute_eq_ok_iff`, `substitute_eq_error_iff`, `substitute_congr` : what follows from it;
* `colon_notMem_filled` : values without markers leave no marker;
* `parse_unmarked` : a text without markers is a template that every substitution leaves as it is;
* `substitute_outcome` : when a substitution has a path, which, and that nothing is left to be done.
-/

namespace TypedRoutes

/-- A segment with the value of its parameter. A constraint is dropped. -/
def Segment.filled (value : String → Option String) : Segment → String
  | literal s => s
  | parameter n _ => (value n).getD ""

namespace PathTemplate

variable {text : String} {t : PathTemplate} {value : String → Option String}

/-! ## Outcomes -/

/-- The first parameter without a value is reported. If there is none, segments are filled in. -/
theorem substitute_eq (t : PathTemplate) (value : String → Option String) :
    t.substitute value =
      match t.names.find? fun n => (value n).isNone with
      | some n => .error (.unboundName n)
      | none => .ok (String.join (t.segments.map (Segment.filled value))) := by
  obtain ⟨text, s⟩ := t
  unfold substitute names
  dsimp only
  induction s with
  | nil => rfl
  | cons a s ih =>
    rw [List.map_cons, String.join_cons]
    cases a with
    | literal l =>
      have hname : (Segment.literal l).name? = none := rfl
      rw [render, ih, List.filterMap_cons_none hname]
      cases (s.filterMap Segment.name?).find? fun n => (value n).isNone <;> rfl
    | parameter n k =>
      have hname : (Segment.parameter n k).name? = some n := rfl
      rw [render, ih, List.filterMap_cons_some hname, List.find?_cons]
      cases hn : value n with
      | none => rfl
      | some v =>
        have hfilled : (Segment.parameter n k).filled value = v := by simp [Segment.filled, hn]
        rw [hfilled]
        cases (s.filterMap Segment.name?).find? fun n => (value n).isNone <;> rfl

theorem substitute_eq_ok_iff {path : String} :
    t.substitute value = .ok path ↔
      (∀ n ∈ t.names, (value n).isSome) ∧
        path = String.join (t.segments.map (Segment.filled value)) := by
  have hbound : (t.names.find? fun n => (value n).isNone) = none ↔
      ∀ n ∈ t.names, (value n).isSome := by
    simp [List.find?_eq_none, Option.isSome_iff_ne_none]
  rw [substitute_eq, ← hbound]
  cases t.names.find? fun n => (value n).isNone with
  | none => simp [eq_comm]
  | some n => simp

theorem substitute_eq_error_iff {e : TemplateError} :
    t.substitute value = .error e ↔
      ∃ before n behind, t.names = before ++ n :: behind ∧ (∀ m ∈ before, (value m).isSome) ∧
        value n = none ∧ e = .unboundName n := by
  have hfirst : t.substitute value = .error e ↔
      ∃ n, (t.names.find? fun n => (value n).isNone) = some n ∧ e = .unboundName n := by
    rw [substitute_eq]
    cases t.names.find? fun n => (value n).isNone with
    | none => simp
    | some n => simp [eq_comm]
  rw [hfirst]
  constructor
  · rintro ⟨n, hn, rfl⟩
    obtain ⟨hnone, before, behind, hnames, hbefore⟩ := List.find?_eq_some_iff_append.1 hn
    exact ⟨before, n, behind, hnames, by simpa [Option.isSome_iff_ne_none] using hbefore,
      Option.isNone_iff_eq_none.1 hnone, rfl⟩
  · rintro ⟨before, n, behind, hnames, hbefore, hnone, rfl⟩
    refine ⟨n, List.find?_eq_some_iff_append.2 ⟨by simp [hnone], before, behind, hnames, ?_⟩, rfl⟩
    simpa [Option.isSome_iff_ne_none] using hbefore

/-- Values of other names do not matter. -/
theorem substitute_congr {value' : String → Option String}
    (h : ∀ n ∈ t.names, value n = value' n) : t.substitute value = t.substitute value' := by
  obtain ⟨text, s⟩ := t
  unfold substitute
  unfold names at h
  dsimp only at h ⊢
  induction s with
  | nil => rfl
  | cons a s ih =>
    cases a with
    | literal l => rw [render, render, ih h]
    | parameter n k =>
      obtain ⟨hn, hs⟩ := List.forall_mem_cons.1 h
      rw [render, render, ih hs, hn]

/-! ## Markers -/

/-- Values without markers leave no marker. -/
theorem colon_notMem_filled (h : parse text = .ok t)
    (hvalue : ∀ n ∈ t.names, ∀ v ∈ value n, ':' ∉ v.toList) :
    ':' ∉ (String.join (t.segments.map (Segment.filled value))).toList := by
  rw [String.toList_join, List.flatMap_map, List.mem_flatMap]
  rintro ⟨a, ha, hcolon⟩
  cases a with
  | literal l => exact ((canonical_of_parse h).1.valid _ ha).2 hcolon
  | parameter n k =>
    have hn : n ∈ t.names := List.mem_filterMap.2 ⟨_, ha, rfl⟩
    cases hv : value n with
    | none => simp [Segment.filled, hv] at hcolon
    | some v =>
      refine hvalue n hn v hv ?_
      simpa [Segment.filled, hv] using hcolon

/-- A text without markers is a template that every substitution leaves as it is. -/
theorem parse_unmarked (h : ':' ∉ text.toList) :
    ∃ t, parse text = .ok t ∧ t.names = [] ∧ ∀ value, t.substitute value = .ok text := by
  have hnames : (⟨text, (textBefore text.toList.reverse).map Piece.segment⟩ : PathTemplate).names =
      [] := by
    rw [names, names_segments, boundNames_textBefore]
    rfl
  refine ⟨_, parse_iff_scan.2 ⟨_, scan_unmarked h [], rfl⟩, hnames, fun value => ?_⟩
  refine substitute_eq_ok_iff.2 ⟨by simp [hnames], ?_⟩
  by_cases hempty : text = ""
  · subst hempty
    rfl
  · have htext : textBefore text.toList.reverse = [.text text.toList] := by
      simp [textBefore, hempty]
    rw [htext]
    simp [Piece.segment, Segment.filled]

/-- A substitution in a template has a path just if every parameter has a value, and the path then
has the values in the places of the parameters. Else the first parameter without a value is
reported. Values of other names do not matter. Where no value has a marker the path is a template
without parameters, and every substitution in it leaves it as it is. -/
theorem substitute_outcome (h : parse text = .ok t) (value : String → Option String) :
    ((∃ path, t.substitute value = .ok path) ↔ ∀ n ∈ t.names, (value n).isSome) ∧
    (∀ e, t.substitute value = .error e ↔
      ∃ before n behind, t.names = before ++ n :: behind ∧ (∀ m ∈ before, (value m).isSome) ∧
        value n = none ∧ e = .unboundName n) ∧
    (∀ value', (∀ n ∈ t.names, value n = value' n) → t.substitute value = t.substitute value') ∧
    ∀ path, t.substitute value = .ok path →
      path = String.join (t.segments.map (Segment.filled value)) ∧
      ((∀ n ∈ t.names, ∀ v ∈ value n, ':' ∉ v.toList) →
        ∃ p, parse path = .ok p ∧ p.names = [] ∧ ∀ value', p.substitute value' = .ok path) := by
  refine ⟨?_, fun e => substitute_eq_error_iff, fun value' => substitute_congr, ?_⟩
  · simp only [substitute_eq_ok_iff, exists_and_left, exists_eq, and_true]
  · intro path hpath
    obtain ⟨-, rfl⟩ := substitute_eq_ok_iff.1 hpath
    exact ⟨rfl, fun hvalue => parse_unmarked (colon_notMem_filled h hvalue)⟩

/-! ### A constraint that the value does not keep -/

def itemTemplate : PathTemplate where
  text := "/item/:id(\\d+)/:tab"
  segments := [.literal "/item/", .parameter "id" (some "\\d+"), .literal "/",
    .parameter "tab" none]

/-- The values of an item. -/
def itemValue (n : String) : Option String :=
  [("id", "4/2"), ("tab", "ü"), ("sort", ":")].lookup n

/-- A value with a slash, one that is not ASCII, and a marker under a name that is not asked for. -/
theorem substitute_outcome_item :
    parse "/item/:id(\\d+)/:tab" = .ok itemTemplate ∧
      (∀ n ∈ itemTemplate.names, (itemValue n).isSome) ∧
      (∀ n ∈ itemTemplate.names, ∀ v ∈ itemValue n, ':' ∉ v.toList) ∧
      itemTemplate.substitute itemValue = .ok "/item/4/2/ü" ∧
      (∃ p, parse "/item/4/2/ü" = .ok p ∧ p.names = [] ∧
        ∀ value, p.substitute value = .ok "/item/4/2/ü") ∧
      (∀ n ∈ itemTemplate.names, itemValue n = [("tab", "ü"), ("id", "4/2")].lookup n) ∧
      itemTemplate.substitute itemValue =
        itemTemplate.substitute (fun n => [("tab", "ü"), ("id", "4/2")].lookup n) ∧
      itemTemplate.substitute (fun n => [("tab", "ü")].lookup n) = .error (.unboundName "id") := by
  have hparse : parse "/item/:id(\\d+)/:tab" = .ok itemTemplate := by cbv
  have hvalues : ∀ n ∈ itemTemplate.names, (itemValue n).isSome := by decide
  have hmarkers : ∀ n ∈ itemTemplate.names, ∀ v ∈ itemValue n, ':' ∉ v.toList := by decide
  have hagree : ∀ n ∈ itemTemplate.names, itemValue n = [("tab", "ü"), ("id", "4/2")].lookup n := by
    decide
  obtain ⟨hdefined, -, hlocal, hpath⟩ := substitute_outcome hparse itemValue
  obtain ⟨path, hok⟩ := hdefined.2 hvalues
  obtain ⟨hfilled, hfinal⟩ := hpath path hok
  obtain rfl : path = "/item/4/2/ü" := hfilled.trans (by decide)
  obtain ⟨-, herror, -, -⟩ := substitute_outcome hparse fun n => [("tab", "ü")].lookup n
  have hunbound := (herror (.unboundName "id")).2
    ⟨[], "id", ["tab"], by decide, by simp, by decide, rfl⟩
  exact ⟨hparse, hvalues, hmarkers, hok, hfinal hmarkers, hagree, hlocal _ hagree, hunbound⟩

end PathTemplate

end TypedRoutes
