import TypedRoutes.Proofs.Continuation

/-!
# The first faulty marker

* `scan_error_iff` : reading fails at a marker that has a fault, where the text in front is read;
* `Fault.errorAt` : the fault of a marker at some byte of a template, as an error;
* `FaultyAt` : the error of a marker whose front is a template;
* `parse_eq_error_iff` : a template that is not read has one such marker, which gives the error.
-/

namespace TypedRoutes

namespace PathTemplate

/-! ## Characters -/

theorem Fault.Arises.congr {f : Fault} {seen seen' : List (List Char)} {cs : List Char}
    (h : ∀ n, n ∈ seen ↔ n ∈ seen') : f.Arises seen cs ↔ f.Arises seen' cs := by
  cases f with
  | duplicateName run => simp only [Fault.Arises, h run]
  | emptyName => exact Iff.rfl
  | invalidName run => exact Iff.rfl
  | unclosedConstraint run => exact Iff.rfl

/-- Reading fails at a marker that has a fault, where the text in front of it is read. -/
theorem scan_error_iff {lit cs : List Char} {seen : List (List Char)} {f : Fault} {left : Nat} :
    scan lit seen cs = .error (f, left) ↔
      ∃ xs ys ps, cs = xs ++ ':' :: ys ∧ left = ys.length + 1 ∧ scan lit seen xs = .ok ps ∧
        f.Arises ((boundNames ps).reverse ++ seen) ys := by
  constructor
  · intro h
    induction hlength : cs.length using Nat.strongRecOn generalizing cs lit seen with
    | ind n ih =>
      subst hlength
      cases cs with
      | nil =>
        rw [scan.eq_1] at h
        cases h
      | cons c cs =>
        by_cases hc : c = ':'
        · subst hc
          rcases marks_or_arises seen cs with ⟨name, k, rest, rfl, hmarks, hseen⟩ | ⟨g, hg⟩
          · -- this marker is read, and the fault is behind it
            rw [scan_marker hmarks hseen] at h
            have hrest : scan [] (name :: seen) rest = .error (f, left) := by
              rcases bind_eq_error.1 h with hrest | ⟨ps, -, hps⟩
              · exact hrest
              · cases hps
            obtain ⟨xs, ys, ps, rfl, rfl, hxs, hf⟩ := ih _ (by simp; omega) hrest rfl
            refine ⟨':' :: (name ++ writtenConstraint k ++ xs), ys,
              textBefore lit ++ .param name k :: ps, by simp, rfl, ?_, ?_⟩
            · rw [scan_marker hmarks.of_append hseen, hxs]
              rfl
            · simpa using hf
          · -- this marker has a fault, and only text stands in front of it
            rw [scan_arises hg] at h
            cases h
            refine ⟨[], cs, textBefore lit, rfl, rfl, scan.eq_1 lit seen, ?_⟩
            rw [boundNames_textBefore]
            exact hg
        · rw [scan, if_neg hc] at h
          obtain ⟨xs, ys, ps, rfl, rfl, hxs, hf⟩ := ih _ (by simp) h rfl
          refine ⟨c :: xs, ys, ps, rfl, rfl, ?_, hf⟩
          rwa [scan, if_neg hc]
  · rintro ⟨xs, ys, ps, rfl, rfl, hxs, hf⟩
    rw [scan_append hxs (stops_colon ys), scan_arises hf]
    rfl

/-! ## Templates -/

/-- The fault of the marker at a byte of a template, as an error. -/
def Fault.errorAt (template : String) (position : Nat) : Fault → TemplateError
  | .emptyName => .emptyName template position
  | .invalidName run => .invalidName template (String.ofList run)
  | .unclosedConstraint run => .unclosedConstraint template (String.ofList run)
  | .duplicateName run => .duplicateName template (String.ofList run)

/-- The text in front of a marker at byte `position` is a template, and the error says what is wrong
with the marker where the names of that template are bound. -/
def FaultyAt (text : String) (e : TemplateError) (position : Nat) : Prop :=
  ∃ (before after : String) (front : PathTemplate) (f : Fault),
    text = before ++ ":" ++ after ∧ position = before.utf8ByteSize ∧ parse before = .ok front ∧
      f.Arises (front.names.map String.toList) after.toList ∧ e = f.errorAt text position

theorem toList_marked (before after : String) :
    (before ++ ":" ++ after).toList = before.toList ++ ':' :: after.toList := by
  rw [String.toList_append, String.toList_append, List.append_assoc]
  rfl

theorem error_eq_errorAt (f : Fault) (before after : String) :
    f.error (before ++ ":" ++ after) (after.toList.length + 1) =
      f.errorAt (before ++ ":" ++ after) before.utf8ByteSize := by
  have hfront : (before ++ ":" ++ after).toList.take
      ((before ++ ":" ++ after).length - (after.toList.length + 1)) = before.toList := by
    rw [← String.length_toList, toList_marked, List.length_append, List.length_cons,
      Nat.add_sub_cancel, List.take_left]
  cases f with
  | emptyName => rw [Fault.error, Fault.errorAt, hfront, String.ofList_toList]
  | invalidName run => rfl
  | unclosedConstraint run => rfl
  | duplicateName run => rfl

theorem mem_boundNames_parse {text : String} {t : PathTemplate} (h : parse text = .ok t) :
    ∃ ps, scan [] [] text.toList = .ok ps ∧ t.names.map String.toList = boundNames ps := by
  obtain ⟨ps, hps, rfl⟩ := parse_iff_scan.1 h
  refine ⟨ps, hps, ?_⟩
  rw [names, names_segments, List.map_map]
  exact (List.map_congr_left fun n _ => String.toList_ofList).trans (List.map_id _)

/-- Where the marker is that ends the reading. -/
theorem scan_of_arises {before after : String} {front : PathTemplate} {f : Fault}
    (hfront : parse before = .ok front)
    (hf : f.Arises (front.names.map String.toList) after.toList) :
    scan [] [] (before ++ ":" ++ after).toList = .error (f, after.toList.length + 1) := by
  obtain ⟨ps, hps, hnames⟩ := mem_boundNames_parse hfront
  rw [toList_marked]
  refine scan_error_iff.2 ⟨before.toList, after.toList, ps, rfl, rfl, hps, ?_⟩
  refine (Fault.Arises.congr fun n => ?_).1 hf
  rw [hnames]
  simp

theorem FaultyAt.parse_eq {text : String} {e : TemplateError} {position : Nat}
    (h : FaultyAt text e position) : parse text = .error e := by
  obtain ⟨before, after, front, f, rfl, rfl, hfront, hf, rfl⟩ := h
  refine parse_error_iff_scan.2 ⟨f, _, scan_of_arises hfront hf, ?_⟩
  exact (error_eq_errorAt f before after).symm

/-- The characters that are left where the reading ends give the marker away. -/
theorem FaultyAt.unique {text : String} {e e' : TemplateError} {p p' : Nat}
    (h : FaultyAt text e p) (h' : FaultyAt text e' p') : p = p' := by
  obtain ⟨before, after, front, f, htext, rfl, hfront, hf, -⟩ := h
  obtain ⟨before', after', front', f', htext', rfl, hfront', hf', -⟩ := h'
  have hscan := scan_of_arises hfront hf
  rw [← htext, htext', scan_of_arises hfront' hf'] at hscan
  have hlength : after'.toList.length = after.toList.length := by
    have hleft := congrArg Prod.snd (Except.error.inj hscan)
    simpa using hleft
  have hchars : before.toList ++ ':' :: after.toList = before'.toList ++ ':' :: after'.toList := by
    rw [← toList_marked, ← toList_marked, ← htext, htext']
  obtain ⟨hbefore, -⟩ := List.append_inj' hchars (by simp [hlength])
  rw [String.toList_inj.1 hbefore]

theorem exists_faultyAt {text : String} {e : TemplateError} (h : parse text = .error e) :
    ∃ position, FaultyAt text e position := by
  obtain ⟨f, left, hscan, rfl⟩ := parse_error_iff_scan.1 h
  obtain ⟨xs, ys, ps, htext, rfl, hps, hf⟩ := scan_error_iff.1 hscan
  obtain rfl : text = String.ofList xs ++ ":" ++ String.ofList ys := by
    rw [← String.toList_inj, toList_marked, String.toList_ofList, String.toList_ofList, htext]
  have hfront : parse (String.ofList xs) = .ok ⟨String.ofList xs, ps.map Piece.segment⟩ := by
    refine parse_iff_scan.2 ⟨ps, ?_, rfl⟩
    rwa [String.toList_ofList]
  refine ⟨_, String.ofList xs, String.ofList ys, _, f, rfl, rfl, hfront, ?_, ?_⟩
  · rw [String.toList_ofList]
    refine (Fault.Arises.congr fun n => ?_).1 hf
    rw [names, names_segments]
    simp
  · have herror := error_eq_errorAt f (String.ofList xs) (String.ofList ys)
    rwa [String.toList_ofList] at herror

/-- A template is refused with an error just if that is the error of one of its markers whose front
is a template, and then there is one such marker. -/
theorem parse_eq_error_iff {text : String} {e : TemplateError} :
    parse text = .error e ↔ ∃! position, FaultyAt text e position := by
  constructor
  · intro h
    obtain ⟨position, hfaulty⟩ := exists_faultyAt h
    exact ⟨position, hfaulty, fun p hp => hp.unique hfaulty⟩
  · rintro ⟨position, hfaulty, -⟩
    exact hfaulty.parse_eq

/-- The marker stands behind a character of two bytes. -/
example : parse "/é/:/:id/:" = .error (.emptyName "/é/:/:id/:" 4) := by cbv

end PathTemplate

end TypedRoutes
