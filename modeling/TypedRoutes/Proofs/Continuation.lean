import TypedRoutes.Proofs.Joining
import TypedRoutes.Proofs.Template

/-!
# Reading on

* `boundNames` : the names of the parameters among some pieces;
* `glue` : pieces behind pieces, where two texts that meet are one;
* `scan_append` : behind a text that was read, reading goes on with its names bound;
* `scan_of_append_bare` : a text is read if it is with slashes at the end;
* `scan_nil_iff` : names that are bound in front do not matter but for those that are met again;
* `parse_iff_scan`, `parse_error_iff_scan` : reading a template is reading its characters.
-/

namespace TypedRoutes

open Text (isNameChar isPlainIdentifier)

/-! ## What may stand behind a marker -/

theorem stops_cons {c : Char} (hopen : c ≠ '(') (hname : isNameChar c = false) (cs : List Char) :
    Stops (c :: cs) := by
  rintro d ⟨⟩
  exact ⟨hopen, hname⟩

theorem stops_slash (cs : List Char) : Stops ('/' :: cs) :=
  stops_cons (by decide) (by decide) cs

theorem stops_colon (cs : List Char) : Stops (':' :: cs) :=
  stops_cons (by decide) (by decide) cs

theorem stops_of_bare {cs : List Char} (h : Bare cs) : Stops cs := by
  intro c hc
  obtain rfl := bare_iff.1 h c (List.mem_of_mem_head? hc)
  decide

theorem Stops.append {xs ys : List Char} (hxs : Stops xs) (hys : Stops ys) : Stops (xs ++ ys) := by
  cases xs with
  | nil => exact hys
  | cons c cs => exact hxs

theorem Stops.of_append {xs ys : List Char} (h : Stops (xs ++ ys)) : Stops xs := by
  cases xs with
  | nil => simp [Stops]
  | cons c cs => exact h

namespace PathTemplate

section

variable {name rest ys : List Char} {k : Option (List Char)}

theorem Marks.append (h : Marks name k rest) (hys : Stops ys) : Marks name k (rest ++ ys) :=
  ⟨h.name, h.closed, fun hk => (h.stops hk).append hys⟩

theorem Marks.of_append (h : Marks name k (rest ++ ys)) : Marks name k rest :=
  ⟨h.name, h.closed, fun hk => (h.stops hk).of_append⟩

/-- A marked name and its constraint do not end in a slash. -/
theorem getLast_marks (h : Marks name k rest) :
    ∀ c ∈ (name ++ writtenConstraint k).getLast?, c ≠ '/' := by
  cases k with
  | some b =>
    have hlast : (name ++ writtenConstraint (some b)).getLast? = some ')' := by
      rw [writtenConstraint, ← List.cons_append, ← List.append_assoc, List.getLast?_concat]
    rintro c hc rfl
    rw [hlast] at hc
    cases hc
  | none =>
    rw [writtenConstraint, List.append_nil]
    cases name with
    | nil => simp
    | cons d ds =>
      rintro c hc rfl
      have hchar := (isPlainIdentifier_cons.1 h.name).2 '/' (List.mem_of_mem_getLast? hc)
      exact absurd hchar (by decide)

/-- Slashes at the end are no part of a marked name and its constraint. -/
theorem marks_split {xs ss : List Char} (hss : Bare ss) (hmarks : Marks name k rest)
    (heq : xs ++ ss = name ++ writtenConstraint k ++ rest) :
    ∃ rest', xs = name ++ writtenConstraint k ++ rest' ∧ rest = rest' ++ ss := by
  rcases List.append_eq_append_iff.1 heq with ⟨cut, hcut, hss'⟩ | ⟨rest', hxs, hrest⟩
  · cases hlast : cut.getLast? with
    | none =>
      obtain rfl := List.getLast?_eq_none_iff.1 hlast
      exact ⟨[], by rw [hcut, List.append_nil, List.append_nil], by rw [hss']; rfl⟩
    | some c =>
      have hslash : c = '/' := by
        refine bare_iff.1 hss c ?_
        rw [hss']
        exact List.mem_append_left rest (List.mem_of_getLast? hlast)
      refine absurd hslash (getLast_marks hmarks c ?_)
      rw [hcut, List.getLast?_append, hlast]
      rfl
  · exact ⟨rest', hxs, hrest⟩

end

/-! ## Pieces behind pieces -/

def Piece.name? : Piece → Option (List Char)
  | .text _ => none
  | .param name _ => some name

/-- The names of the parameters among some pieces. -/
def boundNames (ps : List Piece) : List (List Char) :=
  ps.filterMap Piece.name?

@[simp]
theorem boundNames_param (name : List Char) (k : Option (List Char)) (ps : List Piece) :
    boundNames (.param name k :: ps) = name :: boundNames ps :=
  rfl

@[simp]
theorem boundNames_textBefore (lit : List Char) : boundNames (textBefore lit) = [] := by
  cases lit <;> rfl

@[simp]
theorem boundNames_append (ps qs : List Piece) :
    boundNames (ps ++ qs) = boundNames ps ++ boundNames qs :=
  List.filterMap_append

theorem names_segments (ps : List Piece) :
    (ps.map Piece.segment).filterMap Segment.name? = (boundNames ps).map String.ofList := by
  rw [boundNames, List.filterMap_map, List.map_filterMap]
  congr 1
  funext p
  cases p <;> rfl

/-- Pieces behind pieces. A text at the end of the first and one in front of the others are one. -/
def glue : List Piece → List Piece → List Piece
  | [], qs => qs
  | [.text xs], .text ys :: qs => .text (xs ++ ys) :: qs
  | p :: ps, qs => p :: glue ps qs

theorem glue_param (name : List Char) (k : Option (List Char)) (ps qs : List Piece) :
    glue (.param name k :: ps) qs = .param name k :: glue ps qs := by
  rw [glue]
  simp

theorem glue_textBefore_param (lit name : List Char) (k : Option (List Char))
    (ps qs : List Piece) :
    glue (textBefore lit ++ .param name k :: ps) qs =
      textBefore lit ++ .param name k :: glue ps qs := by
  cases lit with
  | nil => exact glue_param name k ps qs
  | cons c lit => simp [textBefore, glue]

theorem glue_textBefore_nil (lit : List Char) : glue (textBefore lit) [] = textBefore lit := by
  cases lit <;> simp [textBefore, glue]

/-- The text read last may be put in front afterwards, one character at a time. -/
theorem glue_textBefore_cons (c : Char) (lit : List Char) (ps : List Piece) :
    glue (textBefore (c :: lit)) ps = glue (textBefore lit) (glue (textBefore [c]) ps) := by
  rcases ps with _ | ⟨cs | ⟨name, k⟩, ps⟩ <;> cases lit <;> simp [textBefore, glue]

/-- Where a text yields what its two halves yield, glued pieces yield what both lists of them do. -/
theorem flatMap_glue {α : Type} {f : Piece → List α}
    (hf : ∀ xs ys, f (.text (xs ++ ys)) = f (.text xs) ++ f (.text ys)) (ps qs : List Piece) :
    (glue ps qs).flatMap f = ps.flatMap f ++ qs.flatMap f := by
  fun_induction glue ps qs with
  | case1 qs => rfl
  | case2 xs ys qs => simp [hf]
  | case3 p ps qs _ ih => simp [ih]

theorem boundNames_eq_flatMap (ps : List Piece) :
    boundNames ps = ps.flatMap fun p => p.name?.toList :=
  List.filterMap_eq_flatMap_toList Piece.name? ps

theorem boundNames_glue (ps qs : List Piece) :
    boundNames (glue ps qs) = boundNames ps ++ boundNames qs := by
  simp only [boundNames_eq_flatMap]
  apply flatMap_glue
  intro xs ys
  rfl

/-! ## Reading behind a text -/

/-- The text read last ends up in front of what is read next. -/
theorem scan_eq_glue (lit : List Char) (seen : List (List Char)) (cs : List Char) :
    scan lit seen cs = glue (textBefore lit) <$> scan [] seen cs := by
  induction cs generalizing lit with
  | nil =>
    rw [scan.eq_1, scan.eq_1]
    exact congrArg Except.ok (glue_textBefore_nil lit).symm
  | cons c cs ih =>
    by_cases hc : c = ':'
    · subst hc
      rcases marks_or_arises seen cs with ⟨name, k, rest, rfl, hmarks, hseen⟩ | ⟨f, hf⟩
      · rw [scan_marker hmarks hseen, scan_marker hmarks hseen]
        cases scan [] (name :: seen) rest with
        | error e => rfl
        | ok ps =>
          have hglue : glue (textBefore lit) (.param name k :: ps) =
              textBefore lit ++ .param name k :: ps := by
            cases lit <;> simp [textBefore, glue]
          exact congrArg Except.ok hglue.symm
      · rw [scan_arises hf, scan_arises hf]
        rfl
    · rw [scan, if_neg hc, ih (c :: lit), scan, if_neg hc, ih [c]]
      cases scan [] seen cs with
      | error e => rfl
      | ok ps => exact congrArg Except.ok (glue_textBefore_cons c lit ps)

/-- Behind a text that was read, reading goes on with its names bound. -/
theorem scan_append {lit xs ys : List Char} {seen : List (List Char)} {ps : List Piece}
    (h : scan lit seen xs = .ok ps) (hys : Stops ys) :
    scan lit seen (xs ++ ys) = glue ps <$> scan [] ((boundNames ps).reverse ++ seen) ys := by
  -- on the length, since a marker takes its name and constraint along
  induction hlength : xs.length using Nat.strongRecOn generalizing xs lit seen ps with
  | ind n ih =>
    subst hlength
    cases xs with
    | nil =>
      rw [scan.eq_1] at h
      obtain rfl : textBefore lit = ps := Except.ok.inj h
      rw [boundNames_textBefore]
      exact scan_eq_glue lit seen ys
    | cons c xs =>
      rw [List.cons_append]
      by_cases hc : c = ':'
      · subst hc
        obtain ⟨name, k, rest, ps', rfl, hmarks, hseen, hrest, rfl⟩ := scan_marker_ok h
        have hshorter : rest.length < (':' :: (name ++ writtenConstraint k ++ rest)).length := by
          simp
          omega
        rw [List.append_assoc, scan_marker (hmarks.append hys) hseen, ih _ hshorter hrest rfl,
          boundNames_append, boundNames_textBefore, List.nil_append, boundNames_param,
          List.reverse_cons, List.append_assoc, List.singleton_append]
        cases scan [] ((boundNames ps').reverse ++ name :: seen) ys with
        | error e => rfl
        | ok qs => exact congrArg Except.ok (glue_textBefore_param lit name k ps' qs).symm
      · rw [scan, if_neg hc] at h
        rw [scan, if_neg hc]
        exact ih _ (by simp) h rfl

/-- A text is read if it is with slashes at the end. -/
theorem scan_of_append_bare {lit xs ss : List Char} {seen : List (List Char)} {ps : List Piece}
    (hss : Bare ss) (h : scan lit seen (xs ++ ss) = .ok ps) :
    ∃ qs, scan lit seen xs = .ok qs := by
  -- a constraint that is open at the end of `xs` is not closed by slashes (`marks_split`)
  induction hlength : xs.length using Nat.strongRecOn generalizing xs lit seen ps with
  | ind n ih =>
    subst hlength
    cases xs with
    | nil => exact ⟨_, scan.eq_1 lit seen⟩
    | cons c xs =>
      rw [List.cons_append] at h
      by_cases hc : c = ':'
      · subst hc
        obtain ⟨name, k, rest, ps', hread, hmarks, hseen, hps, -⟩ := scan_marker_ok h
        obtain ⟨rest', rfl, rfl⟩ := marks_split hss hmarks hread
        obtain ⟨qs, hqs⟩ := ih _ (by simp; omega) hps rfl
        rw [scan_marker hmarks.of_append hseen, hqs]
        exact ⟨_, rfl⟩
      · rw [scan, if_neg hc] at h ⊢
        exact ih _ (by simp) h rfl

/-- Reading characters is finding pieces that are written so. -/
theorem scan_ok_iff {cs : List Char} {seen : List (List Char)} {ps : List Piece} :
    scan [] seen cs = .ok ps ↔ ps.flatMap Piece.written = cs ∧ Readable seen ps := by
  constructor
  · intro h
    exact scan_ok h List.not_mem_nil
  · rintro ⟨rfl, h⟩
    exact scan_written h (Or.inl rfl)

theorem readable_iff {seen : List (List Char)} {ps : List Piece} :
    Readable seen ps ↔ Readable [] ps ∧ ∀ n ∈ boundNames ps, n ∉ seen := by
  have hfresh : (∀ n ∈ (ps.map Piece.segment).filterMap Segment.name?, n.toList ∉ seen) ↔
      ∀ n ∈ boundNames ps, n ∉ seen := by
    rw [names_segments]
    simp
  constructor
  · rintro ⟨hcanonical, hsealed, hseen⟩
    exact ⟨⟨hcanonical, hsealed, by simp⟩, hfresh.1 hseen⟩
  · rintro ⟨⟨hcanonical, hsealed, -⟩, hseen⟩
    exact ⟨hcanonical, hsealed, hfresh.2 hseen⟩

/-- Names that are bound in front do not matter but for those that are met again. -/
theorem scan_nil_iff {cs : List Char} {seen : List (List Char)} {ps : List Piece} :
    scan [] seen cs = .ok ps ↔ scan [] [] cs = .ok ps ∧ ∀ n ∈ boundNames ps, n ∉ seen := by
  rw [scan_ok_iff, scan_ok_iff, readable_iff, and_assoc]

/-! ## Reading templates -/

theorem parse_iff_scan {text : String} {t : PathTemplate} :
    parse text = .ok t ↔
      ∃ ps, scan [] [] text.toList = .ok ps ∧ t = ⟨text, ps.map Piece.segment⟩ := by
  unfold parse
  cases scan [] [] text.toList with
  | ok ps => simp [eq_comm]
  | error e => simp

theorem parse_error_iff_scan {text : String} {e : TemplateError} :
    parse text = .error e ↔
      ∃ f left, scan [] [] text.toList = .error (f, left) ∧ e = f.error text left := by
  unfold parse
  cases scan [] [] text.toList with
  | ok ps => simp
  | error fault => simp [eq_comm, Prod.ext_iff]

end PathTemplate

end TypedRoutes
