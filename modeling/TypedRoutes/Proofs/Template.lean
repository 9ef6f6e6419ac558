import Mathlib
import TypedRoutes.Path.Template
import TypedRoutes.Proofs.Outcome

/-!
# Templates and their segments

* `unescaped`, `closes` : the characters of a constraint that count as parentheses, and whether
  these close each other; `EndsInEscape` : a backslash at the end that escapes nothing;
* `Canonical` : segments that a reader can tell apart in what they are written as;
* `constraint?_append`, `constraint?_ok` : the body of a constraint is closed in itself and escapes
  nothing behind it;
* `Fault.Arises` : what can be wrong with a parameter marker;
* `scan_marker`, `scan_arises`, `marks_or_arises` : what reading makes of a marker;
* `parse_eq_ok_iff` : reading undoes writing, and just canonical segments are read.
-/

namespace TypedRoutes

open Text (isNameChar isNameStart isPlainIdentifier)

/-! ## Constraints -/

/-- The characters that no backslash escapes, with a backslash at the end, which escapes nothing. -/
def unescaped : List Char → List Char
  | '\\' :: _ :: rest => unescaped rest
  | c :: rest => c :: unescaped rest
  | [] => []

/-- Whether parentheses close each other in turn where `depth` of them are open in front. -/
def closes : Nat → List Char → Bool
  | depth, [] => depth == 0
  | depth, c :: rest =>
    if c = '(' then closes (depth + 1) rest
    else if c = ')' then 0 < depth && closes (depth - 1) rest
    else closes depth rest

/-- The parentheses that are not escaped close each other. -/
def Balanced (cs : List Char) : Prop :=
  closes 0 (unescaped cs) = true

instance (cs : List Char) : Decidable (Balanced cs) :=
  inferInstanceAs (Decidable (_ = true))

/-- A backslash at the end that is not escaped itself. -/
def EndsInEscape (cs : List Char) : Prop :=
  (unescaped cs).getLast? = some '\\'

instance (cs : List Char) : Decidable (EndsInEscape cs) :=
  inferInstanceAs (Decidable (_ = some '\\'))

theorem unescaped_cons {c : Char} (h : c ≠ '\\') (rest : List Char) :
    unescaped (c :: rest) = c :: unescaped rest := by
  simp [unescaped, h]

theorem endsInEscape_cons {c : Char} (h : c ≠ '\\') (rest : List Char) :
    EndsInEscape (c :: rest) ↔ EndsInEscape rest := by
  unfold EndsInEscape
  rw [unescaped_cons h]
  cases unescaped rest with
  | nil => simp [h]
  | cons d ds => simp

theorem not_endsInEscape_nil : ¬EndsInEscape [] := by
  decide

theorem closes_close_succ (depth : Nat) (rest : List Char) :
    closes (depth + 1) (')' :: rest) = closes depth rest := by
  simp [closes]

theorem closes_cons {c : Char} (hclose : c ≠ ')') (depth : Nat) (rest : List Char) :
    closes depth (c :: rest) = closes (if c = '(' then depth + 1 else depth) rest := by
  by_cases hopen : c = '('
  · simp [closes, hopen]
  · simp [closes, hopen, hclose]

/-! ## Canonical segments -/

/-- A text that adds nothing to a name in front of it and opens no constraint there. -/
def Stops (cs : List Char) : Prop :=
  ∀ c ∈ cs.head?, c ≠ '(' ∧ isNameChar c = false

namespace Segment

/-- A text without a marker, or an identifier with parentheses that close each other. -/
def Valid : Segment → Prop
  | literal t => t ≠ "" ∧ ':' ∉ t.toList
  | parameter n k => isPlainIdentifier n = true ∧ ∀ c ∈ k, Balanced c.toList

/-- Two texts would be read as one, and a text may not extend a name. -/
def MayPrecede : Segment → Segment → Prop
  | literal _, literal _ => False
  | parameter _ none, literal t => Stops t.toList
  | _, _ => True

/-- The parenthesis behind a constraint is not escaped by a backslash at the end of it. -/
def Sealed : Segment → Prop
  | parameter _ (some c) => ¬EndsInEscape c.toList
  | _ => True

end Segment

/-- Segments whose parameters have different names, each told apart from the next. -/
structure Canonical (s : List Segment) : Prop where
  valid : ∀ a ∈ s, a.Valid
  apart : s.IsChain Segment.MayPrecede
  distinct : (s.filterMap Segment.name?).Nodup

/-- Segments as they are written in a template. -/
def unparse (s : List Segment) : String :=
  String.join (s.map Segment.unparse)

theorem canonical_nil : Canonical [] :=
  ⟨by simp, .nil, by simp⟩

theorem canonical_cons {a : Segment} {s : List Segment} :
    Canonical (a :: s) ↔
      a.Valid ∧ (∀ b ∈ s.head?, a.MayPrecede b) ∧ (∀ n ∈ a.name?, n ∉ s.filterMap Segment.name?) ∧
        Canonical s := by
  have hdistinct : ((a :: s).filterMap Segment.name?).Nodup ↔
      (∀ n ∈ a.name?, n ∉ s.filterMap Segment.name?) ∧ (s.filterMap Segment.name?).Nodup := by
    rw [List.filterMap_cons]
    cases a.name? with
    | none => simp
    | some n => simp [List.nodup_cons]
  constructor
  · rintro ⟨hvalid, hapart, hnames⟩
    obtain ⟨ha, hs⟩ := List.forall_mem_cons.1 hvalid
    obtain ⟨hnext, hrest⟩ := List.isChain_cons.1 hapart
    obtain ⟨hfresh, hnodup⟩ := hdistinct.1 hnames
    exact ⟨ha, hnext, hfresh, hs, hrest, hnodup⟩
  · rintro ⟨ha, hnext, hfresh, hs, hrest, hnodup⟩
    exact ⟨List.forall_mem_cons.2 ⟨ha, hs⟩, List.isChain_cons.2 ⟨hnext, hrest⟩,
      hdistinct.2 ⟨hfresh, hnodup⟩⟩

/-! ## Reading constraints -/

namespace PathTemplate

theorem constraint?_escape (depth : Nat) (c : Char) (rest : List Char) :
    constraint? depth ('\\' :: c :: rest) =
      (constraint? depth rest).map fun (b, r) => ('\\' :: c :: b, r) := by
  rw [constraint?]

theorem constraint?_close_zero (rest : List Char) :
    constraint? 0 (')' :: rest) = some ([], rest) := by
  simp [constraint?]

theorem constraint?_close_succ (depth : Nat) (rest : List Char) :
    constraint? (depth + 1) (')' :: rest) =
      (constraint? depth rest).map fun (b, r) => (')' :: b, r) := by
  simp [constraint?]

theorem constraint?_cons {c : Char} (hescape : c ≠ '\\') (hclose : c ≠ ')') (depth : Nat)
    (rest : List Char) :
    constraint? depth (c :: rest) =
      (constraint? (if c = '(' then depth + 1 else depth) rest).map fun (b, r) => (c :: b, r) := by
  cases depth <;> simp [constraint?, hescape, hclose]

/-- A body that is closed in itself is read up to the parenthesis behind it. -/
theorem constraint?_append {depth : Nat} {b : List Char} (r : List Char)
    (hclosed : closes depth (unescaped b) = true) (hescape : ¬EndsInEscape b) :
    constraint? depth (b ++ ')' :: r) = some (b, r) := by
  fun_induction unescaped b generalizing depth with
  | case1 c rest ih =>
    rw [List.cons_append, List.cons_append, constraint?_escape, ih hclosed hescape]
    rfl
  | case2 c rest hpair ih =>
    have hc : c ≠ '\\' := by
      rintro rfl
      cases rest with
      | nil => exact hescape rfl
      | cons d ds => exact hpair d ds rfl rfl
    rw [endsInEscape_cons hc] at hescape
    rw [List.cons_append]
    by_cases hclose : c = ')'
    · subst hclose
      cases depth with
      | zero => simp [closes] at hclosed
      | succ depth =>
        rw [closes_close_succ] at hclosed
        rw [constraint?_close_succ, ih hclosed hescape]
        rfl
    · rw [closes_cons hclose] at hclosed
      rw [constraint?_cons hc hclose, ih hclosed hescape]
      rfl
  | case3 =>
    obtain rfl : depth = 0 := by simpa [closes] using hclosed
    exact constraint?_close_zero r

/-- What is read of a constraint is closed in itself, and the closing parenthesis stands behind. -/
theorem constraint?_ok {depth : Nat} {cs b r : List Char}
    (h : constraint? depth cs = some (b, r)) :
    cs = b ++ ')' :: r ∧ closes depth (unescaped b) = true ∧ ¬EndsInEscape b := by
  fun_induction constraint? depth cs generalizing b r with
  | case1 depth c rest ih =>
    obtain ⟨⟨b', r'⟩, hrest, heq⟩ := Option.map_eq_some_iff.1 h
    cases heq
    obtain ⟨rfl, hclosed, hescape⟩ := ih hrest
    exact ⟨rfl, hclosed, hescape⟩
  | case2 => cases h
  | case3 rest =>
    cases h
    exact ⟨rfl, rfl, not_endsInEscape_nil⟩
  | case4 rest depth _ hescape ih =>
    obtain ⟨⟨b', r'⟩, hrest, heq⟩ := Option.map_eq_some_iff.1 h
    cases heq
    obtain ⟨rfl, hclosed, hend⟩ := ih hrest
    refine ⟨rfl, ?_, mt (endsInEscape_cons hescape b').1 hend⟩
    rw [unescaped_cons hescape, closes_close_succ]
    exact hclosed
  | case5 depth c rest _ hescape hclose ih =>
    obtain ⟨⟨b', r'⟩, hrest, heq⟩ := Option.map_eq_some_iff.1 h
    cases heq
    obtain ⟨rfl, hclosed, hend⟩ := ih hrest
    refine ⟨rfl, ?_, mt (endsInEscape_cons hescape b').1 hend⟩
    rw [unescaped_cons hescape, closes_cons hclose]
    exact hclosed
  | case6 => cases h

/-! ## Reading markers -/

/-- A constraint as it is written behind a name. -/
def writtenConstraint : Option (List Char) → List Char
  | none => []
  | some b => '(' :: (b ++ [')'])

/-- A name and a constraint that are read at a marker where `rest` follows. -/
structure Marks (name : List Char) (k : Option (List Char)) (rest : List Char) : Prop where
  name : isPlainIdentifier (String.ofList name) = true
  closed : ∀ b ∈ k, Balanced b ∧ ¬EndsInEscape b
  stops : k = none → Stops rest

/-- The text read last, last character first, as a piece. -/
def textBefore (lit : List Char) : List Piece :=
  if lit.isEmpty then [] else [.text lit.reverse]

theorem not_isDigit_of_isAlpha {c : Char} (h : c.isAlpha = true) : c.isDigit = false := by
  unfold Char.isAlpha Char.isUpper Char.isLower at h
  unfold Char.isDigit
  grind

theorem isNameStart_iff {c : Char} :
    isNameStart c = true ↔ isNameChar c = true ∧ c.isDigit = false := by
  unfold isNameStart isNameChar Char.isAlphanum
  by_cases halpha : c.isAlpha = true
  · simp [halpha, not_isDigit_of_isAlpha halpha]
  · by_cases hscore : c = '_'
    · subst hscore
      decide
    · simp [halpha, hscore]

theorem isPlainIdentifier_cons {c : Char} {cs : List Char} :
    isPlainIdentifier (String.ofList (c :: cs)) = true ↔
      c.isDigit = false ∧ ∀ d ∈ c :: cs, isNameChar d = true := by
  simp only [isPlainIdentifier, String.toList_ofList, Bool.and_eq_true, isNameStart_iff,
    List.all_eq_true, List.forall_mem_cons]
  tauto

theorem optConstraint_written {k : Option (List Char)} {rest : List Char}
    (hclosed : ∀ b ∈ k, Balanced b ∧ ¬EndsInEscape b) (hstops : k = none → Stops rest) :
    optConstraint (writtenConstraint k ++ rest) = some (k, rest) := by
  cases k with
  | none =>
    cases rest with
    | nil => rfl
    | cons c cs =>
      have hc : c ≠ '(' := (hstops rfl c rfl).1
      simp [writtenConstraint, optConstraint, hc]
  | some b =>
    obtain ⟨hbalanced, hescape⟩ := hclosed b rfl
    have h : constraint? 0 (b ++ ')' :: rest) = some (b, rest) :=
      constraint?_append rest hbalanced hescape
    simp [writtenConstraint, optConstraint, h]

theorem optConstraint_ok {cs rest : List Char} {k : Option (List Char)}
    (h : optConstraint cs = some (k, rest)) :
    cs = writtenConstraint k ++ rest ∧ (∀ b ∈ k, Balanced b ∧ ¬EndsInEscape b) ∧
      (k = none → rest.head? ≠ some '(') := by
  unfold optConstraint at h
  split at h
  · next cs' =>
    obtain ⟨⟨b, r⟩, hb, heq⟩ := Option.map_eq_some_iff.1 h
    cases heq
    obtain ⟨rfl, hclosed, hescape⟩ := constraint?_ok hb
    refine ⟨by simp [writtenConstraint], ?_, by simp⟩
    rintro b' ⟨⟩
    exact ⟨hclosed, hescape⟩
  · next hopen =>
    cases h
    refine ⟨rfl, by simp, fun _ hhead => ?_⟩
    obtain ⟨cs', rfl⟩ := List.head?_eq_some_iff.1 hhead
    exact hopen cs' rfl

/-- A name ends where a constraint or a text that does not extend it follows. -/
theorem head_written_stops {k : Option (List Char)} {rest : List Char}
    (hstops : k = none → Stops rest) :
    ∀ c ∈ (writtenConstraint k ++ rest).head?, isNameChar c = false := by
  cases k with
  | none => exact fun c hc => (hstops rfl c hc).2
  | some b =>
    rintro c ⟨⟩
    decide

theorem takeWhile_append_of_head {p : Char → Bool} {xs ys : List Char}
    (hxs : ∀ c ∈ xs, p c = true) (hys : ∀ c ∈ ys.head?, p c = false) :
    (xs ++ ys).takeWhile p = xs ∧ (xs ++ ys).dropWhile p = ys := by
  rw [List.takeWhile_append_of_pos hxs, List.dropWhile_append_of_pos hxs]
  cases ys with
  | nil => simp
  | cons c cs =>
    have hc := hys c rfl
    simp [hc]

/-- What is read where a marker stands in front of a name that has not been bound. -/
theorem scan_marker {name : List Char} {k : Option (List Char)} {rest : List Char}
    (h : Marks name k rest) {seen : List (List Char)} (hseen : name ∉ seen) (lit : List Char) :
    scan lit seen (':' :: (name ++ writtenConstraint k ++ rest)) = do
      let ps ← scan [] (name :: seen) rest
      return textBefore lit ++ .param name k :: ps := by
  cases name with
  | nil => exact absurd h.name (by decide)
  | cons d ds =>
    obtain ⟨hdigit, hname⟩ := isPlainIdentifier_cons.1 h.name
    obtain ⟨htake, hdrop⟩ := takeWhile_append_of_head hname (head_written_stops h.stops)
    have hconstraint := optConstraint_written h.closed h.stops
    rw [List.append_assoc, scan, if_pos rfl]
    simp only [htake, hdigit, Bool.false_eq_true, ↓reduceIte]
    split
    · next hnone =>
      rw [hdrop, hconstraint] at hnone
      cases hnone
    · next k' rest' hsome =>
      rw [hdrop, hconstraint] at hsome
      cases hsome
      rw [if_neg hseen]
      rfl

/-- The longest run of name characters in front of a text, and what stands behind it. -/
structure NameRun (text run behind : List Char) : Prop where
  split : text = run ++ behind
  inside : ∀ c ∈ run, isNameChar c = true
  ends : ∀ c ∈ behind.head?, isNameChar c = false

theorem nameRun_takeWhile (cs : List Char) :
    NameRun cs (cs.takeWhile isNameChar) (cs.dropWhile isNameChar) := by
  refine ⟨List.takeWhile_append_dropWhile.symm, fun c hc => List.mem_takeWhile_imp hc, ?_⟩
  intro c hc
  have hhead := List.head?_dropWhile_not isNameChar cs
  rwa [show (cs.dropWhile isNameChar).head? = some c from hc] at hhead

/-- A constraint is opened, and no parenthesis that is not escaped closes it. -/
def LeftOpen (behind : List Char) : Prop :=
  ∃ inner, behind = '(' :: inner ∧
    ¬∃ body rest, inner = body ++ ')' :: rest ∧ Balanced body ∧ ¬EndsInEscape body

theorem optConstraint_eq_none {cs : List Char} : optConstraint cs = none ↔ LeftOpen cs := by
  constructor
  · intro h
    unfold optConstraint at h
    split at h
    · next inner =>
      refine ⟨inner, rfl, ?_⟩
      rintro ⟨body, rest, rfl, hbalanced, hescape⟩
      rw [constraint?_append rest hbalanced hescape] at h
      cases h
    · cases h
  · rintro ⟨inner, rfl, hopen⟩
    apply Option.map_eq_none_iff.2
    apply Option.eq_none_iff_forall_not_mem.2
    rintro ⟨body, rest⟩ h
    obtain ⟨hinner, hclosed, hescape⟩ := constraint?_ok h
    exact hopen ⟨body, rest, hinner, hclosed, hescape⟩

/-- A marker in front of a text has a fault where the names in `seen` are bound. Each of the faults
excludes those above it. -/
def Fault.Arises (seen : List (List Char)) (text : List Char) : Fault → Prop
  | .emptyName => NameRun text [] text
  | .invalidName run => ∃ behind, NameRun text run behind ∧ ∃ c ∈ run.head?, c.isDigit = true
  | .unclosedConstraint run => ∃ behind, NameRun text run behind ∧
      isPlainIdentifier (String.ofList run) = true ∧ LeftOpen behind
  | .duplicateName run => ∃ behind, NameRun text run behind ∧
      isPlainIdentifier (String.ofList run) = true ∧ ¬LeftOpen behind ∧ run ∈ seen

/-- A marker that has a fault ends the reading. -/
theorem scan_arises {f : Fault} {seen : List (List Char)} {text : List Char}
    (h : f.Arises seen text) (lit : List Char) :
    scan lit seen (':' :: text) = .error (f, text.length + 1) := by
  have hcut : ∀ {run behind}, NameRun text run behind →
      text.takeWhile isNameChar = run ∧ text.dropWhile isNameChar = behind := by
    intro run behind hrun
    rw [hrun.split]
    exact takeWhile_append_of_head hrun.inside hrun.ends
  have hname : ∀ {run}, isPlainIdentifier (String.ofList run) = true →
      ∃ d ds, run = d :: ds ∧ d.isDigit = false := by
    intro run hplain
    cases run with
    | nil => exact absurd hplain (by decide)
    | cons d ds => exact ⟨d, ds, rfl, (isPlainIdentifier_cons.1 hplain).1⟩
  rw [scan, if_pos rfl]
  cases f with
  | emptyName =>
    simp only [(hcut h).1]
  | invalidName run =>
    obtain ⟨behind, hrun, c, hc, hdigit⟩ := h
    obtain ⟨ds, rfl⟩ := List.head?_eq_some_iff.1 hc
    simp only [(hcut hrun).1, hdigit, ↓reduceIte]
  | unclosedConstraint run =>
    obtain ⟨behind, hrun, hplain, hopen⟩ := h
    obtain ⟨d, ds, rfl, hdigit⟩ := hname hplain
    simp only [(hcut hrun).1, hdigit, Bool.false_eq_true, ↓reduceIte]
    split
    · rfl
    · next hsome =>
      rw [(hcut hrun).2, optConstraint_eq_none.2 hopen] at hsome
      cases hsome
  | duplicateName run =>
    obtain ⟨behind, hrun, hplain, hclosed, hseen⟩ := h
    obtain ⟨d, ds, rfl, hdigit⟩ := hname hplain
    simp only [(hcut hrun).1, hdigit, Bool.false_eq_true, ↓reduceIte]
    split
    · next hnone =>
      rw [(hcut hrun).2] at hnone
      exact absurd (optConstraint_eq_none.1 hnone) hclosed
    · rw [if_pos hseen]

/-- A marker is read or has a fault. -/
theorem marks_or_arises (seen : List (List Char)) (text : List Char) :
    (∃ name k rest, text = name ++ writtenConstraint k ++ rest ∧ Marks name k rest ∧
      name ∉ seen) ∨ ∃ f : Fault, f.Arises seen text := by
  have hrun := nameRun_takeWhile text
  generalize text.takeWhile isNameChar = run at hrun
  generalize text.dropWhile isNameChar = behind at hrun
  obtain ⟨rfl, hinside, hends⟩ := hrun
  cases run with
  | nil => exact Or.inr ⟨.emptyName, rfl, hinside, hends⟩
  | cons d ds =>
    by_cases hdigit : d.isDigit = true
    · exact Or.inr ⟨.invalidName (d :: ds), behind, ⟨rfl, hinside, hends⟩, d, rfl, hdigit⟩
    have hplain : isPlainIdentifier (String.ofList (d :: ds)) = true :=
      isPlainIdentifier_cons.2 ⟨by simpa using hdigit, hinside⟩
    cases hconstraint : optConstraint behind with
    | none =>
      exact Or.inr ⟨.unclosedConstraint (d :: ds), behind, ⟨rfl, hinside, hends⟩, hplain,
        optConstraint_eq_none.1 hconstraint⟩
    | some read =>
      obtain ⟨k, rest⟩ := read
      by_cases hseen : d :: ds ∈ seen
      · have hclosed : ¬LeftOpen behind := by
          rw [← optConstraint_eq_none, hconstraint]
          simp
        exact Or.inr ⟨.duplicateName (d :: ds), behind, ⟨rfl, hinside, hends⟩, hplain, hclosed,
          hseen⟩
      · obtain ⟨rfl, hclosed, hopen⟩ := optConstraint_ok hconstraint
        refine Or.inl ⟨d :: ds, k, rest, by rw [List.append_assoc], ⟨hplain, hclosed, ?_⟩, hseen⟩
        rintro rfl c hc
        exact ⟨fun heq => hopen rfl (heq ▸ hc), hends c hc⟩

/-- What stands behind a marker that has been read. -/
theorem scan_marker_ok {lit cs : List Char} {seen : List (List Char)} {ps : List Piece}
    (h : scan lit seen (':' :: cs) = .ok ps) :
    ∃ name k rest ps', cs = name ++ writtenConstraint k ++ rest ∧ Marks name k rest ∧
      name ∉ seen ∧ scan [] (name :: seen) rest = .ok ps' ∧
      ps = textBefore lit ++ .param name k :: ps' := by
  rcases marks_or_arises seen cs with ⟨name, k, rest, rfl, hmarks, hseen⟩ | ⟨f, hf⟩
  · rw [scan_marker hmarks hseen] at h
    obtain ⟨ps', hps, h⟩ := bind_eq_ok.1 h
    exact ⟨name, k, rest, ps', rfl, hmarks, hseen, hps, (pure_eq_ok.1 h).symm⟩
  · rw [scan_arises hf] at h
    cases h

/-! ## Reading templates -/

/-- A piece as it is written in a template. -/
def Piece.written : Piece → List Char
  | .text cs => cs
  | .param name k => ':' :: (name ++ writtenConstraint k)

theorem toList_unparse_segment (p : Piece) : p.segment.unparse.toList = p.written := by
  cases p with
  | text cs => simp [Piece.segment, Segment.unparse, Piece.written]
  | param name k =>
    cases k with
    | none => simp [Piece.segment, Segment.unparse, Piece.written, writtenConstraint]
    | some b => simp [Piece.segment, Segment.unparse, Piece.written, writtenConstraint]

theorem toList_unparse (ps : List Piece) :
    (unparse (ps.map Piece.segment)).toList = ps.flatMap Piece.written := by
  rw [unparse, String.toList_join, List.map_map, List.flatMap_map]
  exact List.flatMap_congr fun p _ => toList_unparse_segment p

/-- Every list of segments is one of pieces. -/
theorem exists_pieces (s : List Segment) : ∃ ps : List Piece, ps.map Piece.segment = s := by
  induction s with
  | nil => exact ⟨[], rfl⟩
  | cons a s ih =>
    obtain ⟨ps, rfl⟩ := ih
    cases a with
    | literal t => exact ⟨.text t.toList :: ps, by simp [Piece.segment]⟩
    | parameter n k => exact ⟨.param n.toList (k.map String.toList) :: ps, by
        cases k <;> simp [Piece.segment]⟩

/-- Pieces that can be read where the names in `seen` are bound. -/
structure Readable (seen : List (List Char)) (ps : List Piece) : Prop where
  canonical : Canonical (ps.map Piece.segment)
  isSealed : ∀ p ∈ ps, p.segment.Sealed
  fresh : ∀ n ∈ (ps.map Piece.segment).filterMap Segment.name?, n.toList ∉ seen

theorem readable_nil (seen : List (List Char)) : Readable seen [] :=
  ⟨canonical_nil, by simp, by simp⟩

theorem readable_text {seen : List (List Char)} {cs : List Char} {ps : List Piece} :
    Readable seen (.text cs :: ps) ↔
      (cs ≠ [] ∧ ':' ∉ cs) ∧ (∀ t, ps.head? ≠ some (.text t)) ∧ Readable seen ps := by
  have hvalid : (Piece.text cs).segment.Valid ↔ cs ≠ [] ∧ ':' ∉ cs := by
    simp [Piece.segment, Segment.Valid]
  have hnext : (∀ b ∈ (ps.map Piece.segment).head?, (Piece.text cs).segment.MayPrecede b) ↔
      ∀ t, ps.head? ≠ some (.text t) := by
    rcases ps with _ | ⟨_ | _, ps⟩ <;> simp [Piece.segment, Segment.MayPrecede]
  have hname : (Piece.text cs).segment.name? = none := rfl
  constructor
  · rintro ⟨hcanonical, hsealed, hfresh⟩
    rw [List.map_cons, canonical_cons, hvalid, hnext] at hcanonical
    obtain ⟨hcs, hhead, -, hps⟩ := hcanonical
    rw [List.map_cons, List.filterMap_cons_none hname] at hfresh
    exact ⟨hcs, hhead, hps, (List.forall_mem_cons.1 hsealed).2, hfresh⟩
  · rintro ⟨hcs, hhead, hps, hsealed, hfresh⟩
    refine ⟨?_, List.forall_mem_cons.2 ⟨trivial, hsealed⟩, ?_⟩
    · rw [List.map_cons, canonical_cons, hvalid, hnext, hname]
      exact ⟨hcs, hhead, by simp, hps⟩
    · rw [List.map_cons, List.filterMap_cons_none hname]
      exact hfresh

/-- The pieces behind a name do not extend it just if they do not begin with a text that does. -/
theorem stops_written {seen : List (List Char)} {ps : List Piece} (h : Readable seen ps) :
    Stops (ps.flatMap Piece.written) ↔ ∀ t, ps.head? = some (.text t) → Stops t := by
  rcases ps with _ | ⟨cs | ⟨name, k⟩, ps⟩
  · simp [Stops]
  · obtain ⟨⟨hne, -⟩, -, -⟩ := readable_text.1 h
    obtain ⟨c, cs, rfl⟩ := List.exists_cons_of_ne_nil hne
    simp [Piece.written, Stops]
  · simp [Piece.written, Stops]
    decide

theorem readable_param {seen : List (List Char)} {name : List Char} {k : Option (List Char)}
    {ps : List Piece} :
    Readable seen (.param name k :: ps) ↔
      Marks name k (ps.flatMap Piece.written) ∧ name ∉ seen ∧ Readable (name :: seen) ps := by
  have hvalid : (Piece.param name k).segment.Valid ↔
      isPlainIdentifier (String.ofList name) = true ∧ ∀ b ∈ k, Balanced b := by
    cases k <;> simp [Piece.segment, Segment.Valid]
  have hsealedParam : (Piece.param name k).segment.Sealed ↔ ∀ b ∈ k, ¬EndsInEscape b := by
    cases k <;> simp [Piece.segment, Segment.Sealed]
  have hnext : (∀ b ∈ (ps.map Piece.segment).head?, (Piece.param name k).segment.MayPrecede b) ↔
      (k = none → ∀ t, ps.head? = some (.text t) → Stops t) := by
    rcases ps with _ | ⟨_ | _, ps⟩ <;> cases k <;> simp [Piece.segment, Segment.MayPrecede]
  have hname : (Piece.param name k).segment.name? = some (String.ofList name) := rfl
  constructor
  · rintro ⟨hcanonical, hsealed, hfresh⟩
    rw [List.map_cons, canonical_cons, hvalid, hnext, hname] at hcanonical
    obtain ⟨⟨hident, hbalanced⟩, hhead, hother, hps⟩ := hcanonical
    obtain ⟨hparam, hsealed⟩ := List.forall_mem_cons.1 hsealed
    rw [List.map_cons, List.filterMap_cons_some hname] at hfresh
    obtain ⟨hseen, hfresh⟩ := List.forall_mem_cons.1 hfresh
    have hread : Readable (name :: seen) ps := by
      refine ⟨hps, hsealed, fun n hn hmem => ?_⟩
      rcases List.mem_cons.1 hmem with heq | hmem
      · have hn' : n = String.ofList name := by rw [← heq, String.ofList_toList]
        exact hother _ rfl (hn' ▸ hn)
      · exact hfresh n hn hmem
    refine ⟨⟨hident, fun b hb => ⟨hbalanced b hb, hsealedParam.1 hparam b hb⟩, fun hk => ?_⟩, ?_,
      hread⟩
    · exact (stops_written hread).2 (hhead hk)
    · rwa [String.toList_ofList] at hseen
  · rintro ⟨⟨hident, hclosed, hstops⟩, hseen, hread⟩
    have hother : String.ofList name ∉ (ps.map Piece.segment).filterMap Segment.name? := by
      intro hmem
      have hfresh := hread.fresh _ hmem
      rw [String.toList_ofList] at hfresh
      exact hfresh List.mem_cons_self
    refine ⟨?_, List.forall_mem_cons.2 ⟨?_, hread.isSealed⟩, ?_⟩
    · rw [List.map_cons, canonical_cons, hvalid, hnext, hname]
      refine ⟨⟨hident, fun b hb => (hclosed b hb).1⟩, fun hk => ?_, ?_, hread.canonical⟩
      · exact (stops_written hread).1 (hstops hk)
      · rintro n ⟨⟩
        exact hother
    · exact hsealedParam.2 fun b hb => (hclosed b hb).2
    · rw [List.map_cons, List.filterMap_cons_some hname, List.forall_mem_cons,
        String.toList_ofList]
      exact ⟨hseen, fun n hn hmem => hread.fresh n hn (List.mem_cons_of_mem _ hmem)⟩

/-- A text without a marker is kept for the piece that it ends up in. -/
theorem scan_append_text {cs : List Char} (hcs : ':' ∉ cs) (lit : List Char)
    (seen : List (List Char)) (rest : List Char) :
    scan lit seen (cs ++ rest) = scan (cs.reverse ++ lit) seen rest := by
  induction cs generalizing lit with
  | nil => rfl
  | cons c cs ih =>
    have hc : c ≠ ':' := fun heq => hcs (heq ▸ List.mem_cons_self)
    rw [List.cons_append, scan, if_neg hc, ih fun hmem => hcs (List.mem_cons_of_mem c hmem),
      List.reverse_cons, List.append_assoc]
    rfl

/-- A text without a marker is read as it stands. -/
theorem scan_unmarked {cs : List Char} (hcs : ':' ∉ cs) (seen : List (List Char)) :
    scan [] seen cs = .ok (textBefore cs.reverse) := by
  have hscan := scan_append_text hcs [] seen []
  rw [List.append_nil, List.append_nil, scan.eq_1] at hscan
  exact hscan

/-- Reading undoes writing. -/
theorem scan_written {ps : List Piece} {lit : List Char} {seen : List (List Char)}
    (h : Readable seen ps) (hlit : lit = [] ∨ ∀ t, ps.head? ≠ some (.text t)) :
    scan lit seen (ps.flatMap Piece.written) = .ok (textBefore lit ++ ps) := by
  induction ps generalizing lit seen with
  | nil =>
    rw [List.append_nil]
    exact scan.eq_1 lit seen
  | cons p ps ih =>
    rw [List.flatMap_cons]
    cases p with
    | text cs =>
      obtain ⟨⟨hne, hmarker⟩, hnext, hps⟩ := readable_text.1 h
      obtain rfl : lit = [] := hlit.resolve_right fun hhead => hhead cs rfl
      rw [Piece.written, scan_append_text hmarker, ih hps (Or.inr hnext)]
      simp [textBefore, hne]
    | param name k =>
      obtain ⟨hmarks, hseen, hps⟩ := readable_param.1 h
      rw [Piece.written, List.cons_append, scan_marker hmarks hseen, ih hps (Or.inl rfl)]
      rfl

theorem written_textBefore (lit : List Char) :
    (textBefore lit).flatMap Piece.written = lit.reverse := by
  cases lit <;> simp [textBefore, Piece.written]

theorem readable_textBefore {lit : List Char} {seen : List (List Char)} {ps : List Piece}
    (hlit : ':' ∉ lit) (hhead : ∀ t, ps.head? ≠ some (.text t)) (h : Readable seen ps) :
    Readable seen (textBefore lit ++ ps) := by
  cases lit with
  | nil => exact h
  | cons c cs =>
    have hmarker : ':' ∉ (c :: cs).reverse := fun hmem => hlit (List.mem_reverse.1 hmem)
    exact readable_text.2 ⟨⟨by simp, hmarker⟩, hhead, h⟩

/-- What is read can be read, and writing undoes reading. -/
theorem scan_ok {lit cs : List Char} {seen : List (List Char)} {ps : List Piece}
    (h : scan lit seen cs = .ok ps) (hlit : ':' ∉ lit) :
    ps.flatMap Piece.written = lit.reverse ++ cs ∧ Readable seen ps := by
  induction hlength : cs.length using Nat.strongRecOn generalizing lit cs seen ps with
  | ind n ih =>
    subst hlength
    cases cs with
    | nil =>
      rw [scan.eq_1] at h
      obtain rfl : textBefore lit = ps := Except.ok.inj h
      have hread := readable_textBefore hlit (by simp) (readable_nil seen)
      rw [List.append_nil] at hread
      exact ⟨by rw [written_textBefore, List.append_nil], hread⟩
    | cons c cs =>
      by_cases hc : c = ':'
      · subst hc
        obtain ⟨name, k, rest, ps', rfl, hmarks, hseen, hrest, rfl⟩ := scan_marker_ok h
        have hshorter : rest.length < (':' :: (name ++ writtenConstraint k ++ rest)).length := by
          simp
          omega
        obtain ⟨hwritten, hread⟩ := ih _ hshorter hrest List.not_mem_nil rfl
        obtain rfl : ps'.flatMap Piece.written = rest := hwritten
        refine ⟨?_, readable_textBefore hlit (by simp) (readable_param.2 ⟨hmarks, hseen, hread⟩)⟩
        rw [List.flatMap_append, written_textBefore, List.flatMap_cons]
        rfl
      · rw [scan, if_neg hc] at h
        have hlit' : ':' ∉ c :: lit := by
          intro hmem
          rcases List.mem_cons.1 hmem with heq | hmem
          · exact hc heq.symm
          · exact hlit hmem
        obtain ⟨hwritten, hread⟩ := ih _ (by simp) h hlit' rfl
        exact ⟨by rw [hwritten, List.reverse_cons, List.append_assoc]; rfl, hread⟩

/-- What has been read are canonical segments that are written as the text is. -/
theorem canonical_of_parse {text : String} {t : PathTemplate} (h : parse text = .ok t) :
    Canonical t.segments ∧ unparse t.segments = text := by
  unfold parse at h
  split at h
  · next ps hps =>
    cases h
    obtain ⟨hwritten, hread⟩ := scan_ok hps List.not_mem_nil
    refine ⟨hread.canonical, ?_⟩
    rw [← String.toList_inj, toList_unparse, hwritten]
    rfl
  · cases h

/-- Reading a template succeeds just with canonical segments that are written as the template is,
where no constraint escapes the parenthesis behind it. -/
theorem parse_eq_ok_iff {text : String} {t : PathTemplate} :
    parse text = .ok t ↔
      t.text = text ∧ unparse t.segments = text ∧ Canonical t.segments ∧
        ∀ a ∈ t.segments, a.Sealed := by
  constructor
  · intro h
    unfold parse at h
    split at h
    · next ps hps =>
      cases h
      obtain ⟨hwritten, hread⟩ := scan_ok hps List.not_mem_nil
      refine ⟨rfl, ?_, hread.canonical, by simpa using hread.isSealed⟩
      rw [← String.toList_inj, toList_unparse, hwritten]
      rfl
    · cases h
  · rintro ⟨rfl, hunparse, hcanonical, hsealed⟩
    obtain ⟨text, segments⟩ := t
    obtain ⟨ps, rfl⟩ := exists_pieces segments
    dsimp only at hunparse hcanonical hsealed ⊢
    subst hunparse
    have hread : Readable [] ps := ⟨hcanonical, by simpa using hsealed, by simp⟩
    have hscan := scan_written hread (Or.inl rfl)
    unfold parse
    rw [toList_unparse, hscan]
    rfl

/-- A backslash at the end of a constraint escapes the parenthesis behind it, so that these segments
cannot be read though the constraint holds no parenthesis. -/
theorem parse_unparse_trailing_escape :
    ¬∀ s : List Segment, Canonical s → parse (unparse s) = .ok ⟨unparse s, s⟩ := by
  intro h
  have hcanonical : Canonical [.parameter "a" (some "\\")] := by
    refine canonical_cons.2 ⟨⟨by decide, ?_⟩, by simp, by simp, canonical_nil⟩
    rintro c ⟨⟩
    decide
  have hfault : parse (unparse [.parameter "a" (some "\\")]) =
      .error (.unclosedConstraint ":a(\\)" "a") := by
    cbv
  rw [h _ hcanonical] at hfault
  cases hfault

end PathTemplate

end TypedRoutes
