import TypedRoutes.Proofs.Reading

/-!
# Types that are read back

* `barePath` : the code of a path of bare names; `takes_barePath` reads it;
* `ReadsTy` : code that is read as a type wherever a type ends behind it;
* `ReadsTy.bare`, `ReadsTy.generic_path`, `ReadsTy.reference`, … : one lemma for each form of type.

A reader gets two levels of the grammar for each token of what it reads.
-/

namespace TypedRoutes.Emission

open Syntax Code
open Parse (Takes Row ahead)

/-! ## Segments -/

/-- What may stand behind a segment without arguments. -/
def endsSegment (inExpr : Bool) (rest : Code) : Bool :=
  !(!inExpr && startsOp "<" rest && !startsOp "<=" rest && !startsOp "<<=" rest) &&
    !(startsOp "::" rest && startsOp "<" (rest.drop 2))

section Segments

variable {g : Grammar} {inExpr : Bool} {n : String} {rest : Code}

/-- The part of a segment behind its name. -/
def segmentAfter (g : Grammar) (inExpr : Bool) (name : String) : Parse Syntax.Segment := do
  if ← ahead fun ts =>
      (!inExpr && startsOp "<" ts && !startsOp "<=" ts && !startsOp "<<=" ts) ||
        (startsOp "::" ts && startsOp "<" (ts.drop 2)) then
    let _ ← Parse.op? "::"
    return .angle name (← g.angleArgs)
  else return .plain name

theorem takes_segment_ident {c : Code} {segment : Syntax.Segment} (h : isIdentifier n = true)
    (hafter : Takes (segmentAfter g inExpr n) c segment rest) :
    Takes (g.segment inExpr) (word n ++ c) segment rest := by
  have hno (w : String) (hw : isIdentifier w = false) :
      startsWord w (word n ++ c ++ rest) = false := startsWord_of_isIdentifier h hw
  refine .look (.no ?_ (.look (.no (hno "Self" (by decide)) (.bind (takes_ident h) hafter))))
  simp only [List.any_cons, List.any_nil, hno "super" (by decide), hno "self" (by decide),
    hno "crate" (by decide), hno "try" (by decide), Bool.or_false]

theorem takes_segment (hname : isPathName n = true) (hrest : endsSegment inExpr rest = true) :
    Takes (g.segment inExpr) (word n) (.plain n) rest := by
  have hplain : Takes (segmentAfter g inExpr n) [] (Syntax.Segment.plain n) rest := by
    refine .look (.no ?_ .pure)
    unfold endsSegment at hrest
    simp only [Bool.and_eq_true, Bool.not_eq_true'] at hrest
    simp only [List.nil_append, hrest, Bool.or_false]
  unfold isPathName at hname
  rcases Bool.or_eq_true_iff.1 hname with hident | hword
  · exact takes_segment_ident hident hplain
  · have hwords : n = "super" ∨ n = "self" ∨ n = "Self" ∨ n = "crate" := by simpa using hword
    rcases hwords with rfl | rfl | rfl | rfl
    · rfl
    · rfl
    · exact .look (.isFalse Bool.false_ne_true (.look (.isTrue rfl (.last takes_name hplain))))
    · rfl

end Segments

/-! ## Paths -/

/-- The code of a path of bare names. -/
def barePath (leading : Bool) (first : String) (names : List String) : Code :=
  (if leading then op "::" else []) ++ (word first ++ path names)

/-- What may stand behind a path of bare names. -/
def endsPath (inExpr : Bool) (rest : Code) : Bool :=
  !startsOp "::" rest && (inExpr || !startsOp "<" rest)

section Paths

variable {g : Grammar} {inExpr leading : Bool} {first : String} {names : List String} {rest : Code}

theorem endsSegment_of_endsPath (h : endsPath inExpr rest = true) :
    endsSegment inExpr rest = true := by
  unfold endsPath at h
  unfold endsSegment
  cases inExpr <;> simp_all

theorem endsSegment_path (h : endsSegment inExpr rest = true) :
    endsSegment inExpr (path names ++ rest) = true := by
  cases names with
  | nil => exact h
  | cons n names => cases inExpr <;> rfl

/-- Whether a further segment of a path stands ahead. -/
def segmentAhead (ts : List Token) : Bool :=
  startsOp "::" ts && !startsGroup .paren (ts.drop 2)

/-- Names behind the first one, in front of further segments. -/
theorem row_path {tail : Code} {segments : List Syntax.Segment}
    (hnames : ∀ n ∈ names, isPathName n = true) (htail : endsSegment inExpr tail = true)
    (h : Row segmentAhead (do Parse.op "::"; g.segment inExpr) rest tail segments) :
    Row segmentAhead (do Parse.op "::"; g.segment inExpr) rest (path names ++ tail)
      (names.map Syntax.Segment.plain ++ segments) := by
  induction names with
  | nil => exact h
  | cons n names ih =>
    have hcode : path (n :: names) ++ tail = op "::" ++ (word n ++ (path names ++ tail)) := by
      simp only [path, List.flatMap_cons, List.append_assoc]
    rw [hcode]
    refine .next rfl ?_ ?_ (ih fun m hm => hnames m (List.mem_cons_of_mem _ hm))
    · exact Parse.bind_eq_some.2 ⟨(), _, rfl,
        takes_segment (hnames n List.mem_cons_self) (endsSegment_path htail)⟩
    · have hop : (op "::").length = 2 := rfl
      simp only [List.length_append, hop]
      omega

theorem takes_leading (r : Code) :
    Takes (Parse.op? "::") (if leading then op "::" else []) leading (word first ++ r) := by
  cases leading with
  | true => rfl
  | false => exact if_neg fun h => Bool.false_ne_true (startsOp_ident.symm.trans h)

/-- A path of bare names in front of further segments. -/
theorem takes_barePath_row {tail : Code} {segments : List Syntax.Segment}
    (hfirst : isPathName first = true) (hnames : ∀ n ∈ names, isPathName n = true)
    (htail : endsSegment inExpr (tail ++ rest) = true)
    (h : Row segmentAhead (do Parse.op "::"; g.segment inExpr) rest (tail ++ rest) segments) :
    Takes (g.barePath inExpr) (barePath leading first names ++ tail)
      (.mk none 0 leading ((first :: names).map .plain ++ segments)) rest := by
  unfold barePath
  rw [List.append_assoc, List.append_assoc]
  refine .bind ?_ (.bind (takes_segment hfirst ?_) (.last (Row.takes_manyWhile ?_) .pure))
  · rw [List.append_assoc]
    exact takes_leading _
  · rw [List.append_assoc]
    exact endsSegment_path htail
  · rw [List.append_assoc]
    exact row_path hnames htail h

theorem takes_barePath (hfirst : isPathName first = true)
    (hnames : ∀ n ∈ names, isPathName n = true) (hrest : endsPath inExpr rest = true) :
    Takes (g.barePath inExpr) (barePath leading first names)
      (.mk none 0 leading ((first :: names).map .plain)) rest := by
  have hstop : segmentAhead rest = false := by
    unfold endsPath at hrest
    unfold segmentAhead
    simp_all
  have h : Takes (g.barePath inExpr) (barePath leading first names ++ [])
      (.mk none 0 leading ((first :: names).map .plain ++ [])) rest :=
    takes_barePath_row hfirst hnames (endsSegment_of_endsPath hrest) (.stop hstop)
  rwa [List.append_nil, List.append_nil] at h

end Paths

/-! ## Types -/

/-- What may stand behind a type. -/
def endsType (rest : Code) : Bool :=
  !startsOp "::" rest && !startsOp "<" rest && !startsOp "!" rest && !startsOp "+" rest &&
    !startsGroup .paren rest

/-- A token that a type begins with. -/
def beginsType : Token → Bool
  | .ident t => t ∉ ["true", "false", "mut"]
  | .punct c _ => c = ':' ∨ c = '&'
  | .group d _ => d ≠ .brace
  | _ => false

/-- Code that is read as a type. -/
structure ReadsTy (c : Code) (ty : Ty) : Prop where
  begins : ∃ t c', c = t :: c' ∧ beginsType t = true
  takes : ∀ {n : Nat} (plus : Bool) {rest : Code}, 2 * Token.countAll c ≤ n →
    endsType rest = true → Takes ((grammar n).readTy plus) c ty rest

section Types

variable {g : Grammar} {n : Nat} {c rest : Code} {ty : Ty}

theorem takes_callOf?_none (p : Path) (h : startsCall rest = false) :
    Takes (callOf? p) [] none rest := by
  unfold callOf?
  split
  · exact .whenAhead_none h
  · exact .pure

theorem takes_pathTy {leading plus : Bool} {segments : List Syntax.Segment}
    (h : Takes (g.barePath false) c (.mk none 0 leading segments) rest)
    (hangle : startsOp "<" (c ++ rest) = false) (hrest : endsType rest = true) :
    Takes (g.pathTy none plus) c (.path (.mk none 0 leading segments)) rest := by
  unfold endsType at hrest
  simp only [Bool.and_eq_true, Bool.not_eq_true'] at hrest
  obtain ⟨⟨⟨⟨-, -⟩, hcall⟩, hplus⟩, -⟩ := hrest
  have hqualified : Takes (g.qualifiedPath false) c (.mk none 0 leading segments) rest := by
    exact .skip (.no_op? hangle) h
  refine .last hqualified ?_
  refine .skip (takes_callOf?_none _ (by unfold startsCall; rw [List.nil_append, hcall]; rfl)) ?_
  cases plus
  · exact .pure
  · exact .look (.no hplus .pure)

/-- A type that begins with a name is a path. -/
theorem takes_readTy_name {t : String} {plus : Bool} (h : isPathName t = true)
    (hpath : Takes (g.pathTy none plus) (.ident t :: c) ty rest) :
    Takes (g.readTy plus) (.ident t :: c) ty rest := by
  have hno (w : String) (hw : isPathName w = false) :
      startsWord w (.ident t :: (c ++ rest)) = false := startsWord_of_isPathName h hw
  have hname : (startsIdent (.ident t :: (c ++ rest)) || ["super", "self", "Self", "crate"].any
      (startsWord · (.ident t :: (c ++ rest)))) = true := by
    unfold isPathName at h
    simpa [startsIdent, startsWord, or_assoc] using h
  refine .look (.skip (Takes.whenAhead_none (hno "for" (by decide))) (.look (.isFalse ?_
    (.isTrue hname hpath))))
  simp [List.cons_append, hno "fn" (by decide), hno "unsafe" (by decide), hno "extern" (by decide)]

/-- A path of bare names with or without arguments, from how it is read as a path. -/
theorem takes_readTy_path {leading plus : Bool} {first : String} {segments : List Syntax.Segment}
    (hfirst : isPathName first = true)
    (h : Takes (g.barePath false) ((if leading then op "::" else []) ++ (word first ++ c))
      (.mk none 0 leading segments) rest) (hrest : endsType rest = true) :
    Takes (g.readTy plus) ((if leading then op "::" else []) ++ (word first ++ c))
      (.path (.mk none 0 leading segments)) rest := by
  cases leading with
  | true => exact takes_pathTy h rfl hrest
  | false => exact takes_readTy_name hfirst (takes_pathTy h startsOp_ident hrest)

end Types

/-! ## Types in the forms that are emitted -/

section Begins

variable {t : Token} {rest : Code}

theorem not_starts_of_beginsType (rest : Code) (h : beginsType t = true) :
    startsLifetime (t :: rest) = false ∧ startsLit (t :: rest) = false ∧
      startsGroup .brace (t :: rest) = false ∧ startsOp ">" (t :: rest) = false ∧
      startsOp "?" (t :: rest) = false ∧ startsWord "mut" (t :: rest) = false := by
  cases t with
  | ident t =>
    have hwords : ¬t = "true" ∧ ¬t = "false" ∧ ¬t = "mut" := by simpa [beginsType] using h
    simp [startsLifetime, startsLit, startsGroup, startsWord, startsOp_ident, hwords]
  | punct c joint =>
    have hchars : c = ':' ∨ c = '&' := by simpa [beginsType] using h
    rcases hchars with rfl | rfl <;>
      simp [startsLifetime, startsLit, startsGroup, startsWord, startsOp, startsChars]
  | group d inner =>
    cases d with
    | brace => cases h
    | paren | bracket => exact ⟨rfl, rfl, rfl, rfl, rfl, rfl⟩
  | lifetime | literal => cases h

theorem not_dots_of_beginsType (rest : Code) (h : beginsType t = true) :
    startsOp "..." (t :: rest) = false := by
  cases t with
  | ident t => exact startsOp_ident
  | punct c joint =>
    have hchars : c = ':' ∨ c = '&' := by simpa [beginsType] using h
    rcases hchars with rfl | rfl <;> rfl
  | group d inner => rfl
  | lifetime | literal => cases h

end Begins

section Forms

variable {n : Nat} {c rest : Code} {ty : Ty} {leading : Bool} {first : String}
  {names : List String}

theorem ReadsTy.bare (hfirst : isPathName first = true) (hnames : ∀ m ∈ names, isPathName m = true) :
    ReadsTy (barePath leading first names)
      (.path (.mk none 0 leading ((first :: names).map .plain))) where
  begins := by
    cases leading with
    | true => exact ⟨_, _, rfl, rfl⟩
    | false =>
      refine ⟨_, _, rfl, ?_⟩
      have hno (w : String) (hw : isPathName w = false) : first ≠ w := by
        rintro rfl
        rw [hfirst] at hw
        cases hw
      simp [beginsType, hno "true" (by decide), hno "false" (by decide), hno "mut" (by decide)]
  takes plus _ _ hrest := by
    refine takes_readTy_path hfirst (takes_barePath hfirst hnames ?_) hrest
    unfold endsType at hrest
    unfold endsPath
    simp_all

/-- A generic argument in front of another one or of the end. -/
theorem ReadsTy.takes_genericArg (h : ReadsTy c ty) (hn : 2 * Token.countAll c ≤ n)
    (hrest : (∃ r, rest = op "," ++ r) ∨ ∃ r, rest = op ">" ++ r) :
    Takes (grammar (n + 1)).genericArg c (.type ty) rest := by
  obtain ⟨t, c', rfl, ht⟩ := h.begins
  obtain ⟨hlifetime, hlit, hbrace, -⟩ := not_starts_of_beginsType (c' ++ rest) ht
  have hends : endsType rest = true ∧ startsOp "=" rest = false ∧ startsOp ":" rest = false := by
    rcases hrest with ⟨r, rfl⟩ | ⟨r, rfl⟩ <;> exact ⟨rfl, rfl, rfl⟩
  obtain ⟨hends, hequals, hcolon⟩ := hends
  refine .look (.isFalse ?_ (.look (.isFalse ?_ (.last (h.takes true hn hends) ?_))))
  · simp [hlifetime]
  · simp [Grammar.genericArg.startsValue, hlit, hbrace]
  · split
    · refine .skip (.no_op? hequals) ?_
      refine .skip (.no_op? hcolon) .pure
    · exact .pure

/-- Types in angle brackets. -/
theorem takes_angleArgs {args : List Code} {tys : List Ty} (h : List.Forall₂ ReadsTy args tys)
    (hn : 2 * Token.countAll (Tokens.commaSeparated args) ≤ n) :
    Takes (grammar (n + 1)).angleArgs (op "<" ++ (Tokens.commaSeparated args ++ op ">"))
      (tys.map .type) rest := by
  refine .bind rfl (.bind (Parse.takes_commaUntil (fun rest => (∃ r, rest = op "," ++ r) ∨
    ∃ r, rest = op ">" ++ r) ?_ (fun _ => ⟨Or.inl ⟨_, rfl⟩, rfl⟩) (Or.inr ⟨_, rfl⟩) rfl)
    (.last rfl .pure))
  have hsmall : ∀ c ∈ args, 2 * Token.countAll c ≤ n := fun c hc => by
    have := countAll_le_commaSeparated hc
    omega
  refine List.forall₂_map_right_iff.2 (((List.forall₂_and_left _ _).2 ⟨hsmall, h⟩).imp ?_)
  rintro c ty ⟨hc, hreads⟩ behind hbehind
  obtain ⟨t, c', rfl, ht⟩ := hreads.begins
  exact ⟨hreads.takes_genericArg hc hbehind, (not_starts_of_beginsType _ ht).2.2.2.1⟩

/-- The last segment of a path with its arguments. -/
theorem takes_segment_angle {last : String} {args : List Code} {tys : List Ty}
    (hlast : isIdentifier last = true) (h : List.Forall₂ ReadsTy args tys)
    (hn : 2 * Token.countAll (Tokens.commaSeparated args) ≤ n) :
    Takes ((grammar (n + 1)).segment false)
      (word last ++ (op "<" ++ (Tokens.commaSeparated args ++ op ">")))
      (.angle last (tys.map .type)) rest := by
  refine takes_segment_ident hlast ?_
  refine .look (.isTrue rfl (.skip (a := false) rfl (.last (takes_angleArgs h hn) .pure)))

theorem segmentAhead_of_endsType (h : endsType rest = true) : segmentAhead rest = false := by
  unfold endsType at h
  unfold segmentAhead
  simp_all

theorem beginsType_of_isPathName (h : isPathName first = true) :
    beginsType (.ident first) = true := by
  have hno (w : String) (hw : isPathName w = false) : first ≠ w := by
    rintro rfl
    rw [h] at hw
    cases hw
  simp [beginsType, hno "true" (by decide), hno "false" (by decide), hno "mut" (by decide)]

theorem begins_barePath (hfirst : isPathName first = true) (c : Code) :
    ∃ t c', (if leading then op "::" else []) ++ (word first ++ c) = t :: c' ∧
      beginsType t = true := by
  cases leading with
  | true => exact ⟨_, _, rfl, rfl⟩
  | false => exact ⟨_, _, rfl, beginsType_of_isPathName hfirst⟩

theorem generic_barePath_nil (args : List Code) :
    Code.generic (barePath leading first []) args = (if leading then op "::" else []) ++
      (word first ++ (op "<" ++ (Tokens.commaSeparated args ++ op ">"))) := by
  simp [Code.generic, barePath, path]

theorem generic_barePath_concat (args : List Code) (last : String) :
    Code.generic (barePath leading first (names ++ [last])) args =
      barePath leading first names ++
        (op "::" ++ (word last ++ (op "<" ++ (Tokens.commaSeparated args ++ op ">")))) := by
  simp [Code.generic, barePath, path]

/-- A single name with arguments. -/
theorem ReadsTy.generic_name {args : List Code} {tys : List Ty} (hfirst : isIdentifier first = true)
    (h : List.Forall₂ ReadsTy args tys) :
    ReadsTy (Code.generic (barePath leading first []) args)
      (.path (.mk none 0 leading [.angle first (tys.map .type)])) where
  begins := by
    rw [generic_barePath_nil]
    exact begins_barePath (isPathName_of_isIdentifier hfirst) _
  takes {n} plus rest hn hrest := by
    rw [generic_barePath_nil] at hn ⊢
    have hop : 1 ≤ Token.countAll (op "<") := by decide
    simp only [countAll_append] at hn
    obtain ⟨m, rfl⟩ : ∃ m, n = m + 1 := ⟨n - 1, by omega⟩
    refine takes_readTy_path (isPathName_of_isIdentifier hfirst) ?_ hrest
    refine .bind ?_ (.last (takes_segment_angle hfirst h (by omega)) (.last ?_ .pure))
    · rw [List.append_assoc]
      exact takes_leading _
    · exact Row.takes_manyWhile (.stop (segmentAhead_of_endsType hrest))

/-- A path whose last name has arguments. -/
theorem ReadsTy.generic_path {args : List Code} {tys : List Ty} {last : String}
    (hfirst : isPathName first = true) (hnames : ∀ m ∈ names, isPathName m = true)
    (hlast : isIdentifier last = true) (h : List.Forall₂ ReadsTy args tys) :
    ReadsTy (Code.generic (barePath leading first (names ++ [last])) args)
      (.path (.mk none 0 leading
        ((first :: names).map .plain ++ [.angle last (tys.map .type)]))) where
  begins := by
    rw [generic_barePath_concat, barePath, List.append_assoc, List.append_assoc]
    exact begins_barePath hfirst _
  takes {n} plus rest hn hrest := by
    rw [generic_barePath_concat] at hn ⊢
    have hop : 1 ≤ Token.countAll (op "<") := by decide
    simp only [countAll_append] at hn
    obtain ⟨m, rfl⟩ : ∃ m, n = m + 1 := ⟨n - 1, by omega⟩
    have hrow : Row segmentAhead (do Parse.op "::"; (grammar (m + 1)).segment false) rest
        (op "::" ++ (word last ++ (op "<" ++ (Tokens.commaSeparated args ++ op ">"))) ++ rest)
        [.angle last (tys.map .type)] := by
      refine .next rfl (Parse.bind_eq_some.2 ⟨(), _, rfl, ?_⟩) ?_
        (.stop (segmentAhead_of_endsType hrest))
      · exact takes_segment_angle hlast h (by omega)
      · have hop : (op "::").length = 2 := rfl
        simp only [List.length_append, hop]
        omega
    have hpath : Takes ((grammar (m + 1)).barePath false) (barePath leading first names ++ _) _
        rest := takes_barePath_row hfirst hnames (by rfl) hrow
    rw [barePath, List.append_assoc, List.append_assoc] at hpath ⊢
    exact takes_readTy_path hfirst hpath hrest

/-! ### References, tuples and slices -/

/-- What stands behind the sign of a reference. -/
def referenceAfter (g : Grammar) : Parse Ty := do
  let lt ← Parse.lifetime?
  let isMut ← Parse.word? "mut"
  return .reference lt isMut (← g.ty false)

theorem takes_reference {g : Grammar} {plus : Bool} (h : Takes (referenceAfter g) c ty rest) :
    Takes (g.readTy plus) (refer c) ty rest :=
  h

theorem takes_lifetime?_none (h : startsLifetime rest = false) :
    Takes Parse.lifetime? [] none rest := by
  cases rest with
  | nil => rfl
  | cons t rest =>
    cases t with
    | lifetime _ => cases h
    | ident _ | literal _ | punct _ _ | group _ _ => rfl

theorem ReadsTy.reference (h : ReadsTy c ty) : ReadsTy (refer c) (.reference none false ty) where
  begins := ⟨_, _, rfl, rfl⟩
  takes {n} plus rest hn hrest := by
    obtain ⟨t, c', rfl, ht⟩ := h.begins
    obtain ⟨hlifetime, -, -, -, -, hmut⟩ := not_starts_of_beginsType (c' ++ rest) ht
    rw [refer, countAll_append] at hn
    have hop : 1 ≤ Token.countAll (op "&") := by decide
    obtain ⟨m, rfl⟩ : ∃ m, n = m + 1 := ⟨n - 1, by omega⟩
    exact takes_reference (.skip (takes_lifetime?_none hlifetime) (.skip (.no_word? hmut)
      (.last (h.takes false (by omega) hrest) .pure)))

/-- A type that lives as long as the program. -/
theorem ReadsTy.staticRef (h : ReadsTy c ty) :
    ReadsTy (op "&" ++ ([.lifetime "'static"] ++ c)) (.reference (some "'static") false ty) where
  begins := ⟨_, _, rfl, rfl⟩
  takes {n} plus rest hn hrest := by
    obtain ⟨t, c', rfl, ht⟩ := h.begins
    obtain ⟨-, -, -, -, -, hmut⟩ := not_starts_of_beginsType (c' ++ rest) ht
    have hop : 1 ≤ Token.countAll (op "&") := by decide
    simp only [countAll_append] at hn
    obtain ⟨m, rfl⟩ : ∃ m, n = m + 1 := ⟨n - 1, by omega⟩
    exact takes_reference (.bind (c := [.lifetime "'static"]) rfl (.skip (.no_word? hmut)
      (.last (h.takes false (by omega) hrest) .pure)))

/-! ### Traits -/

theorem startsWord_barePath {w : String} (hfirst : isPathName first = true)
    (hw : isPathName w = false) :
    startsWord w (barePath leading first names ++ rest) = false := by
  cases leading with
  | true => rfl
  | false => exact startsWord_of_isPathName hfirst hw

theorem startsGroup_barePath (d : Delim) :
    startsGroup d (barePath leading first names ++ rest) = false := by
  cases leading <;> rfl

theorem takes_boundPath {g : Grammar} (hfirst : isPathName first = true)
    (hnames : ∀ m ∈ names, isPathName m = true) (hrest : endsType rest = true) :
    Takes g.boundPath (barePath leading first names)
      (.mk none 0 leading ((first :: names).map .plain)) rest := by
  unfold endsType at hrest
  simp only [Bool.and_eq_true, Bool.not_eq_true'] at hrest
  obtain ⟨⟨⟨⟨hcolons, hangle⟩, -⟩, -⟩, hparen⟩ := hrest
  refine .last (takes_barePath hfirst hnames (by simp [endsPath, hcolons, hangle])) ?_
  refine .look ?_
  rw [List.nil_append, hparen, hcolons]
  cases ((first :: names).map Syntax.Segment.plain).getLast?.bind bareName? <;> exact .pure

theorem takes_readBound {g : Grammar} (rules : BoundRules) (hfirst : isPathName first = true)
    (hnames : ∀ m ∈ names, isPathName m = true) (hrest : endsType rest = true) :
    Takes (g.readBound rules) (barePath leading first names)
      (.trait false false none (.mk none 0 leading ((first :: names).map .plain))) rest := by
  have hlifetime : startsLifetime (barePath leading first names ++ rest) = false := by
    cases leading <;> rfl
  have hrelaxed : startsOp "?" (barePath leading first names ++ rest) = false := by
    cases leading with
    | true => rfl
    | false => exact startsOp_ident
  have htrait : Takes (g.traitBound rules) (barePath leading first names)
      (some (false, none, .mk none 0 leading ((first :: names).map .plain))) rest := by
    refine .skip (Takes.whenAhead_none (startsWord_barePath hfirst (by decide))) ?_
    refine .look (.no (startsGroup_barePath .bracket) ?_)
    refine .skip (.no_word? (startsWord_barePath hfirst (by decide))) ?_
    refine .skip (.no_op? hrelaxed) ?_
    exact .look (.no rfl (.last (takes_boundPath hfirst hnames hrest) .pure))
  unfold Grammar.readBound
  refine .look ?_
  dsimp only [id]
  refine .no hlifetime (.no (startsWord_barePath hfirst (by decide)) ?_)
  rw [startsGroup_barePath]
  exact .last htrait .pure

/-- A trait object behind a reference. -/
theorem ReadsTy.dynRef (hfirst : isPathName first = true)
    (hnames : ∀ m ∈ names, isPathName m = true) :
    ReadsTy (Code.dynRef (barePath leading first names)) (.reference none false
      (.object [.trait false false none (.mk none 0 leading ((first :: names).map .plain))])) where
  begins := ⟨_, _, rfl, rfl⟩
  takes {n} plus rest hn hrest := by
    unfold Code.dynRef at hn ⊢
    rw [List.append_assoc] at hn ⊢
    have hop : 1 ≤ Token.countAll (op "&") := by decide
    have hword : 1 ≤ Token.countAll (word "dyn") := by decide
    simp only [countAll_append] at hn
    obtain ⟨m, rfl⟩ : ∃ m, n = m + 2 := ⟨n - 2, by omega⟩
    refine takes_reference (.skip (a := none) rfl (.skip (a := false) rfl (.last ?_ .pure)))
    have hread : (grammar m.succ).readTy false (word "dyn" ++ barePath leading first names ++ rest) =
        (do
          let isStar ← Parse.op? "*"
          let bounds ← (grammar m.succ).objectBounds false
          if isStar then return .unwritable ((word "dyn" ++ barePath leading first names ++ rest).take
            ((word "dyn" ++ barePath leading first names ++ rest).length - (← Parse.remaining)))
          else return .object bounds : Parse Ty) (barePath leading first names ++ rest) := rfl
    have hstar : startsOp "*" (barePath leading first names ++ rest) = false := by
      cases leading with
      | true => rfl
      | false => exact startsOp_ident
    have hbounds : Takes ((grammar m.succ).objectBounds false) (barePath leading first names)
        [.trait false false none (.mk none 0 leading ((first :: names).map .plain))] rest :=
      .last (takes_readBound _ hfirst hnames hrest)
        (.look (.isFalse Bool.false_ne_true (.skip .pure (.isTrue rfl .pure))))
    exact hread.trans (Takes.skip (.no_op? hstar) (.last hbounds .pure))

/-! ### Tuples and slices -/

/-- Types with commas between them begin with none of these. -/
theorem not_starts_commaSeparated {items : List Code} {tys : List Ty}
    (h : List.Forall₂ ReadsTy items tys) :
    startsLifetime (Tokens.commaSeparated items) = false ∧
      startsOp "?" (Tokens.commaSeparated items) = false := by
  have hbegins : ∀ {item : Code} {ty : Ty}, ReadsTy item ty → ∀ r,
      startsLifetime (item ++ r) = false ∧ startsOp "?" (item ++ r) = false := by
    intro item ty hitem r
    obtain ⟨t, c', rfl, ht⟩ := hitem.begins
    obtain ⟨hlifetime, -, -, -, hrelaxed, -⟩ := not_starts_of_beginsType (c' ++ r) ht
    exact ⟨hlifetime, hrelaxed⟩
  cases h with
  | nil => exact ⟨rfl, rfl⟩
  | @cons item ty items tys hitem hitems =>
    cases items with
    | nil =>
      rw [commaSeparated_singleton]
      simpa using hbegins hitem []
    | cons item' items =>
      rw [commaSeparated_cons_cons]
      exact hbegins hitem _

theorem takes_types {items : List Code} {tys : List Ty} (h : List.Forall₂ ReadsTy items tys)
    (hn : 2 * Token.countAll (Tokens.commaSeparated items) ≤ n) :
    Takes (Parse.commaUntil List.isEmpty ((grammar (n + 1)).ty true)) (Tokens.commaSeparated items)
      (tys, false) [] := by
  have hsmall : ∀ c ∈ items, 2 * Token.countAll c ≤ n := fun c hc => by
    have := countAll_le_commaSeparated hc
    omega
  refine Parse.takes_commaUntil (fun rest => endsType rest = true)
    (((List.forall₂_and_left _ _).2 ⟨hsmall, h⟩).imp ?_) (fun _ => ⟨rfl, rfl⟩) rfl rfl
  rintro c ty ⟨hc, hreads⟩ behind hbehind
  obtain ⟨t, c', rfl, -⟩ := hreads.begins
  exact ⟨hreads.takes true hc hbehind, rfl⟩

/-- A row of types in parentheses, other than a single one. -/
theorem ReadsTy.tuple {items : List Code} {tys : List Ty} (h : List.Forall₂ ReadsTy items tys)
    (hmany : tys.length ≠ 1) : ReadsTy (Code.tuple items) (.tuple tys) where
  begins := ⟨_, _, rfl, rfl⟩
  takes {n} plus rest hn hrest := by
    have hcount : Token.countAll (Code.tuple items) =
        Token.countAll (Tokens.commaSeparated items) + 1 := rfl
    obtain ⟨m, rfl⟩ : ∃ m, n = m + 1 := ⟨n - 1, by omega⟩
    obtain ⟨hlifetime, hrelaxed⟩ := not_starts_commaSeparated h
    have hinside : Takes (grammar (m + 1)).parenInside (Tokens.commaSeparated items) (.tuple tys)
        [] := by
      refine .look (.isFalse (by simp [hlifetime]) (.last (takes_types h (by omega)) ?_))
      dsimp only
      split
      · exact absurd rfl hmany
      · exact .pure
    have hread : (grammar (m + 1)).readTy plus (Code.tuple items ++ rest) =
        (grammar (m + 1)).parenTy plus (Code.tuple items ++ rest) := rfl
    refine hread.trans (Takes.look (.isFalse ?_ (.look (.last (.within hinside) .pure))))
    exact fun hstarts => Bool.false_ne_true (hrelaxed.symm.trans hstarts)

theorem ReadsTy.slice (h : ReadsTy c ty) : ReadsTy (Tokens.brackets c) (.slice ty) where
  begins := ⟨_, _, rfl, rfl⟩
  takes {n} plus rest hn hrest := by
    have hcount : Token.countAll (Tokens.brackets c) = Token.countAll c + 1 := rfl
    obtain ⟨m, rfl⟩ : ∃ m, n = m + 1 := ⟨n - 1, by omega⟩
    have hread : (grammar (m + 1)).readTy plus (Tokens.brackets c ++ rest) = Parse.within .bracket (do
      let item ← (grammar (m + 1)).ty true
      if ← Parse.op? ";" then return .array item (← Parse.taking ((grammar (m + 1)).expr true))
      else return .slice item) (Tokens.brackets c ++ rest) := rfl
    refine hread.trans (Takes.within (.last (h.takes true (by omega) rfl) ?_))
    exact .skip (a := false) rfl .pure

theorem ReadsTy.infer : ReadsTy (word "_") .infer where
  begins := ⟨_, _, rfl, rfl⟩
  takes _ _ _ _ := rfl

end Forms

end TypedRoutes.Emission
