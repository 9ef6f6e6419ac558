import TypedRoutes.Proofs.Match
import TypedRoutes.Proofs.Template

/-!
# Matching what was substituted

* `Segment.FillsPiece`, `FillPieces` : parameters that stand alone between slashes;
* `written` : segments with a text for every parameter;
* `pieces_written` : the pieces of a path are those of its template with the values filled in;
* `matchPieces_filled`, `bound_of_matchPieces` : what pieces match, and what a match binds;
* `pieces_template` : the pieces of a template that was read;
* `matchTemplate_substitute` : matching undoes substitution, and a match can be substituted again.
-/

namespace TypedRoutes

open Navigation Text PathTemplate

/-! ## Parameters between slashes -/

namespace Segment

def EndsInSlash : Segment → Prop
  | literal t => t.toList.getLast? = some '/'
  | parameter _ _ => False

def BeginsWithSlash : Segment → Prop
  | literal t => t.toList.head? = some '/'
  | parameter _ _ => False

/-- A parameter has no constraint, and between slashes or the ends of the template nothing stands
next to it. -/
def FillsPiece (before? after? : Option Segment) : Segment → Prop
  | literal _ => True
  | parameter _ k => k = none ∧ (∀ a ∈ before?, a.EndsInSlash) ∧ ∀ a ∈ after?, a.BeginsWithSlash

end Segment

/-- Every parameter of some segments fills a piece of its own. `before?` is the segment in front. -/
def FillPieces (before? : Option Segment) : List Segment → Prop
  | [] => True
  | a :: rest => a.FillsPiece before? rest.head? ∧ FillPieces (some a) rest

/-- Every parameter of a template fills a piece of its own. -/
def PathTemplate.FillsPieces (t : PathTemplate) : Prop :=
  FillPieces none t.segments

/-! ## Segments with texts for their parameters -/

/-- Segments with a text for every parameter. -/
def written (value : String → List Char) : List Segment → List Char
  | [] => []
  | .literal s :: rest => s.toList ++ written value rest
  | .parameter n _ :: rest => value n ++ written value rest

/-- A parameter as a template marks it. -/
def marked (name : String) : List Char :=
  ':' :: name.toList

theorem slash_notMem_marked {n : String} (h : isPlainIdentifier n = true) : '/' ∉ marked n := by
  cases hn : n.toList with
  | nil => simp [marked, hn]
  | cons c cs =>
    have hplain : isPlainIdentifier (String.ofList (c :: cs)) = true := by
      rwa [← hn, String.ofList_toList]
    rw [marked, hn, List.mem_cons, not_or]
    refine ⟨by decide, fun hslash => ?_⟩
    exact absurd ((isPlainIdentifier_cons.1 hplain).2 '/' hslash) (by decide)

theorem written_marked {s : List Segment} {before? : Option Segment} (h : FillPieces before? s) :
    written marked s = (unparse s).toList := by
  induction s generalizing before? with
  | nil => rfl
  | cons a s ih =>
    obtain ⟨ha, hs⟩ := h
    have hcons : (unparse (a :: s)).toList = a.unparse.toList ++ (unparse s).toList := by
      simp [unparse, String.toList_join]
    rw [hcons, ← ih hs]
    cases a with
    | literal t => rfl
    | parameter n k =>
      obtain rfl : k = none := ha.1
      simp [written, marked, Segment.unparse]

/-- What follows a parameter that fills its piece begins with a slash. -/
theorem head?_written {value : String → List Char} {n : String} {k : Option String}
    {s : List Segment} {before? : Option Segment}
    (h : (Segment.parameter n k).FillsPiece before? s.head?) :
    ∀ c ∈ (written value s).head?, c = '/' := by
  cases s with
  | nil => simp [written]
  | cons b s =>
    have hb : b.BeginsWithSlash := h.2.2 b rfl
    cases b with
    | literal t =>
      have hhead : t.toList.head? = some '/' := hb
      intro c hc
      rw [written, List.head?_append, hhead] at hc
      exact (Option.some.inj hc).symm
    | parameter n' k' => exact hb.elim

namespace PathTemplate

/-- Substitution puts its value in the place of every parameter. -/
theorem substitute_ok {t : PathTemplate} {value : String → Option String} {v : String → String}
    (h : ∀ n ∈ t.names, value n = some (v n)) :
    t.substitute value = .ok (String.ofList (written (fun n => (v n).toList) t.segments)) := by
  obtain ⟨text, s⟩ := t
  unfold names at h
  unfold substitute
  dsimp only at h ⊢
  induction s with
  | nil => rfl
  | cons a s ih =>
    cases a with
    | literal t =>
      rw [render, ih h, written, String.ofList_append, String.ofList_toList]
      rfl
    | parameter n k =>
      obtain ⟨hn, hs⟩ := List.forall_mem_cons.1 h
      rw [render, hn, ih hs, written, String.ofList_append, String.ofList_toList]
      rfl

end PathTemplate

/-! ## Pieces -/

namespace Navigation

theorem pieces_append_slash (xs ys : List Char) :
    pieces (xs ++ '/' :: ys) = pieces xs ++ pieces ys :=
  List.splitOnP_append_cons xs ys (beq_self_eq_true '/')

theorem pieces_of_notMem {xs : List Char} (h : '/' ∉ xs) : pieces xs = [xs] :=
  List.splitOn_eq_singleton h

/-- A text without a slash is a piece of its own in front of a slash. -/
theorem pieces_append_of_head {w xs : List Char} (hw : '/' ∉ w) (hxs : ∀ c ∈ xs.head?, c = '/') :
    pieces (w ++ xs) = w :: (pieces xs).tail := by
  cases xs with
  | nil =>
    rw [List.append_nil, pieces_of_notMem hw]
    rfl
  | cons c xs =>
    obtain rfl : c = '/' := hxs c rfl
    have hnil := pieces_append_slash [] xs
    rw [List.nil_append, pieces_of_notMem List.not_mem_nil] at hnil
    rw [pieces_append_slash, pieces_of_notMem hw, hnil]
    rfl

theorem subset_of_mem_pieces {xs w : List Char} (h : w ∈ pieces xs) : w ⊆ xs := by
  unfold pieces at h
  induction xs generalizing w with
  | nil =>
    obtain rfl := List.mem_singleton.1 h
    exact List.nil_subset []
  | cons c xs ih =>
    rw [List.splitOnP_cons_eq_if_modifyHead] at h
    obtain ⟨v, vs, hvs⟩ := List.exists_cons_of_ne_nil (List.splitOnP_ne_nil (· == '/') xs)
    rw [hvs] at h ih
    split at h
    · rcases List.mem_cons.1 h with rfl | h
      · exact List.nil_subset _
      · exact List.subset_cons_of_subset c (ih h)
    · rcases List.mem_cons.1 h with rfl | h
      · exact List.cons_subset_cons c (ih List.mem_cons_self)
      · exact List.subset_cons_of_subset c (ih (List.mem_cons_of_mem v h))

/-- Behind a slash pieces begin anew. -/
theorem pieces_append_of_getLast {lit : List Char} (h : ∀ c ∈ lit.getLast?, c = '/') :
    ∃ ps, (∀ xs, pieces (lit ++ xs) = ps ++ pieces xs) ∧ ∀ w ∈ ps, w ⊆ lit := by
  cases lit using List.reverseRecOn with
  | nil => exact ⟨[], fun xs => rfl, by simp⟩
  | append_singleton lit c =>
    obtain rfl : c = '/' := h c (by rw [List.getLast?_concat]; rfl)
    refine ⟨pieces lit, fun xs => ?_, fun w hw => ?_⟩
    · rw [List.append_assoc]
      exact pieces_append_slash lit xs
    · exact List.subset_append_of_subset_left _ (subset_of_mem_pieces hw)

/-- The name of the parameter that a piece of a template stands for. -/
def paramName? : List Char → Option String
  | ':' :: name => some (String.ofList name)
  | _ => none

/-- A piece of a template with the text for its parameter. -/
def fillPiece (value : String → List Char) : List Char → List Char
  | ':' :: name => value (String.ofList name)
  | w => w

theorem paramName?_of_head? {w : List Char} (h : w.head? ≠ some ':') : paramName? w = none := by
  unfold paramName?
  split
  · exact absurd rfl h
  · rfl

theorem fillPiece_of_head? {w : List Char} (h : w.head? ≠ some ':') (value : String → List Char) :
    fillPiece value w = w := by
  unfold fillPiece
  split
  · exact absurd rfl h
  · rfl

theorem paramName?_marked (n : String) : paramName? (marked n) = some n := by
  simp [marked, paramName?]

theorem fillPiece_marked (n : String) (value : String → List Char) :
    fillPiece value (marked n) = value n := by
  simp [marked, fillPiece]

/-- Pieces without markers stand for themselves. -/
theorem fillPiece_of_colon_notMem {ws : List (List Char)} (h : ∀ w ∈ ws, ':' ∉ w)
    (value : String → List Char) :
    ws.map (fillPiece value) = ws ∧ ws.filterMap paramName? = [] := by
  have hhead : ∀ w ∈ ws, w.head? ≠ some ':' := fun w hw hc => h w hw (List.mem_of_head? hc)
  constructor
  · conv => rhs; rw [← List.map_id ws]
    exact List.map_congr_left fun w hw => fillPiece_of_head? (hhead w hw) value
  · exact List.filterMap_eq_nil_iff.2 fun w hw => paramName?_of_head? (hhead w hw)

/-- The pieces of a path are those of its template with the values filled in, and the template's
pieces name its parameters. `lit` is the text read in front. -/
theorem pieces_written {s : List Segment} {before? : Option Segment} {lit : List Char}
    {value : String → List Char} (h : FillPieces before? s) (hvalid : ∀ a ∈ s, a.Valid)
    (hvalue : ∀ n, '/' ∉ value n) (hlit : ':' ∉ lit)
    (hends : (∀ a ∈ before?, a.EndsInSlash) → ∀ c ∈ lit.getLast?, c = '/') :
    pieces (lit ++ written value s) = (pieces (lit ++ written marked s)).map (fillPiece value) ∧
      (pieces (lit ++ written marked s)).filterMap paramName? = s.filterMap Segment.name? := by
  induction s generalizing before? lit with
  | nil =>
    have hpieces : ∀ w ∈ pieces lit, ':' ∉ w := fun w hw hc => hlit (subset_of_mem_pieces hw hc)
    obtain ⟨hfill, hnames⟩ := fillPiece_of_colon_notMem hpieces value
    rw [written, written, List.append_nil, hfill, hnames]
    exact ⟨rfl, rfl⟩
  | cons a s ih =>
    obtain ⟨ha, hs⟩ := h
    obtain ⟨hvalida, hvalids⟩ := List.forall_mem_cons.1 hvalid
    cases a with
    | literal t =>
      have hlit' : ':' ∉ lit ++ t.toList := by
        rw [List.mem_append]
        exact fun hmem => hmem.elim hlit hvalida.2
      have hends' : (∀ b ∈ some (Segment.literal t), b.EndsInSlash) →
          ∀ c ∈ (lit ++ t.toList).getLast?, c = '/' := by
        intro hslash c hc
        have hlast : t.toList.getLast? = some '/' := hslash _ rfl
        rw [List.getLast?_append, hlast] at hc
        exact (Option.some.inj hc).symm
      have hnext := ih hs hvalids hlit' hends'
      rw [List.append_assoc, List.append_assoc] at hnext
      exact hnext
    | parameter n k =>
      obtain ⟨ps, hps, hsubset⟩ := pieces_append_of_getLast (hends ha.2.1)
      have hcolon : ∀ w ∈ ps, ':' ∉ w := fun w hw hc => hlit (hsubset w hw hc)
      obtain ⟨hfill, hnames⟩ := fillPiece_of_colon_notMem hcolon value
      have hmarked : '/' ∉ marked n := slash_notMem_marked hvalida.1
      obtain ⟨hrest, hrestNames⟩ :=
        ih hs hvalids List.not_mem_nil (fun _ => by simp)
      have hbegins : pieces (written marked s) = [] :: (pieces (written marked s)).tail :=
        pieces_append_of_head List.not_mem_nil (head?_written ha)
      rw [List.nil_append, List.nil_append] at hrest
      rw [List.nil_append, hbegins] at hrestNames
      rw [written, written, hps, hps, pieces_append_of_head (hvalue n) (head?_written ha),
        pieces_append_of_head hmarked (head?_written ha), List.map_append, List.map_cons, hfill,
        fillPiece_marked, hrest, List.map_tail, List.filterMap_append, hnames, List.nil_append,
        List.filterMap_cons_some (paramName?_marked n)]
      exact ⟨rfl, congrArg (n :: ·) hrestNames⟩

/-! ## Matching -/

theorem pieceValue_ne_empty {got : List Char} {v : String} (h : pieceValue got = some v) :
    v ≠ "" := by
  unfold pieceValue at h
  split at h
  · cases h
  · next hgot =>
    refine Percent.decode_ne_empty h fun hempty => hgot ?_
    rw [List.isEmpty_iff, ← String.toList_ofList (l := got), hempty]
    rfl

/-- Pieces that are filled in are matched by the values. -/
theorem matchPieces_filled {ws : List (List Char)} {value : String → String}
    (h : ∀ n ∈ ws.filterMap paramName?, value n ≠ "") :
    matchPieces ws (ws.map (fillPiece fun n => (Percent.encode (value n)).toList)) =
      some ((ws.filterMap paramName?).map fun n => (n, value n)) := by
  induction ws with
  | nil => rfl
  | cons w ws ih =>
    by_cases hw : w.head? = some ':'
    · obtain ⟨name, rfl⟩ := List.head?_eq_some_iff.1 hw
      have hname : paramName? (':' :: name) = some (String.ofList name) := rfl
      rw [List.filterMap_cons_some hname] at h ⊢
      obtain ⟨hvalue, hrest⟩ := List.forall_mem_cons.1 h
      rw [List.map_cons, fillPiece, matchPieces_written, if_neg hvalue, ih hrest]
      rfl
    · rw [List.filterMap_cons_none (paramName?_of_head? hw)] at h ⊢
      rw [List.map_cons, fillPiece_of_head? hw, matchPieces_literal hw, if_pos rfl, ih h]

/-- A match binds the names of the template's parameters, none of them to an empty text. -/
theorem bound_of_matchPieces {ws gs : List (List Char)} {ps : Params}
    (h : matchPieces ws gs = some ps) :
    ps.map Prod.fst = ws.filterMap paramName? ∧ ∀ p ∈ ps, p.2 ≠ "" := by
  induction ws generalizing gs ps with
  | nil =>
    cases gs with
    | nil =>
      cases h
      exact ⟨rfl, by simp⟩
    | cons got gs => cases h
  | cons w ws ih =>
    cases gs with
    | nil => simp [matchPieces] at h
    | cons got gs =>
      by_cases hw : w.head? = some ':'
      · obtain ⟨name, rfl⟩ := List.head?_eq_some_iff.1 hw
        have hname : paramName? (':' :: name) = some (String.ofList name) := rfl
        rw [matchPieces_param, Option.bind_eq_some_iff] at h
        obtain ⟨v, hv, h⟩ := h
        obtain ⟨rest, hrest, rfl⟩ := Option.map_eq_some_iff.1 h
        obtain ⟨hnames, hvalues⟩ := ih hrest
        rw [List.filterMap_cons_some hname, List.map_cons, hnames]
        refine ⟨rfl, List.forall_mem_cons.2 ⟨pieceValue_ne_empty hv, hvalues⟩⟩
      · rw [matchPieces_literal hw] at h
        split at h
        · rw [List.filterMap_cons_none (paramName?_of_head? hw)]
          exact ih h
        · cases h

theorem boundTo?_of_mem {ps : Params} (h : (ps.map Prod.fst).Nodup) {p : String × String}
    (hp : p ∈ ps) : boundTo? ps p.1 = some p.2 := by
  obtain ⟨before, behind, hsplit⟩ := List.append_of_mem (List.mem_reverse.2 hp)
  refine List.lookup_eq_some_iff.2 ⟨before, behind, hsplit, fun q hq => ?_⟩
  rw [← List.nodup_reverse, ← List.map_reverse, hsplit, List.map_append, List.nodup_append] at h
  rw [bne_iff_ne]
  exact (h.2.2 q.1 (List.mem_map_of_mem hq) p.1 (by simp)).symm

/-- A match is the assignment of the values that it binds. -/
theorem map_boundTo? {ps : Params} (h : (ps.map Prod.fst).Nodup) :
    (ps.map Prod.fst).map (fun n => (n, (boundTo? ps n).getD "")) = ps := by
  have hself : ∀ p ∈ ps, (p.1, (boundTo? ps p.1).getD "") = p := by
    intro p hp
    rw [boundTo?_of_mem h hp]
    rfl
  rw [List.map_map]
  exact (List.map_congr_left hself).trans (List.map_id ps)

end Navigation

/-! ## Templates -/

section Template

variable {text : String} {t : PathTemplate}

/-- The pieces of a template name its parameters, and those of a path have the values in their
places. -/
theorem pieces_template (h : parse text = .ok t) (hfills : t.FillsPieces) :
    (pieces text.toList).filterMap paramName? = t.names ∧
      ∀ value : String → List Char, (∀ n, '/' ∉ value n) →
        pieces (written value t.segments) = (pieces text.toList).map (fillPiece value) := by
  obtain ⟨hcanonical, hunparse⟩ := canonical_of_parse h
  have hwritten : ∀ value : String → List Char, (∀ n, '/' ∉ value n) →
      pieces (written value t.segments) = (pieces text.toList).map (fillPiece value) ∧
        (pieces text.toList).filterMap paramName? = t.names := by
    intro value hvalue
    have hbare : ':' ∉ ([] : List Char) := List.not_mem_nil
    have hpieces := pieces_written hfills hcanonical.valid hvalue hbare (fun _ => by simp)
    rw [List.nil_append, List.nil_append, written_marked hfills, hunparse] at hpieces
    exact hpieces
  exact ⟨(hwritten (fun _ => []) (fun _ => List.not_mem_nil)).2,
    fun value hvalue => (hwritten value hvalue).1⟩

/-- A path whose values are not empty binds them. -/
theorem matchTemplate_written (h : parse text = .ok t) (hfills : t.FillsPieces)
    {value : String → String} (hvalue : ∀ n ∈ t.names, value n ≠ "") :
    matchTemplate text.toList (written (fun n => (Percent.encode (value n)).toList) t.segments) =
      some (t.names.map fun n => (n, value n)) := by
  obtain ⟨hnames, hpieces⟩ := pieces_template h hfills
  rw [matchTemplate, hpieces _ fun n => slash_not_mem_encode (value n), ← hnames]
  exact matchPieces_filled (hnames ▸ hvalue)

/-- In a template whose parameters fill pieces of their own, matching undoes the substitution of
values that are not empty. What any path binds has just the parameters' names and no empty value,
and substituting it again gives a path that binds the same. -/
theorem matchTemplate_substitute (h : parse text = .ok t) (hfills : t.FillsPieces) :
    (∀ value : String → String, (∀ n ∈ t.names, value n ≠ "") →
      ∃ path, t.substitute (fun n => some (Percent.encode (value n))) = .ok path ∧
        matchTemplate text.toList path.toList = some (t.names.map fun n => (n, value n))) ∧
    ∀ (got : String) (ps : Params), matchTemplate text.toList got.toList = some ps →
      t.names.Nodup ∧ ps.map Prod.fst = t.names ∧ (∀ p ∈ ps, p.2 ≠ "") ∧
        ∃ path, t.substitute (fun n => (boundTo? ps n).map Percent.encode) = .ok path ∧
          matchTemplate text.toList path.toList = some ps := by
  constructor
  · intro value hvalue
    refine ⟨_, substitute_ok fun n _ => rfl, ?_⟩
    rw [String.toList_ofList]
    exact matchTemplate_written h hfills hvalue
  · intro got ps hmatch
    obtain ⟨hkeys, hvalues⟩ := bound_of_matchPieces hmatch
    rw [(pieces_template h hfills).1] at hkeys
    have hdistinct : t.names.Nodup := (canonical_of_parse h).1.distinct
    have hnodup : (ps.map Prod.fst).Nodup := hkeys ▸ hdistinct
    have hbound : ∀ n ∈ t.names, ∃ v, boundTo? ps n = some v ∧ v ≠ "" := by
      intro n hn
      obtain ⟨p, hp, rfl⟩ := List.mem_map.1 (hkeys ▸ hn)
      exact ⟨p.2, boundTo?_of_mem hnodup hp, hvalues p hp⟩
    have hsubstitute : ∀ n ∈ t.names, (boundTo? ps n).map Percent.encode =
        some (Percent.encode ((boundTo? ps n).getD "")) := by
      intro n hn
      obtain ⟨v, hv, -⟩ := hbound n hn
      rw [hv]
      rfl
    refine ⟨hdistinct, hkeys, hvalues, _, substitute_ok hsubstitute, ?_⟩
    rw [String.toList_ofList, matchTemplate_written h hfills, ← hkeys, map_boundTo? hnodup]
    intro n hn
    obtain ⟨v, hv, hne⟩ := hbound n hn
    rwa [hv]

end Template

/-! ### Empty pieces around two parameters -/

def slashedTemplate : PathTemplate where
  text := "//:dir//:file/"
  segments := [.literal "//", .parameter "dir" none, .literal "//", .parameter "file" none,
    .literal "/"]

/-- A directory with a slash in its name, and a path with lower-case escapes. -/
theorem matchTemplate_slashed :
    parse "//:dir//:file/" = .ok slashedTemplate ∧ slashedTemplate.FillsPieces ∧
      (∃ path, slashedTemplate.substitute
          (fun n => some (Percent.encode (if n = "dir" then "a/b" else "ü"))) = .ok path ∧
        matchTemplate "//:dir//:file/".toList path.toList =
          some [("dir", "a/b"), ("file", "ü")]) ∧
      matchTemplate "//:dir//:file/".toList "//a%2fb//c/".toList =
        some [("dir", "a/b"), ("file", "c")] ∧
      ∃ path, slashedTemplate.substitute
          (fun n => (boundTo? [("dir", "a/b"), ("file", "c")] n).map Percent.encode) = .ok path ∧
        matchTemplate "//:dir//:file/".toList path.toList =
          some [("dir", "a/b"), ("file", "c")] := by
  have hparse : parse "//:dir//:file/" = .ok slashedTemplate := by cbv
  have hfills : slashedTemplate.FillsPieces := by
    simp [PathTemplate.FillsPieces, slashedTemplate, FillPieces, Segment.FillsPiece,
      Segment.EndsInSlash, Segment.BeginsWithSlash]
  have hmatch : matchTemplate "//:dir//:file/".toList "//a%2fb//c/".toList =
      some [("dir", "a/b"), ("file", "c")] := by decide +kernel
  obtain ⟨hwritten, hread⟩ := matchTemplate_substitute hparse hfills
  have hvalues : ∀ n ∈ slashedTemplate.names, (if n = "dir" then "a/b" else "ü") ≠ "" := by
    decide
  exact ⟨hparse, hfills, hwritten _ hvalues, hmatch, (hread _ _ hmatch).2.2.2⟩

end TypedRoutes
