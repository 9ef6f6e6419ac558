import Mathlib.Data.List.Nodup
import TypedRoutes.Proofs.Inherited

/-!
# Keys in the query

* `Words.mem_ofChars` : words are not empty and hold letters and digits only;
* `kebab_eq_kebab_iff` : names have one kebab form just if they have one snake form;
* `queryKeys_nodup_iff` : when the query parameters of a route have distinct keys.
-/

namespace TypedRoutes

namespace Text

/-! ## Words -/

namespace Words

theorem forall_mem_splitOnP {p : Char → Bool} (cs : List Char) :
    ∀ run ∈ cs.splitOnP p, ∀ c ∈ run, p c = false := by
  induction cs with
  | nil => simp
  | cons c cs ih =>
    rw [List.splitOnP_cons_eq_if_modifyHead]
    by_cases hc : p c = true
    · rw [if_pos hc]
      exact List.forall_mem_cons.2 ⟨by simp, ih⟩
    · rw [if_neg hc]
      obtain ⟨run, runs, hruns⟩ := List.exists_cons_of_ne_nil (List.splitOnP_ne_nil p cs)
      rw [hruns, List.forall_mem_cons] at ih
      rw [hruns, List.modifyHead_cons]
      exact List.forall_mem_cons.2
        ⟨List.forall_mem_cons.2 ⟨by simpa using hc, ih.1⟩, ih.2⟩

/-- A word is cut off only where the current one has a character: in the mode of capitals there is
one already. -/
theorem ne_nil_of_mem_cut {word : List Char} {m : Mode} {cs : List Char}
    (hm : m = .upper → word ≠ []) : ∀ w ∈ cut word m cs, w ≠ [] := by
  fun_induction cut word m cs with
  | case1 word m hempty => simp
  | case2 word m hempty => simpa using hempty
  | case3 word m c => simp
  | case4 word m c next rest h ih =>
    exact List.forall_mem_cons.2 ⟨by simp, ih (by simp)⟩
  | case5 word m c next rest hlower h ih =>
    exact List.forall_mem_cons.2 ⟨by simpa using hm h.1, ih (by simp)⟩
  | case6 word m c next rest hlower hupper ih => exact ih (by simp)

theorem mem_cut {m : Mode} {cs w : List Char} (hw : w ∈ cut [] m cs) {c : Char} (hc : c ∈ w) :
    c ∈ cs := by
  have hflat : c ∈ (cut [] m cs).flatten := List.mem_flatten_of_mem hw hc
  rwa [flatten_cut] at hflat

/-- Words are not empty and hold letters and digits only. -/
theorem mem_ofChars {cs w : List Char} (hw : w ∈ ofChars cs) :
    w ≠ [] ∧ ∀ c ∈ w, c.isAlphanum = true := by
  obtain ⟨run, hrun, hw⟩ := List.mem_flatMap.1 hw
  refine ⟨ne_nil_of_mem_cut (by simp) w hw, fun c hc => ?_⟩
  simpa using forall_mem_splitOnP cs run hrun c (mem_cut hw hc)

end Words

/-! ## Styles -/

/-- The words of a name in lower case. -/
def lowerWords (name : String) : List String :=
  (Words.ofChars name.toList).map fun w => String.ofList (w.map Char.toLower)

theorem kebab_eq (name : String) : kebab name = "-".intercalate (lowerWords name) :=
  rfl

theorem snake_eq (name : String) : snake name = "_".intercalate (lowerWords name) :=
  rfl

theorem isAlphanum_toLower {c : Char} (h : c.isAlphanum = true) : c.toLower.isAlphanum = true := by
  unfold Char.toLower
  split
  · next hupper =>
    obtain ⟨hlow, hhigh⟩ := hupper
    rw [ge_iff_le, UInt32.le_iff_toNat_le] at hlow
    rw [UInt32.le_iff_toNat_le] at hhigh
    have hval : (c.val + ('a'.val - 'A'.val)).toNat = c.val.toNat + 32 := by
      rw [UInt32.toNat_add]
      exact Nat.mod_eq_of_lt (Nat.add_lt_add_right (Nat.lt_of_le_of_lt hhigh (by decide)) 32)
    have hlower : 'a'.val ≤ c.val + ('a'.val - 'A'.val) ∧
        c.val + ('a'.val - 'A'.val) ≤ 'z'.val := by
      rw [UInt32.le_iff_toNat_le, UInt32.le_iff_toNat_le, hval]
      exact ⟨Nat.add_le_add_right hlow 32, Nat.add_le_add_right hhigh 32⟩
    simp only [Char.isAlphanum, Char.isAlpha, Char.isLower, ge_iff_le, hlower, decide_true,
      Bool.and_true, Bool.or_true, Bool.true_or]
  · exact h

theorem mem_lowerWords {name w : String} (hw : w ∈ lowerWords name) :
    w.toList ≠ [] ∧ ∀ c ∈ w.toList, c.isAlphanum = true := by
  obtain ⟨cs, hcs, rfl⟩ := List.mem_map.1 hw
  obtain ⟨hne, hchars⟩ := Words.mem_ofChars hcs
  rw [String.toList_ofList]
  refine ⟨by simpa using hne, fun c hc => ?_⟩
  obtain ⟨d, hd, rfl⟩ := List.mem_map.1 hc
  exact isAlphanum_toLower (hchars d hd)

theorem eq_nil_of_intercalate_eq_nil {x : Char} {ls : List (List Char)} (hls : ∀ l ∈ ls, l ≠ [])
    (h : [x].intercalate ls = []) : ls = [] := by
  cases ls with
  | nil => rfl
  | cons l ls => cases ls <;> simp_all

/-- Texts that are not empty are found again in what they are joined to with a character that none
of them has. -/
theorem intercalate_inj {x : Char} {ls ms : List (List Char)} (hls : ∀ l ∈ ls, l ≠ [] ∧ x ∉ l)
    (hms : ∀ m ∈ ms, m ≠ [] ∧ x ∉ m) (h : [x].intercalate ls = [x].intercalate ms) : ls = ms := by
  by_cases hl : ls = []
  · subst hl
    exact (eq_nil_of_intercalate_eq_nil (fun m hm => (hms m hm).1) h.symm).symm
  · by_cases hm : ms = []
    · subst hm
      exact eq_nil_of_intercalate_eq_nil (fun l hl => (hls l hl).1) h
    · rw [← List.splitOn_intercalate x (fun l hl => (hls l hl).2) hl, h,
        List.splitOn_intercalate x (fun m hm => (hms m hm).2) hm]

theorem joined_lowerWords_inj {x : Char} (hx : x.isAlphanum = false) {a b : String} :
    (String.singleton x).intercalate (lowerWords a) =
        (String.singleton x).intercalate (lowerWords b) ↔
      lowerWords a = lowerWords b := by
  refine ⟨fun h => ?_, fun h => by rw [h]⟩
  have hwords : ∀ name, ∀ l ∈ (lowerWords name).map String.toList, l ≠ [] ∧ x ∉ l := by
    intro name l hl
    obtain ⟨w, hw, rfl⟩ := List.mem_map.1 hl
    obtain ⟨hne, hchars⟩ := mem_lowerWords hw
    exact ⟨hne, fun hmem => absurd (hchars x hmem) (by simp [hx])⟩
  have hlists := congrArg String.toList h
  rw [String.toList_intercalate, String.toList_intercalate] at hlists
  exact List.map_injective_iff.2 (fun s t => String.toList_inj.1)
    (intercalate_inj (hwords a) (hwords b) (by simpa using hlists))

/-- Names have one kebab form just if they have one snake form: both are the words in lower case. -/
theorem kebab_eq_kebab_iff {a b : String} : kebab a = kebab b ↔ snake a = snake b := by
  rw [kebab_eq, kebab_eq, snake_eq, snake_eq]
  exact (joined_lowerWords_inj (x := '-') (by decide)).trans
    (joined_lowerWords_inj (x := '_') (by decide)).symm

end Text

/-! ## Keys of a route -/

/-- Distinct names have distinct keys just if the names are taken as they are or have distinct snake
forms. -/
theorem queryKey_nodup_iff (settings : Settings) {names : List String} (hnames : names.Nodup) :
    (names.map settings.queryKey).Nodup ↔
      settings.queryKeyStyle = .verbatim ∨ (names.map Text.snake).Nodup := by
  rw [List.nodup_map_iff_inj_on hnames, List.nodup_map_iff_inj_on hnames]
  unfold Settings.queryKey
  cases settings.queryKeyStyle with
  | verbatim => simp
  | kebab => simp [Text.kebab_eq_kebab_iff]

/-- The names of the parameters that travel in the query. -/
def Node.queryNames (n : Node) : List String :=
  (Bindings.inQuery n.bindings).map Binding.name

section Trees

variable {catalog : Catalog} {settings : Settings} {d : Declaration} {t : RouteTree} {n : Node}

/-- The parameters of a route are those of its type's constructor. -/
theorem names_of_mem_nodes (h : RouteTree.ofDeclaration catalog settings d = .ok t)
    (hn : n ∈ t.nodes) {ps : List Parameter} (hps : catalog.constructor? n.type = some ps) :
    n.bindings.map Binding.name = ps.map Parameter.name := by
  obtain ⟨above, hc⟩ := RouteTree.exists_chain hn
  obtain ⟨ps', template?, hps', -, hbindings, -⟩ := readAlong_chain h hc above n List.prefix_rfl
  obtain rfl := Option.some_inj.1 (hps.symm.trans hps')
  rw [← map_parameter_of_bindAll hbindings, List.map_map]
  rfl

theorem queryNames_nodup (h : RouteTree.ofDeclaration catalog settings d = .ok t)
    (hn : n ∈ t.nodes) {ps : List Parameter} (hps : catalog.constructor? n.type = some ps)
    (hnames : (ps.map Parameter.name).Nodup) : n.queryNames.Nodup := by
  rw [← names_of_mem_nodes h hn hps] at hnames
  exact hnames.sublist (List.filter_sublist.map _)

/-- The names of a route are told apart by its keys if they are in snake form. -/
theorem queryKeys_nodup_of_snake (h : RouteTree.ofDeclaration catalog settings d = .ok t)
    (hn : n ∈ t.nodes) {ps : List Parameter} (hps : catalog.constructor? n.type = some ps)
    (hnames : (ps.map Parameter.name).Nodup)
    (hsnake : ∀ name ∈ n.queryNames, Text.snake name = name) :
    (n.queryNames.map settings.queryKey).Nodup := by
  have hquery := queryNames_nodup h hn hps hnames
  refine (queryKey_nodup_iff settings hquery).2 (Or.inr ?_)
  rwa [List.map_congr_left hsnake, List.map_id']

/-- A route whose constructor names no parameter twice gives its query parameters distinct keys just
if the names are taken as they are or have distinct snake forms. -/
theorem queryKeys_nodup_iff (h : RouteTree.ofDeclaration catalog settings d = .ok t)
    (hn : n ∈ t.nodes) {ps : List Parameter} (hps : catalog.constructor? n.type = some ps)
    (hnames : (ps.map Parameter.name).Nodup) :
    (n.queryNames.map settings.queryKey).Nodup ↔
      settings.queryKeyStyle = .verbatim ∨ (n.queryNames.map Text.snake).Nodup :=
  queryKey_nodup_iff settings (queryNames_nodup h hn hps hnames)

end Trees

/-! ### Two names of the same words -/

def pagedParameters : List Parameter :=
  [.byName "pageSize" (.named "u32"), .byName "page_size" (.named "u32")]

def pagedCatalog : Catalog :=
  .ofList [.routeData "A" pagedParameters]

def pagedTemplate : PathTemplate where
  text := "/a"
  segments := [.literal "/a"]

def pagedNode : Node :=
  boundNode "A" (.leaf "/a" none pagedTemplate) pagedTemplate pagedParameters

theorem ofDeclaration_paged :
    RouteTree.ofDeclaration pagedCatalog {} ⟨"A", .ofPath "A" "/a"⟩ = .ok (.node pagedNode []) := by
  let cx : Context := ⟨pagedCatalog, {}, "A"⟩
  have hdescribe : cx.describe "A" = .ok (described pagedParameters) := rfl
  have htemplate : cx.parseTemplate "A" (joinTemplates "" "/a") = .ok pagedTemplate := by cbv
  have hbindings : cx.bindings "A" (some pagedTemplate) pagedParameters = .ok pagedNode.bindings :=
    bindAll_eq_ok_iff.2 ⟨by decide, rfl⟩
  have hbound : cx.checkBound "A" pagedTemplate pagedNode.bindings = .ok () := rfl
  exact buildTree_node (checkNode_go hdescribe htemplate hbindings hbound) rfl

/-- The two parameters share the key `page-size`. -/
theorem queryKeys_paged : ¬(pagedNode.queryNames.map (Settings.queryKey {})).Nodup := by
  have hconstructor : pagedCatalog.constructor? pagedNode.type = some pagedParameters := rfl
  rw [queryKeys_nodup_iff ofDeclaration_paged (List.mem_singleton_self _) hconstructor (by decide)]
  decide

end TypedRoutes
