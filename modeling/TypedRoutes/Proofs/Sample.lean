import TypedRoutes.Proofs.Match
import TypedRoutes.Proofs.Outcome
import TypedRoutes.Proofs.Query
import TypedRoutes.Sample.Tree

/-!
# Places of the sample application: reading what was written

* `word?_toString` : a printed 32-bit number is read back;
* `find_homeRoute`, `find_appShell` : the route of a path in each of the two trees;
* `find_path` : the route of a place's path, and the values of its parameters;
* `readHome_request`, … : each reader makes the place that its request was written for;
* `decode_location` : the location of a place is decoded to the place, unless its family has no
  name.
-/

namespace TypedRoutes

open Navigation Text

/-! ## Numbers -/

theorem Text.Decimal.ofDigits_toDigits (n : Nat) : Decimal.ofDigits (Nat.toDigits 10 n) = n :=
  Nat.ofDigitChars_ten_toDigits

theorem Text.Decimal.unsigned_toDigits (n : Nat) :
    Decimal.unsigned (Nat.toDigits 10 n) = Nat.toDigits 10 n := by
  unfold Decimal.unsigned
  split
  · next rest h =>
    have hplus : '+' ∈ Nat.toDigits 10 n := h ▸ List.mem_cons_self
    have hdigit := Nat.isDigit_of_mem_toDigits (by decide) (by decide) hplus
    exact absurd hdigit (by decide)
  · rfl

/-- A printed 32-bit number is read back. -/
theorem Text.Decimal.word?_toString (n : UInt32) :
    Decimal.word? (toString n.toNat) = some n := by
  have hdigits : ∀ c ∈ Nat.toDigits 10 n.toNat, c.isDigit = true := fun c hc =>
    Nat.isDigit_of_mem_toDigits (by decide) (by decide) hc
  have hread : Decimal.nat? (toString n.toNat) = some n.toNat := by
    unfold Decimal.nat?
    rw [Nat.toString_eq_repr, Nat.toList_repr]
    simp [unsigned_toDigits, ofDigits_toDigits, List.all_eq_true.2 hdigits]
  unfold Decimal.word?
  rw [hread]
  simp [UInt32.toNat_lt_size]

namespace Sample

/-! ## Routes of paths -/

/-- The route of a path in the home tree: the routes of two values first, home last. -/
theorem find_homeRoute (path : List Char) :
    homeRoute.find path =
      ((matchTemplate "/family/:fid/person/:pid".toList path).map (readPerson, ·)).or
        (((matchTemplate "/family/:fid".toList path).map (readFamily, ·)).or
          (((matchTemplate "/search".toList path).map (readSearch, ·)).or
            ((matchTemplate "/".toList path).map (readHome, ·)))) := by
  have hhome : pathBelow [] "/".toList = "/".toList := by decide
  have hfamily : pathBelow "/".toList "family/:fid".toList = "/family/:fid".toList := by decide
  have hperson : pathBelow "/family/:fid".toList "person/:pid".toList =
      "/family/:fid/person/:pid".toList := by decide
  have hsearch : pathBelow "/".toList "search".toList = "/search".toList := by decide
  unfold homeRoute Route.find
  simp only [Route.findBelow, Route.findAmong, hhome, hfamily, hperson, hsearch]
  cases matchTemplate "/family/:fid/person/:pid".toList path <;>
    cases matchTemplate "/family/:fid".toList path <;>
    cases matchTemplate "/search".toList path <;> rfl

theorem find_appShell (path : List Char) :
    appShell.find path = (matchTemplate "/settings".toList path).map (readSettings, ·) := by
  have hsettings : pathBelow [] "/settings".toList = "/settings".toList := by decide
  unfold appShell Route.find
  simp only [Route.findBelow, Route.findAmong, hsettings]
  cases matchTemplate "/settings".toList path <;> rfl

/-- A template is matched by the pieces that it and the path are put together from. -/
theorem matchTemplate_intercalate (template : List Char) (ws : List (List Char))
    {path : List Char} {gs : List (List Char)}
    (ht : template = ['/'].intercalate ws) (hws : ∀ l ∈ ws, '/' ∉ l) (hw : ws ≠ [])
    (hp : path = ['/'].intercalate gs) (hgs : ∀ l ∈ gs, '/' ∉ l) (hg : gs ≠ []) :
    matchTemplate template path = matchPieces ws gs := by
  rw [matchTemplate, ht, hp, pieces_intercalate hws hw, pieces_intercalate hgs hg]

/-- The route of a path that is put together from pieces. -/
theorem find_homeRoute_pieces {path : List Char} {gs : List (List Char)}
    (hp : path = ['/'].intercalate gs) (hgs : ∀ l ∈ gs, '/' ∉ l) (hg : gs ≠ []) :
    homeRoute.find path =
      ((matchPieces [[], "family".toList, ":fid".toList, "person".toList, ":pid".toList] gs).map
        (readPerson, ·)).or
        (((matchPieces [[], "family".toList, ":fid".toList] gs).map (readFamily, ·)).or
          (((matchPieces [[], "search".toList] gs).map (readSearch, ·)).or
            ((matchPieces [[], []] gs).map (readHome, ·)))) := by
  have hperson := matchTemplate_intercalate "/family/:fid/person/:pid".toList
    [[], "family".toList, ":fid".toList, "person".toList, ":pid".toList]
    (by decide) (by decide) (by decide) hp hgs hg
  have hfamily := matchTemplate_intercalate "/family/:fid".toList
    [[], "family".toList, ":fid".toList] (by decide) (by decide) (by decide) hp hgs hg
  have hsearch := matchTemplate_intercalate "/search".toList [[], "search".toList]
    (by decide) (by decide) (by decide) hp hgs hg
  have hhome := matchTemplate_intercalate "/".toList [[], []]
    (by decide) (by decide) (by decide) hp hgs hg
  rw [find_homeRoute, hperson, hfamily, hsearch, hhome]

theorem find_path_home : homeRoute.find (Value.path .home).toList = some (readHome, []) := by
  have hpath : (Value.path .home).toList = ['/'].intercalate [[], []] := by decide
  rw [find_homeRoute_pieces hpath (by decide) (by decide)]
  rfl

theorem find_path_family (fid : String) :
    homeRoute.find (Value.path (.family fid)).toList =
      if fid = "" then none else some (readFamily, [("fid", fid)]) := by
  have hpath : (Value.path (.family fid)).toList =
      ['/'].intercalate [[], "family".toList, (Percent.encode fid).toList] := by
    simp [Value.path]
  have hslash : ∀ l ∈ [[], "family".toList, (Percent.encode fid).toList], '/' ∉ l := by
    simp [slash_not_mem_encode]
  have hperson := matchPieces_of_length_ne
    [[], "family".toList, ":fid".toList, "person".toList, ":pid".toList]
    [[], "family".toList, (Percent.encode fid).toList] (by simp)
  rw [find_homeRoute_pieces hpath hslash (by simp), hperson,
    matchPieces_of_length_ne [[], "search".toList] _ (by simp),
    matchPieces_of_length_ne [[], []] _ (by simp), matchPieces_literal (by decide), if_pos rfl,
    matchPieces_literal (by decide), if_pos rfl]
  have hparam := matchPieces_written "fid".toList fid [] []
  rw [show ":fid".toList = ':' :: "fid".toList from rfl, hparam]
  by_cases hfid : fid = ""
  · simp [hfid]
  · simp [hfid, matchPieces]

theorem find_path_person (fid : String) (pid : UInt32) (color : Color) (tags : List Color)
    (note? : Option String) (extra? : Option Draft) :
    homeRoute.find (Value.path (.person fid pid color tags note? extra?)).toList =
      if fid = "" then none
      else some (readPerson, [("fid", fid), ("pid", toString pid.toNat)]) := by
  have hpath : (Value.path (.person fid pid color tags note? extra?)).toList =
      ['/'].intercalate [[], "family".toList, (Percent.encode fid).toList, "person".toList,
        (Percent.encode (toString pid.toNat)).toList] := by
    simp [Value.path]
  have hslash : ∀ l ∈ [[], "family".toList, (Percent.encode fid).toList, "person".toList,
      (Percent.encode (toString pid.toNat)).toList], '/' ∉ l := by
    simp [slash_not_mem_encode]
  have hnumber : toString pid.toNat ≠ "" := Nat.repr_ne_empty
  rw [find_homeRoute_pieces hpath hslash (by simp),
    matchPieces_of_length_ne [[], "family".toList, ":fid".toList] _ (by simp),
    matchPieces_of_length_ne [[], "search".toList] _ (by simp),
    matchPieces_of_length_ne [[], []] _ (by simp), matchPieces_literal (by decide),
    if_pos rfl, matchPieces_literal (by decide), if_pos rfl,
    show ":fid".toList = ':' :: "fid".toList from rfl, matchPieces_written,
    matchPieces_literal (by decide), if_pos rfl,
    show ":pid".toList = ':' :: "pid".toList from rfl, matchPieces_written, if_neg hnumber]
  by_cases hfid : fid = ""
  · simp [hfid]
  · simp [hfid, matchPieces]

theorem find_path_search (q : String) (pageSize : UInt32) (exact : Bool) (sort : String) :
    homeRoute.find (Value.path (.search q pageSize exact sort)).toList =
      some (readSearch, []) := by
  have hpath : (Value.path (.search q pageSize exact sort)).toList =
      ['/'].intercalate [[], "search".toList] := show "/search".toList = _ by decide
  rw [find_homeRoute_pieces hpath (by decide) (by decide)]
  rfl

theorem find_path_settings (extra : Draft) :
    appShell.find (Value.path (.settings extra)).toList = some (readSettings, []) := by
  have hpath : (Value.path (.settings extra)).toList =
      ['/'].intercalate [[], "settings".toList] := show "/settings".toList = _ by decide
  rw [find_appShell, matchTemplate_intercalate _ [[], "settings".toList] (by decide)
    (by decide) (by decide) hpath (by decide) (by decide)]
  rfl

/-! ## Values of queries -/

/-- A pair for a value other than its default is there for that value only. -/
theorem valuesOf_pairUnless {α : Type} [DecidableEq α] (default : α) (key k : String)
    (text : α → String) (a : α) :
    valuesOf k (pairUnless default key text a) =
      if k = key ∧ a ≠ default then [text a] else [] := by
  unfold pairUnless
  by_cases ha : a = default
  · simp [ha, valuesOf]
  · by_cases hk : k = key
    · simp [ha, hk, valuesOf]
    · simp [ha, hk, valuesOf, Ne.symm hk]

/-- A value is read back from its pair, or taken from its default where there is no pair. -/
theorem convert?_pairUnless {α : Type} [DecidableEq α] (default : α) (key : String)
    (text : α → String) (read : String → Option α) {a : α} (h : read (text a) = some a) :
    ∃ o, convert? key (valuesOf key (pairUnless default key text a)).head? read = .ok o ∧
      o.getD default = a := by
  rw [valuesOf_pairUnless]
  by_cases ha : a = default
  · refine ⟨none, ?_, ?_⟩
    · simp [ha, convert?]
    · rw [Option.getD_none, ha]
  · refine ⟨some a, ?_, rfl⟩
    simp [ha, convert?, convert, h, Except.map]

theorem boolOfText?_boolText (b : Bool) : boolOfText? (boolText b) = some b := by
  cases b <;> rfl

/-! ## Readers -/

/-- The request that is made of a place's query and payload. -/
def requestOf (params : Params) (v : Value) : Request Draft :=
  ⟨params, Query.parse (queryText v.query).toList, v.payload?⟩

theorem first?_requestOf (params : Params) (v : Value) (key : String) :
    (requestOf params v).first? key = (valuesOf key v.query).head? :=
  Query.lookup_first_parse v.query key

theorem all?_requestOf (params : Params) (v : Value) (key : String) :
    ((requestOf params v).all? key).getD [] = valuesOf key v.query := by
  rw [requestOf, Request.all?, Query.lookup_all_parse]
  split
  · next h => rw [h, Option.getD_none]
  · rfl

section Person

variable (fid : String) (pid : UInt32) (color : Color) (tags : List Color) (note? : Option String)
  (extra? : Option Draft)

theorem valuesOf_person_color :
    valuesOf "color" (Value.query (.person fid pid color tags note? extra?)) =
      valuesOf "color" (pairUnless .red "color" Color.text color) := by
  have htags : valuesOf "color" (tags.map fun t => ("tags", t.text)) = [] :=
    valuesOf_eq_nil (by simp)
  have hnote : valuesOf "color" (note?.map fun n => ("note", n)).toList = [] :=
    valuesOf_eq_nil (by simp)
  rw [Value.query, valuesOf_append, valuesOf_append, htags, hnote, List.append_nil,
    List.append_nil]

theorem valuesOf_person_tags :
    valuesOf "tags" (Value.query (.person fid pid color tags note? extra?)) =
      tags.map Color.text := by
  have hcolor : valuesOf "tags" (pairUnless .red "color" Color.text color) = [] := by
    rw [valuesOf_pairUnless]
    simp
  have htags := valuesOf_map "tags" (tags.map Color.text)
  have hnote : valuesOf "tags" (note?.map fun n => ("note", n)).toList = [] :=
    valuesOf_eq_nil (by simp)
  rw [List.map_map] at htags
  rw [Value.query, valuesOf_append, valuesOf_append, hcolor, hnote, List.append_nil,
    List.nil_append]
  exact htags

theorem valuesOf_person_note :
    valuesOf "note" (Value.query (.person fid pid color tags note? extra?)) = note?.toList := by
  have hcolor : valuesOf "note" (pairUnless .red "color" Color.text color) = [] := by
    rw [valuesOf_pairUnless]
    simp
  have htags : valuesOf "note" (tags.map fun t => ("tags", t.text)) = [] :=
    valuesOf_eq_nil (by simp)
  rw [Value.query, valuesOf_append, valuesOf_append, hcolor, htags]
  cases note? <;> simp [valuesOf]

theorem readPerson_requestOf :
    readPerson (requestOf [("fid", fid), ("pid", toString pid.toNat)]
        (.person fid pid color tags note? extra?)) =
      .ok (.person fid pid color tags note? extra?) := by
  obtain ⟨color?, hcolor, hcolor'⟩ :=
    convert?_pairUnless Color.red "color" Color.text Color.ofText? (Color.ofText?_text color)
  have htags : (tags.map Color.text).mapM (fun raw => convert "tags" raw Color.ofText?) =
      .ok tags := by
    refine mapM_map_eq_ok fun t _ => ?_
    rw [convert, Color.ofText?_text]
  have hnote : convert? "note" note?.toList.head? some = .ok note? := by
    cases note? <;> rfl
  have hnumber : Decimal.word? pid.toNat.repr = some pid := Decimal.word?_toString pid
  unfold readPerson
  rw [first?_requestOf, first?_requestOf, all?_requestOf, valuesOf_person_color,
    valuesOf_person_tags, valuesOf_person_note, hcolor, htags, hnote]
  simp [requestOf, Request.param?, boundTo?, require, convert, hnumber, hcolor',
    bind, Except.bind, pure, Except.pure, Value.payload?, List.lookup_cons]

end Person

section Search

variable (q : String) (pageSize : UInt32) (exact : Bool) (sort : String)

theorem valuesOf_search (key : String) :
    valuesOf key (Value.query (.search q pageSize exact sort)) =
      valuesOf key [("q", q)] ++
        valuesOf key (pairUnless 20 "page-size" (fun n => toString n.toNat) pageSize) ++
        valuesOf key (pairUnless false "exact" boolText exact) ++
        valuesOf key (pairUnless "name" "sort" id sort) := by
  rw [Value.query, valuesOf_append, valuesOf_append, valuesOf_append]

theorem valuesOf_search_q : valuesOf "q" (Value.query (.search q pageSize exact sort)) = [q] := by
  rw [valuesOf_search, valuesOf_pairUnless, valuesOf_pairUnless, valuesOf_pairUnless]
  simp [valuesOf]

theorem valuesOf_search_pageSize :
    valuesOf "page-size" (Value.query (.search q pageSize exact sort)) =
      valuesOf "page-size" (pairUnless 20 "page-size" (fun n => toString n.toNat) pageSize) := by
  have hq : valuesOf "page-size" [("q", q)] = [] := valuesOf_eq_nil (by simp)
  rw [valuesOf_search, hq, valuesOf_pairUnless _ "exact", valuesOf_pairUnless _ "sort"]
  simp

theorem valuesOf_search_exact :
    valuesOf "exact" (Value.query (.search q pageSize exact sort)) =
      valuesOf "exact" (pairUnless false "exact" boolText exact) := by
  have hq : valuesOf "exact" [("q", q)] = [] := valuesOf_eq_nil (by simp)
  rw [valuesOf_search, hq, valuesOf_pairUnless _ "page-size", valuesOf_pairUnless _ "sort"]
  simp

theorem valuesOf_search_sort :
    valuesOf "sort" (Value.query (.search q pageSize exact sort)) =
      valuesOf "sort" (pairUnless "name" "sort" id sort) := by
  have hq : valuesOf "sort" [("q", q)] = [] := valuesOf_eq_nil (by simp)
  rw [valuesOf_search, hq, valuesOf_pairUnless _ "page-size", valuesOf_pairUnless _ "exact"]
  simp

theorem readSearch_requestOf :
    readSearch (requestOf [] (.search q pageSize exact sort)) =
      .ok (.search q pageSize exact sort) := by
  obtain ⟨size?, hsize, hsize'⟩ := convert?_pairUnless (20 : UInt32) "page-size"
    (fun n => toString n.toNat) Decimal.word? (Decimal.word?_toString pageSize)
  obtain ⟨flag?, hexact, hexact'⟩ :=
    convert?_pairUnless false "exact" boolText boolOfText? (boolOfText?_boolText exact)
  obtain ⟨sort?, hsort, hsort'⟩ := convert?_pairUnless "name" "sort" id some (a := sort) rfl
  unfold readSearch
  rw [first?_requestOf, first?_requestOf, first?_requestOf, first?_requestOf, valuesOf_search_q,
    valuesOf_search_pageSize, valuesOf_search_exact, valuesOf_search_sort, hsize, hexact, hsort]
  simp [require, bind, Except.bind, pure, Except.pure, hsize', hexact', hsort']

end Search

/-! ## Round trip -/

namespace Value

/-- The tree that holds the route of a place. -/
def tree : Value → Route Reader
  | settings _ => appShell
  | _ => homeRoute

/-- The family that a place belongs to. -/
def fid? : Value → Option String
  | family fid => some fid
  | person fid _ _ _ _ _ => some fid
  | _ => none

theorem question_not_mem_path (v : Value) : '?' ∉ v.path.toList := by
  have hwritten : ∀ s, '?' ∉ (Percent.encode s).toList :=
    Percent.not_mem_encode (by decide)
  cases v <;> simp [path, hwritten]

/-- What a place's own tree makes of its location and its payload: the place itself, unless the
place belongs to a family without a name; then no route matches. -/
theorem decode_location (v : Value) :
    v.tree.decode v.location v.payload? =
      if v.fid? = some "" then none else some (.ok v) := by
  rw [location, Route.decode_writeLocation _ v.question_not_mem_path]
  cases v with
  | home =>
    rw [show tree home = homeRoute from rfl, find_path_home]
    rfl
  | family fid =>
    rw [show tree (family fid) = homeRoute from rfl, find_path_family]
    by_cases hfid : fid = ""
    · simp [hfid, fid?]
    · simp only [if_neg hfid, Option.map_some, fid?, Option.some.injEq]
      rfl
  | person fid pid color tags note? extra? =>
    rw [show tree (person fid pid color tags note? extra?) = homeRoute from rfl, find_path_person]
    by_cases hfid : fid = ""
    · simp [hfid, fid?]
    · simp only [if_neg hfid, Option.map_some, fid?, Option.some.injEq]
      exact readPerson_requestOf fid pid color tags note? extra?
  | search q pageSize exact sort =>
    rw [show tree (search q pageSize exact sort) = homeRoute from rfl, find_path_search]
    exact congrArg some (readSearch_requestOf q pageSize exact sort)
  | settings extra =>
    rw [show tree (settings extra) = appShell from rfl, find_path_settings]
    rfl

end Value

end Sample

end TypedRoutes
