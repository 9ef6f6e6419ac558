import Mathlib.Data.List.TakeWhile
import TypedRoutes.Navigation.Route
import TypedRoutes.Proofs.Percent

/-!
# Queries: reading what was written

* `queryText` : the text of a list of pairs;
* `pairs_queryText` : the pairs of a written query are those that were written;
* `splitLocation_writeLocation` : a location is split into its path and its query;
* `decode_writeLocation` : what decoding a written location comes to;
* `valuesOf` : the values of a key among pairs;
* `lookup_first_parse`, `lookup_all_parse` : what a written query has under a key;
* `parse_query_writeLocation` : what a written location has under a key.
-/

namespace TypedRoutes.Navigation

open Text

/-! ## Splitting -/

theorem splitOnce_append {c : Char} {before : List Char} (h : c ∉ before) (behind : List Char) :
    splitOnce c (before ++ c :: behind) = (before, behind) := by
  have hall : ∀ d ∈ before, (d != c) = true := by
    intro d hd
    rw [bne_iff_ne]
    rintro rfl
    exact h hd
  unfold splitOnce
  rw [List.takeWhile_append_of_pos hall, List.dropWhile_append_of_pos hall]
  simp

theorem splitOnce_of_not_mem {c : Char} {cs : List Char} (h : c ∉ cs) :
    splitOnce c cs = (cs, []) := by
  have hall : ∀ d ∈ cs, (d != c) = true := by
    intro d hd
    rw [bne_iff_ne]
    rintro rfl
    exact h hd
  unfold splitOnce
  rw [List.takeWhile_eq_self_iff.2 hall, List.dropWhile_eq_nil_iff.2 hall]
  rfl

/-! ## Pairs -/

theorem toList_writePair (key value : String) :
    (writePair key value).toList =
      (Percent.encode key).toList ++ '=' :: (Percent.encode value).toList := by
  simp [writePair]

theorem readPair_writePair (key value : String) :
    Query.readPair (writePair key value).toList = some (key, value) := by
  have hkey : '=' ∉ (Percent.encode key).toList := Percent.not_mem_encode (by decide) key
  rw [toList_writePair]
  unfold Query.readPair
  rw [splitOnce_append hkey]
  simp only [String.ofList_toList, Percent.decode_encode]
  rfl

theorem not_mem_writePair {c : Char} (h : Percent.isWritten c = false) (hne : c ≠ '=')
    (key value : String) : c ∉ (writePair key value).toList := by
  rw [toList_writePair, List.mem_append, List.mem_cons]
  rintro (hc | rfl | hc)
  · exact Percent.not_mem_encode h key hc
  · exact hne rfl
  · exact Percent.not_mem_encode h value hc

/-! ## Queries -/

/-- The text of a list of pairs. -/
def queryText (ps : List (String × String)) : String :=
  "&".intercalate (ps.map fun (k, v) => writePair k v)

theorem toList_queryText (ps : List (String × String)) :
    (queryText ps).toList =
      ['&'].intercalate (ps.map fun (k, v) => (writePair k v).toList) := by
  rw [queryText, String.toList_intercalate, List.map_map]
  rfl

/-- The pairs of a written query are those that were written. -/
theorem pairs_queryText (ps : List (String × String)) :
    Query.pairs (queryText ps).toList = ps := by
  rw [toList_queryText]
  unfold Query.pairs
  by_cases hps : ps = []
  · subst hps
    rfl
  have hamp : ∀ l ∈ ps.map fun (k, v) => (writePair k v).toList, '&' ∉ l := by
    intro l hl
    obtain ⟨⟨k, v⟩, -, rfl⟩ := List.mem_map.1 hl
    exact not_mem_writePair (by decide) (by decide) k v
  have hne : ∀ l ∈ ps.map fun (k, v) => (writePair k v).toList, (!l.isEmpty) = true := by
    intro l hl
    obtain ⟨⟨k, v⟩, -, rfl⟩ := List.mem_map.1 hl
    simp [toList_writePair]
  have hsplit := List.splitOn_intercalate '&' hamp (by simpa using hps)
  rw [List.splitOn] at hsplit
  rw [hsplit, List.filter_eq_self.2 hne, List.filterMap_map]
  have hread : (Query.readPair ∘ fun (p : String × String) => (writePair p.1 p.2).toList) =
      some := by
    funext p
    exact readPair_writePair p.1 p.2
  rw [hread, List.filterMap_some]

/-- A location is split into its path and its query. -/
theorem splitLocation_writeLocation {path : String} (h : '?' ∉ path.toList)
    (ps : List (String × String)) :
    splitLocation (writeLocation path ps) = (path.toList, (queryText ps).toList) := by
  unfold splitLocation writeLocation
  by_cases hps : ps = []
  · subst hps
    simp only [List.isEmpty_nil, ↓reduceIte]
    exact splitOnce_of_not_mem h
  · have hempty : ps.isEmpty = false := by simpa using hps
    have htext : (path ++ "?" ++ queryText ps).toList =
        path.toList ++ '?' :: (queryText ps).toList := by
      simp
    simp only [hempty, Bool.false_eq_true, ↓reduceIte]
    exact (congrArg (splitOnce '?') htext).trans (splitOnce_append h _)

/-- The target of the route found makes the value of a location. -/
theorem Route.decode_eq_map_find {π α : Type} (r : Route (Request π → Except ReadError α))
    (location : String) (payload : Option π) :
    r.decode location payload =
      (r.find (splitLocation location).1).map fun (target, params) =>
        target ⟨params, Query.parse (splitLocation location).2, payload⟩ := by
  unfold Route.decode
  dsimp only
  cases r.find (splitLocation location).1 <;> rfl

/-- The route of the path makes a value of the parameters, the query and the payload. -/
theorem Route.decode_writeLocation {π α : Type} (r : Route (Request π → Except ReadError α))
    {path : String} (h : '?' ∉ path.toList) (ps : List (String × String)) (payload : Option π) :
    r.decode (writeLocation path ps) payload =
      (r.find path.toList).map fun (target, params) =>
        target ⟨params, Query.parse (queryText ps).toList, payload⟩ := by
  rw [decode_eq_map_find, splitLocation_writeLocation h]

/-! ## Values by key -/

/-- The values of a key among pairs, in order. -/
def valuesOf (key : String) (ps : List (String × String)) : List String :=
  (ps.filter fun p => p.1 = key).map (·.2)

theorem valuesOf_append (key : String) (ps qs : List (String × String)) :
    valuesOf key (ps ++ qs) = valuesOf key ps ++ valuesOf key qs := by
  simp [valuesOf]

theorem valuesOf_eq_nil {key : String} {ps : List (String × String)}
    (h : ∀ p ∈ ps, p.1 ≠ key) : valuesOf key ps = [] := by
  rw [valuesOf, List.map_eq_nil_iff, List.filter_eq_nil_iff]
  intro p hp
  simpa using h p hp

theorem valuesOf_map (key : String) (vs : List String) :
    valuesOf key (vs.map fun v => (key, v)) = vs := by
  simp [valuesOf, List.filter_map, Function.comp_def]

theorem lookup_cons_ne {β : Type} {k key : String} (h : k ≠ key) (b : β)
    (rest : List (String × β)) : ((key, b) :: rest).lookup k = rest.lookup k := by
  rw [List.lookup_cons, beq_eq_false_iff_ne.2 h]

namespace Query

theorem lookup_append_values (key value k : String) (all : List (String × List String)) :
    (append key value all).lookup k =
      if k = key then some ((all.lookup k).getD [] ++ [value]) else all.lookup k := by
  induction all with
  | nil =>
    by_cases hk : k = key
    · subst hk
      simp [append]
    · rw [if_neg hk]
      exact lookup_cons_ne hk _ _
  | cons entry rest ih =>
    obtain ⟨key', vs⟩ := entry
    unfold append
    by_cases hkey : key' = key
    · subst hkey
      rw [if_pos rfl]
      by_cases hk : k = key'
      · subst hk
        simp
      · rw [if_neg hk, lookup_cons_ne hk, lookup_cons_ne hk]
    · rw [if_neg hkey]
      by_cases hk : k = key'
      · subst hk
        simp [hkey]
      · rw [lookup_cons_ne hk, lookup_cons_ne hk]
        exact ih

theorem lookup_first_add (q : Query) (key value k : String) :
    (q.add key value).first.lookup k =
      (q.first.lookup k).or (if k = key then some value else none) := by
  unfold add
  split
  · next h =>
    by_cases hk : k = key
    · subst hk
      obtain ⟨v, hv⟩ := Option.isSome_iff_exists.1 h
      rw [hv]
      rfl
    · simp [hk]
  · next h =>
    rw [List.lookup_append]
    by_cases hk : k = key
    · subst hk
      simp
    · rw [lookup_cons_ne hk, if_neg hk]
      rfl

/-- What the pairs of a query leave under a key: its first value. -/
theorem lookup_first_foldl (ps : List (String × String)) (q : Query) (k : String) :
    (ps.foldl (fun q (k, v) => q.add k v) q).first.lookup k =
      (q.first.lookup k).or (valuesOf k ps).head? := by
  induction ps generalizing q with
  | nil => simp [valuesOf]
  | cons p ps ih =>
    obtain ⟨key, value⟩ := p
    rw [List.foldl_cons, ih, lookup_first_add, Option.or_assoc]
    congr 1
    by_cases hk : k = key
    · subst hk
      simp [valuesOf]
    · simp [valuesOf, hk, Ne.symm hk]

/-- What the pairs of a query leave under a key: all its values. -/
theorem lookup_all_foldl (ps : List (String × String)) (q : Query) (k : String) :
    (ps.foldl (fun q (k, v) => q.add k v) q).all.lookup k =
      if valuesOf k ps = [] then q.all.lookup k
      else some ((q.all.lookup k).getD [] ++ valuesOf k ps) := by
  induction ps generalizing q with
  | nil => simp [valuesOf]
  | cons p ps ih =>
    obtain ⟨key, value⟩ := p
    have hadd : (q.add key value).all = append key value q.all := rfl
    rw [List.foldl_cons, ih, hadd, lookup_append_values]
    by_cases hk : k = key
    · subst hk
      have hcons : valuesOf k ((k, value) :: ps) = value :: valuesOf k ps := by simp [valuesOf]
      by_cases hps : valuesOf k ps = [] <;> simp [hcons, hps]
    · have hcons : valuesOf k ((key, value) :: ps) = valuesOf k ps := by
        simp [valuesOf, Ne.symm hk]
      rw [hcons, if_neg hk]

/-- A query has under a key the first value among its pairs. -/
theorem lookup_first_pairs (query : List Char) (k : String) :
    (parse query).first.lookup k = (valuesOf k (pairs query)).head? := by
  rw [parse, lookup_first_foldl]
  rfl

/-- A query has under a key all values among its pairs, and nothing if there are none. -/
theorem lookup_all_pairs (query : List Char) (k : String) :
    (parse query).all.lookup k =
      if valuesOf k (pairs query) = [] then none else some (valuesOf k (pairs query)) := by
  rw [parse, lookup_all_foldl]
  rfl

/-- A written query has under a key the first of its values. -/
theorem lookup_first_parse (ps : List (String × String)) (k : String) :
    (parse (queryText ps).toList).first.lookup k = (valuesOf k ps).head? := by
  rw [lookup_first_pairs, pairs_queryText]

/-- A written query has under a key all its values, and nothing if there are none. -/
theorem lookup_all_parse (ps : List (String × String)) (k : String) :
    (parse (queryText ps).toList).all.lookup k =
      if valuesOf k ps = [] then none else some (valuesOf k ps) := by
  rw [lookup_all_pairs, pairs_queryText]

end Query

/-! ## Locations -/

/-- A written location is split at its first question mark into its path and a query that has under
every key the values written under it, in their order, and the first of them as the single one. Where
no value was written under a key there is neither. -/
theorem parse_query_writeLocation {path : String} (h : '?' ∉ path.toList)
    (ps : List (String × String)) :
    ∃ query, splitLocation (writeLocation path ps) = (path.toList, query) ∧
      ∀ key,
        (Query.parse query).all.lookup key =
            (if valuesOf key ps = [] then none else some (valuesOf key ps)) ∧
          (Query.parse query).first.lookup key = (valuesOf key ps).head? := by
  refine ⟨(queryText ps).toList, splitLocation_writeLocation h ps, fun key => ?_⟩
  exact ⟨Query.lookup_all_parse ps key, Query.lookup_first_parse ps key⟩

/-- An empty key, an empty value, a key that occurs twice, and values with the characters that
separate the parts of locations. -/
theorem parse_query_writeLocation_search :
    let ps := [("q", ""), ("", "a b"), ("q", "ü&=?%/")]
    '?' ∉ "/search".toList ∧
      ∃ query, splitLocation (writeLocation "/search" ps) = ("/search".toList, query) ∧
        (Query.parse query).all.lookup "q" = some ["", "ü&=?%/"] ∧
        (Query.parse query).first.lookup "q" = some "" ∧
        (Query.parse query).all.lookup "" = some ["a b"] ∧
        (Query.parse query).all.lookup "sort" = none ∧
        (Query.parse query).first.lookup "sort" = none := by
  intro ps
  have hpath : '?' ∉ "/search".toList := by decide
  obtain ⟨query, hsplit, hkeys⟩ := parse_query_writeLocation hpath ps
  obtain ⟨hq, hq'⟩ := hkeys "q"
  obtain ⟨hempty, -⟩ := hkeys ""
  obtain ⟨hsort, hsort'⟩ := hkeys "sort"
  exact ⟨hpath, query, hsplit, hq, hq', hempty, hsort, hsort'⟩

end TypedRoutes.Navigation
