import Mathlib.Data.List.Nodup
import TypedRoutes.Proofs.Query

/-!
# Queries of any text

* `Query.Coherent` : both maps of a query have the same keys, and a key's single value is the first
  of all its values;
* `Coherent.add`, `Coherent.addAll`, `coherent_parse` : pairs keep a query coherent, so every text
  has a coherent query;
* `pairs_append`, `pairs_intercalate` : the pairs of a text are those of its parts in turn;
* `Halves` : a pair as it is written; `readPair_of_halves` : what it is read as;
* `parse_coherent` : the queries of texts, of texts without a pair that cannot be decoded, and of
  texts that are put together.
-/

namespace TypedRoutes.Navigation

open Text

namespace Query

/-! ## Keys -/

theorem mem_keys_iff {β : Type} {entries : List (String × β)} {key : String} :
    key ∈ entries.map Prod.fst ↔ (entries.lookup key).isSome := by
  rw [← not_iff_not, Option.not_isSome_iff_eq_none, List.lookup_eq_none_iff]
  constructor
  · intro h p hp
    rw [bne_iff_ne]
    rintro rfl
    exact h (List.mem_map_of_mem hp)
  · intro h hmem
    obtain ⟨p, hp, rfl⟩ := List.mem_map.1 hmem
    exact absurd (h p hp) (by simp)

theorem keys_append (key value : String) (all : List (String × List String)) :
    (append key value all).map Prod.fst =
      if key ∈ all.map Prod.fst then all.map Prod.fst else all.map Prod.fst ++ [key] := by
  induction all with
  | nil => rfl
  | cons entry rest ih =>
    obtain ⟨k, vs⟩ := entry
    unfold append
    by_cases hk : k = key
    · simp [hk]
    · rw [if_neg hk, List.map_cons, ih]
      simp only [List.map_cons, List.mem_cons, Ne.symm hk, false_or]
      split <;> rfl

theorem keys_first_add (q : Query) (key value : String) :
    (q.add key value).first.map Prod.fst =
      if key ∈ q.first.map Prod.fst then q.first.map Prod.fst
      else q.first.map Prod.fst ++ [key] := by
  by_cases h : (q.first.lookup key).isSome = true
  · rw [if_pos (mem_keys_iff.2 h)]
    simp [add, h]
  · rw [if_neg (mt mem_keys_iff.1 h)]
    simp [add, h]

/-! ## Coherence -/

/-- Both maps of a query belong together. -/
structure Coherent (q : Query) : Prop where
  /-- They have the same keys. -/
  keys : q.first.map Prod.fst = q.all.map Prod.fst
  /-- No key is there twice. -/
  distinct : (q.all.map Prod.fst).Nodup
  /-- A key has a value, and the single one is the first of all. -/
  heads : ∀ key values, q.all.lookup key = some values →
    ∃ value rest, values = value :: rest ∧ q.first.lookup key = some value

theorem coherent_empty : Coherent {} :=
  ⟨rfl, .nil, by simp⟩

/-- One more pair keeps a query coherent. -/
theorem Coherent.add {q : Query} (h : q.Coherent) (key value : String) :
    (q.add key value).Coherent := by
  have hall : (q.add key value).all = append key value q.all := rfl
  refine ⟨?_, ?_, ?_⟩
  · rw [keys_first_add, hall, keys_append, h.keys]
  · rw [hall, keys_append]
    split
    · exact h.distinct
    · next hnew =>
      rw [← List.concat_eq_append]
      exact List.Nodup.concat hnew h.distinct
  · intro k values hk
    rw [lookup_first_add]
    rw [hall, lookup_append_values] at hk
    by_cases heq : k = key
    · subst heq
      rw [if_pos rfl] at hk ⊢
      obtain rfl := Option.some.inj hk
      cases hlookup : q.all.lookup k with
      | none =>
        -- a key without values has no single value either, so both maps take the new one
        have hfirst : q.first.lookup k = none := by
          rw [← Option.not_isSome_iff_eq_none, ← mem_keys_iff, h.keys, mem_keys_iff, hlookup]
          simp
        exact ⟨value, [], rfl, by rw [hfirst]; rfl⟩
      | some vs =>
        obtain ⟨v, rest, rfl, hfirst⟩ := h.heads k vs hlookup
        exact ⟨v, rest ++ [value], rfl, by rw [hfirst]; rfl⟩
    · rw [if_neg heq] at hk ⊢
      rw [Option.or_none]
      exact h.heads k values hk

/-- Any pairs keep a query coherent. -/
theorem Coherent.addAll {q : Query} (h : q.Coherent) (ps : List (String × String)) :
    (ps.foldl (fun q (k, v) => q.add k v) q).Coherent := by
  induction ps generalizing q with
  | nil => exact h
  | cons p ps ih => exact ih (h.add p.1 p.2)

theorem coherent_parse (query : List Char) : (parse query).Coherent :=
  coherent_empty.addAll (pairs query)

/-! ## Pairs of a text -/

@[simp]
theorem pairs_nil : pairs [] = [] := by
  rfl

/-- The pairs of a text are those of what is in front of an ampersand and of what is behind it. -/
theorem pairs_append (xs ys : List Char) : pairs (xs ++ '&' :: ys) = pairs xs ++ pairs ys := by
  have hsplit : (xs ++ '&' :: ys).splitOnP (· == '&') =
      xs.splitOnP (· == '&') ++ ys.splitOnP (· == '&') :=
    List.splitOnP_append_cons xs ys (beq_self_eq_true '&')
  unfold pairs
  rw [hsplit, List.filter_append, List.filterMap_append]

theorem pairs_intercalate (ls : List (List Char)) :
    pairs (['&'].intercalate ls) = ls.flatMap pairs := by
  induction ls with
  | nil => rfl
  | cons l ls ih =>
    cases ls with
    | nil => simp
    | cons l' ls =>
      rw [List.intercalate_cons_cons, List.append_assoc, List.singleton_append, pairs_append, ih,
        List.flatMap_cons (x := l)]

theorem pairs_of_notMem {pair : List Char} (h : '&' ∉ pair) (hne : pair ≠ []) :
    pairs pair = (readPair pair).toList := by
  have hsplit : pair.splitOnP (· == '&') = [pair] := List.splitOn_eq_singleton h
  have hkeep : [pair].filter (fun p => !p.isEmpty) = [pair] := by simp [hne]
  unfold pairs
  rw [hsplit, hkeep]
  cases hread : readPair pair <;> simp [hread]

/-- A pair as it is written: a key and a value with an equals sign between them, the first in the
pair, or a key alone, which has the empty value. -/
def Halves (pair key value : List Char) : Prop :=
  '=' ∉ key ∧ (pair = key ++ '=' :: value ∨ pair = key ∧ value = [])

theorem readPair_of_halves {pair key value : List Char} (h : Halves pair key value) :
    readPair pair =
      (Percent.decode (String.ofList key)).bind fun k =>
        (Percent.decode (String.ofList value)).map fun v => (k, v) := by
  have hsplit : splitOnce '=' pair = (key, value) := by
    obtain ⟨hkey, rfl | ⟨rfl, rfl⟩⟩ := h
    · exact splitOnce_append hkey value
    · exact splitOnce_of_not_mem hkey
  unfold readPair
  rw [hsplit]
  dsimp only
  cases Percent.decode (String.ofList key) <;> cases Percent.decode (String.ofList value) <;> rfl

/-- All values of a key in order, none if the query does not have it. -/
def values (q : Query) (key : String) : List String :=
  (q.all.lookup key).getD []

theorem values_parse (query : List Char) (key : String) :
    (parse query).values key = valuesOf key (pairs query) := by
  rw [values, lookup_all_pairs]
  split
  · next hnone => rw [hnone]; rfl
  · rfl

/-! ## Texts -/

/-- The query of any text is coherent. A pair whose key or value cannot be decoded may be left out,
and any other that is not empty has its value under its key. Of two texts with an ampersand between
them a key has the values of the first and then those of the second. -/
theorem parse_coherent :
    (∀ query, (parse query).Coherent) ∧
    (∀ pair key value, '&' ∉ pair → Halves pair key value →
      (Percent.decode (String.ofList key) = none ∨ Percent.decode (String.ofList value) = none →
        ∀ before behind, parse (['&'].intercalate (before ++ pair :: behind)) =
          parse (['&'].intercalate (before ++ behind))) ∧
      ∀ k v, pair ≠ [] → Percent.decode (String.ofList key) = some k →
        Percent.decode (String.ofList value) = some v → parse pair = ⟨[(k, v)], [(k, [v])]⟩) ∧
    ∀ xs ys key,
      (parse (xs ++ '&' :: ys)).values key = (parse xs).values key ++ (parse ys).values key := by
  refine ⟨coherent_parse, ?_, ?_⟩
  · intro pair key value hamp hhalves
    have hread := readPair_of_halves hhalves
    constructor
    · intro hfault before behind
      have hnone : pairs pair = [] := by
        by_cases hne : pair = []
        · rw [hne, pairs_nil]
        · rw [pairs_of_notMem hamp hne, hread]
          rcases hfault with hkey | hvalue
          · rw [hkey]
            rfl
          · rw [hvalue]
            cases Percent.decode (String.ofList key) <;> rfl
      unfold parse
      rw [pairs_intercalate, pairs_intercalate, List.flatMap_append, List.flatMap_append,
        List.flatMap_cons, hnone, List.nil_append]
    · intro k v hne hkey hvalue
      unfold parse
      rw [pairs_of_notMem hamp hne, hread, hkey, hvalue]
      rfl
  · intro xs ys key
    rw [values_parse, values_parse, values_parse, pairs_append, valuesOf_append]

/-- A key with a broken escape between values of another key, and a value with an equals sign. -/
theorem parse_coherent_broken :
    '&' ∉ "%zz=1".toList ∧ Halves "%zz=1".toList "%zz".toList "1".toList ∧
      Percent.decode (String.ofList "%zz".toList) = none ∧
      parse "a=1&%zz=1&a=2".toList = parse "a=1&a=2".toList ∧
      '&' ∉ "a=1=2".toList ∧ Halves "a=1=2".toList "a".toList "1=2".toList ∧
      "a=1=2".toList ≠ [] ∧ Percent.decode (String.ofList "a".toList) = some "a" ∧
      Percent.decode (String.ofList "1=2".toList) = some "1=2" ∧
      parse "a=1=2".toList = ⟨[("a", "1=2")], [("a", ["1=2"])]⟩ := by
  obtain ⟨-, hpair, -⟩ := parse_coherent
  have hamp : '&' ∉ "%zz=1".toList := by decide
  have hhalves : Halves "%zz=1".toList "%zz".toList "1".toList :=
    ⟨by decide, Or.inl (by decide)⟩
  have hkey : Percent.decode (String.ofList "%zz".toList) = none := by decide +kernel
  have hwith : ['&'].intercalate (["a=1".toList] ++ "%zz=1".toList :: ["a=2".toList]) =
      "a=1&%zz=1&a=2".toList := by decide
  have hwithout : ['&'].intercalate (["a=1".toList] ++ ["a=2".toList]) = "a=1&a=2".toList := by
    decide
  have hdropped := (hpair _ _ _ hamp hhalves).1 (Or.inl hkey) ["a=1".toList] ["a=2".toList]
  rw [hwith, hwithout] at hdropped
  have hamp' : '&' ∉ "a=1=2".toList := by decide
  have hhalves' : Halves "a=1=2".toList "a".toList "1=2".toList :=
    ⟨by decide, Or.inl (by decide)⟩
  have hne : "a=1=2".toList ≠ [] := by decide
  have hkey' : Percent.decode (String.ofList "a".toList) = some "a" := by decide +kernel
  have hvalue' : Percent.decode (String.ofList "1=2".toList) = some "1=2" := by decide +kernel
  exact ⟨hamp, hhalves, hkey, hdropped, hamp', hhalves', hne, hkey', hvalue',
    (hpair _ _ _ hamp' hhalves').2 _ _ hne hkey' hvalue'⟩

end Query

end TypedRoutes.Navigation
