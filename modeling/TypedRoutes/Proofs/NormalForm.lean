import TypedRoutes.Proofs.Chain
import TypedRoutes.Proofs.Sample
import TypedRoutes.Proofs.Substitution

/-!
# Places of the sample application: reading a location and writing it again

* `Route.decode_ok` : a value of a location is made by a route whose template the path matches;
* `Value.reader`, `Value.params` : the reader of a place, and the parameters in its path;
* `find_path`, `reader_requestOf` : a place whose family has a name is found and read again;
* `readFamily_ok`, `readPerson_ok`, … : what each reader makes;
* `named_of_decode` : a place that is decoded belongs to the tree, and its family has a name;
* `decode_location_of_decode` : such a place has a location that is decoded to it.
-/

namespace TypedRoutes

open Navigation Text

namespace Navigation

/-! ## Values of locations -/

theorem Route.decode_ok {π α : Type} {r : Route (Request π → Except ReadError α)}
    {location : String} {payload : Option π} {a : α}
    (h : r.decode location payload = some (.ok a)) :
    ∃ template target params query, (template, target) ∈ r.joined [] ∧
      matchTemplate template (splitLocation location).1 = some params ∧
      target ⟨params, query, payload⟩ = .ok a := by
  rw [Route.decode_eq_map_find] at h
  obtain ⟨⟨target, params⟩, hfind, h⟩ := Option.map_eq_some_iff.1 h
  rw [Route.find_eq_findSome] at hfind
  obtain ⟨⟨template, target'⟩, hmem, htry⟩ := List.exists_of_findSome?_eq_some hfind
  obtain ⟨params', hmatch, heq⟩ := Option.map_eq_some_iff.1 htry
  obtain ⟨rfl, rfl⟩ := Prod.mk.inj heq
  exact ⟨template, target', params', _, hmem, hmatch, h⟩

/-- A parameter that a match binds is bound to a text that is not empty. -/
theorem ne_empty_of_matchTemplate {template path : List Char} {params : Params} {name value : String}
    (h : matchTemplate template path = some params) (hv : boundTo? params name = some value) :
    value ≠ "" := by
  obtain ⟨before, behind, hsplit, -⟩ := List.lookup_eq_some_iff.1 hv
  have hmem : (name, value) ∈ params := by
    rw [← List.mem_reverse, hsplit]
    simp
  exact (bound_of_matchPieces h).2 _ hmem

end Navigation

namespace Sample

/-! ## Places whose family has a name -/

namespace Value

/-- The reader of a place's route. -/
def reader : Value → Reader
  | home => readHome
  | family _ => readFamily
  | person _ _ _ _ _ _ => readPerson
  | search _ _ _ _ => readSearch
  | settings _ => readSettings

/-- The parameters in the path of a place. -/
def params : Value → Params
  | family fid => [("fid", fid)]
  | person fid pid _ _ _ _ => [("fid", fid), ("pid", toString pid.toNat)]
  | _ => []

/-- A place whose family has a name is found under its own path. -/
theorem find_path {v : Value} (h : v.fid? ≠ some "") :
    v.tree.find v.path.toList = some (v.reader, v.params) := by
  cases v with
  | home => exact find_path_home
  | family fid =>
    have hfid : fid ≠ "" := fun heq => h (congrArg some heq)
    exact (find_path_family fid).trans (if_neg hfid)
  | person fid pid color tags note? extra? =>
    have hfid : fid ≠ "" := fun heq => h (congrArg some heq)
    exact (find_path_person fid pid color tags note? extra?).trans (if_neg hfid)
  | search q pageSize exact sort => exact find_path_search q pageSize exact sort
  | settings extra => exact find_path_settings extra

/-- The reader of a place makes it of the request that was written for it. -/
theorem reader_requestOf (v : Value) : v.reader (requestOf v.params v) = .ok v := by
  cases v with
  | home => rfl
  | family fid => rfl
  | person fid pid color tags note? extra? =>
    exact readPerson_requestOf fid pid color tags note? extra?
  | search q pageSize exact sort => exact readSearch_requestOf q pageSize exact sort
  | settings extra => rfl

end Value

/-! ## Places that are read -/

theorem require_eq_ok {α : Type} {key : String} {o : Option α} {a : α} :
    require key o = .ok a ↔ o = some a := by
  cases o <;> simp [require]

section Readers

variable {r : Request Draft} {v : Value}

theorem readFamily_ok (h : readFamily r = .ok v) :
    ∃ fid, r.param? "fid" = some fid ∧ v = .family fid := by
  obtain ⟨fid, hfid, h⟩ := bind_eq_ok.1 h
  exact ⟨fid, require_eq_ok.1 hfid, (pure_eq_ok.1 h).symm⟩

theorem readPerson_ok (h : readPerson r = .ok v) :
    ∃ fid pid color tags note? extra?, r.param? "fid" = some fid ∧
      v = .person fid pid color tags note? extra? := by
  obtain ⟨fid, hfid, h⟩ := bind_eq_ok.1 h
  obtain ⟨raw, -, h⟩ := bind_eq_ok.1 h
  obtain ⟨pid, -, h⟩ := bind_eq_ok.1 h
  obtain ⟨color?, -, h⟩ := bind_eq_ok.1 h
  obtain ⟨tags, -, h⟩ := bind_eq_ok.1 h
  obtain ⟨note?, -, h⟩ := bind_eq_ok.1 h
  exact ⟨fid, pid, _, tags, note?, _, require_eq_ok.1 hfid, (pure_eq_ok.1 h).symm⟩

theorem readSearch_ok (h : readSearch r = .ok v) :
    ∃ q pageSize exact sort, v = .search q pageSize exact sort := by
  obtain ⟨q, -, h⟩ := bind_eq_ok.1 h
  obtain ⟨pageSize?, -, h⟩ := bind_eq_ok.1 h
  obtain ⟨exactly?, -, h⟩ := bind_eq_ok.1 h
  obtain ⟨sort?, -, h⟩ := bind_eq_ok.1 h
  exact ⟨q, _, _, _, (pure_eq_ok.1 h).symm⟩

theorem readSettings_ok (h : readSettings r = .ok v) : ∃ extra, v = .settings extra := by
  obtain ⟨extra, -, h⟩ := bind_eq_ok.1 h
  exact ⟨extra, (pure_eq_ok.1 h).symm⟩

/-- A reader of the home tree makes a place of that tree, and the name of its family stands in the
path. -/
theorem home_of_read {template : List Char} {target : Reader}
    (hmem : (template, target) ∈ homeRoute.joined []) (h : target r = .ok v) :
    v.tree = homeRoute ∧ ∀ fid ∈ v.fid?, r.param? "fid" = some fid := by
  simp only [homeRoute, Route.joined, Route.joinedAll, List.append_nil, List.nil_append,
    List.cons_append, List.mem_cons, List.not_mem_nil, or_false, Prod.mk.injEq] at hmem
  rcases hmem with ⟨-, rfl⟩ | ⟨-, rfl⟩ | ⟨-, rfl⟩ | ⟨-, rfl⟩
  · obtain ⟨fid, pid, color, tags, note?, extra?, hfid, rfl⟩ := readPerson_ok h
    refine ⟨rfl, ?_⟩
    rintro _ ⟨⟩
    exact hfid
  · obtain ⟨fid, hfid, rfl⟩ := readFamily_ok h
    refine ⟨rfl, ?_⟩
    rintro _ ⟨⟩
    exact hfid
  · obtain ⟨q, pageSize, exact, sort, rfl⟩ := readSearch_ok h
    exact ⟨rfl, fun fid hfid => nomatch hfid⟩
  · cases h
    exact ⟨rfl, fun fid hfid => nomatch hfid⟩

/-- The reader in the shell makes settings. -/
theorem settings_of_read {template : List Char} {target : Reader}
    (hmem : (template, target) ∈ appShell.joined []) (h : target r = .ok v) :
    v.tree = appShell ∧ v.fid? = none := by
  simp only [appShell, Route.joined, Route.joinedAll, List.append_nil, List.nil_append,
    List.mem_cons, List.not_mem_nil, or_false, Prod.mk.injEq] at hmem
  obtain ⟨-, rfl⟩ := hmem
  obtain ⟨extra, rfl⟩ := readSettings_ok h
  exact ⟨rfl, rfl⟩

end Readers

/-! ## Normal locations -/

/-- A place that a location is decoded to belongs to the tree, and its family has a name. -/
theorem named_of_decode {root : Route Reader} (hroot : root = homeRoute ∨ root = appShell)
    {location : String} {payload : Option Draft} {v : Value}
    (h : root.decode location payload = some (.ok v)) : v.tree = root ∧ v.fid? ≠ some "" := by
  obtain ⟨template, target, params, query, hmem, hmatch, hread⟩ := Route.decode_ok h
  rcases hroot with rfl | rfl
  · obtain ⟨htree, hfid⟩ := home_of_read hmem hread
    refine ⟨htree, fun hempty => ?_⟩
    exact ne_empty_of_matchTemplate hmatch (hfid "" hempty) rfl
  · obtain ⟨htree, hfid⟩ := settings_of_read hmem hread
    exact ⟨htree, fun hempty => nomatch hfid.symm.trans hempty⟩

/-- Whatever location a place is decoded from, its own location and payload are decoded to the same
place in the same tree. -/
theorem decode_location_of_decode {root : Route Reader} (hroot : root = homeRoute ∨ root = appShell)
    {location : String} {payload : Option Draft} {v : Value}
    (h : root.decode location payload = some (.ok v)) :
    root.decode v.location v.payload? = some (.ok v) := by
  obtain ⟨rfl, hnamed⟩ := named_of_decode hroot h
  rw [Value.location, Route.decode_writeLocation _ v.question_not_mem_path, Value.find_path hnamed]
  exact congrArg some v.reader_requestOf

/-- Small letters in escapes, a number with a plus sign and zeros, a default that is written out, a
pair that is none, and values of one key apart from each other. -/
theorem decode_location_of_decode_person :
    let location := "/family/%c3%a9/person/+007?tags=green&color=red&x=%zz&tags=dark-blue&note="
    let v : Value := .person "é" 7 .red [.green, .darkBlue] (some "") none
    homeRoute.decode location none = some (.ok v) ∧
      v.location = "/family/%C3%A9/person/7?tags=green&tags=dark-blue&note=" ∧
      homeRoute.decode v.location v.payload? = some (.ok v) := by
  intro location v
  have hdecode : homeRoute.decode location none = some (.ok v) := by decide +kernel
  have hlocation : v.location = "/family/%C3%A9/person/7?tags=green&tags=dark-blue&note=" := by
    decide +kernel
  exact ⟨hdecode, hlocation, decode_location_of_decode (Or.inl rfl) hdecode⟩

end Sample

end TypedRoutes
