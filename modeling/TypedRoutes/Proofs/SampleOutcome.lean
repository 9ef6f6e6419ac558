import TypedRoutes.Proofs.PostOrder
import TypedRoutes.Proofs.QueryKey
import TypedRoutes.Proofs.Sample

/-!
# Outcome of decoding a location of the sample application

* `LeadsTo` : the paths of the home tree with what they lead to; `matches_iff` : one route matches each;
* `Given` : a parameter as a request gives it; `Given.Fails`, `FirstFailure` : the error of a parameter, and
  of the first in a row that has one;
* `Answers`, `Runs` : a step of a reader for one parameter, and a reader for a row of them; `Runs.bind`;
* `Makes` : the value that the texts of a request spell;
* `decodeHome_outcome` : what is decoded from each location, value or error.
-/

namespace TypedRoutes

open Navigation Text

/-! ## Pieces of paths -/

namespace Navigation

theorem pieces_eq_iff {path : List Char} {gs : List (List Char)} :
    pieces path = gs ↔ path = ['/'].intercalate gs ∧ (∀ g ∈ gs, '/' ∉ g) ∧ gs ≠ [] := by
  constructor
  · rintro rfl
    refine ⟨(List.intercalate_splitOn '/').symm, fun g hg hslash => ?_, List.splitOnP_ne_nil _ _⟩
    simpa using Words.forall_mem_splitOnP path g hg '/' hslash
  · rintro ⟨rfl, hslash, hne⟩
    exact pieces_intercalate hslash hne

theorem matchPieces_nil_eq_some {gs : List (List Char)} {ps : Params} :
    matchPieces [] gs = some ps ↔ gs = [] ∧ ps = [] := by
  cases gs <;> simp [matchPieces, eq_comm]

theorem matchPieces_literal_eq_some (want : List Char) (h : want.head? ≠ some ':')
    {ws gs : List (List Char)} {ps : Params} :
    matchPieces (want :: ws) gs = some ps ↔
      ∃ rest, gs = want :: rest ∧ matchPieces ws rest = some ps := by
  cases gs with
  | nil => simp [matchPieces_of_length_ne]
  | cons got gs =>
    rw [matchPieces_literal h]
    by_cases heq : want = got
    · simp [heq]
    · simp [heq, Ne.symm heq]

theorem matchPieces_param_eq_some {name : List Char} {ws gs : List (List Char)} {ps : Params} :
    matchPieces ((':' :: name) :: ws) gs = some ps ↔
      ∃ got rest v qs, gs = got :: rest ∧ pieceValue got = some v ∧
        matchPieces ws rest = some qs ∧ ps = (String.ofList name, v) :: qs := by
  cases gs with
  | nil => simp [matchPieces_of_length_ne]
  | cons got gs =>
    rw [matchPieces_param, Option.bind_eq_some_iff]
    constructor
    · rintro ⟨v, hv, h⟩
      obtain ⟨qs, hqs, rfl⟩ := Option.map_eq_some_iff.1 h
      exact ⟨got, gs, v, qs, rfl, hv, hqs, rfl⟩
    · rintro ⟨_, _, v, qs, ⟨⟩, hv, hqs, rfl⟩
      exact ⟨v, hv, Option.map_eq_some_iff.2 ⟨qs, hqs, rfl⟩⟩

end Navigation

namespace Sample

/-! ## Paths of the home tree -/

/-- What a path leads to, with the texts of its parameters. -/
inductive Destination
  | home
  | search
  | family (fid : String)
  | person (fid pid : String)
  deriving DecidableEq, Repr

/-- A piece of a path that a parameter stands for, with its text: it is not empty and decodes to it. -/
def Fills (piece : List Char) (text : String) : Prop :=
  piece ≠ [] ∧ '/' ∉ piece ∧ Percent.decode (String.ofList piece) = some text

/-- The paths of the home tree. -/
inductive LeadsTo : List Char → Destination → Prop
  | home : LeadsTo "/".toList .home
  | search : LeadsTo "/search".toList .search
  | family {x : List Char} {fid : String} (hx : Fills x fid) :
    LeadsTo ("/family/".toList ++ x) (.family fid)
  | person {x y : List Char} {fid pid : String} (hx : Fills x fid) (hy : Fills y pid) :
    LeadsTo ("/family/".toList ++ x ++ "/person/".toList ++ y) (.person fid pid)

namespace Destination

/-- The route of a destination. -/
def leaf : Destination → Route.Leaf Reader
  | home => ⟨[], "/".toList, readHome⟩
  | search => ⟨[1], "/search".toList, readSearch⟩
  | family _ => ⟨[0], "/family/:fid".toList, readFamily⟩
  | person _ _ => ⟨[0, 0], "/family/:fid/person/:pid".toList, readPerson⟩

def params : Destination → Params
  | home => []
  | search => []
  | family fid => [("fid", fid)]
  | person fid pid => [("fid", fid), ("pid", pid)]

end Destination

theorem leaves_homeRoute (fid pid : String) :
    homeRoute.leaves [] =
      [(Destination.person fid pid).leaf, (Destination.family fid).leaf, Destination.search.leaf,
        Destination.home.leaf] := by
  rfl

theorem pieceValue_eq_some {piece : List Char} {text : String} (h : '/' ∉ piece) :
    pieceValue piece = some text ↔ Fills piece text := by
  unfold pieceValue Fills
  cases piece <;> simp_all

/-- The pieces of the paths that lead to a destination. -/
def Destination.IsCut : Destination → List (List Char) → Prop
  | home, gs => gs = [[], []]
  | search, gs => gs = [[], "search".toList]
  | family fid, gs => ∃ x, gs = [[], "family".toList, x] ∧ pieceValue x = some fid
  | person fid pid, gs =>
    ∃ x y, gs = [[], "family".toList, x, "person".toList, y] ∧ pieceValue x = some fid ∧
      pieceValue y = some pid

theorem leadsTo_iff {path : List Char} {d : Destination} :
    LeadsTo path d ↔ d.IsCut (pieces path) := by
  constructor
  · intro h
    cases h with
    | home => exact show pieces _ = _ by decide
    | search => exact show pieces _ = _ by decide
    | @family x fid hx =>
      exact ⟨x, pieces_eq_iff.2 ⟨by simp, by simp [hx.2.1], by simp⟩,
        (pieceValue_eq_some hx.2.1).2 hx⟩
    | @person x y fid pid hx hy =>
      exact ⟨x, y, pieces_eq_iff.2 ⟨by simp, by simp [hx.2.1, hy.2.1], by simp⟩,
        (pieceValue_eq_some hx.2.1).2 hx, (pieceValue_eq_some hy.2.1).2 hy⟩
  · intro h
    cases d with
    | home =>
      obtain ⟨rfl, -, -⟩ := pieces_eq_iff.1 h
      exact .home
    | search =>
      obtain ⟨rfl, -, -⟩ := pieces_eq_iff.1 h
      exact .search
    | family fid =>
      obtain ⟨x, hgs, hx⟩ := h
      obtain ⟨rfl, hslash, -⟩ := pieces_eq_iff.1 hgs
      have hfamily := LeadsTo.family ((pieceValue_eq_some (hslash x (by simp))).1 hx)
      simpa using hfamily
    | person fid pid =>
      obtain ⟨x, y, hgs, hx, hy⟩ := h
      obtain ⟨rfl, hslash, -⟩ := pieces_eq_iff.1 hgs
      have hperson := LeadsTo.person ((pieceValue_eq_some (hslash x (by simp))).1 hx)
        ((pieceValue_eq_some (hslash y (by simp))).1 hy)
      simpa using hperson

/-- A path leads to one destination. -/
theorem LeadsTo.unique {path : List Char} {d d' : Destination} (h : LeadsTo path d)
    (h' : LeadsTo path d') : d = d' := by
  rw [leadsTo_iff] at h h'
  cases d <;> cases d' <;> grind [Destination.IsCut]

section Matching

variable {path : List Char} {ps : Params}

theorem match_home :
    matchTemplate "/".toList path = some ps ↔ LeadsTo path .home ∧ ps = [] := by
  have hpieces : pieces "/".toList = [[], []] := by decide
  rw [matchTemplate, hpieces, leadsTo_iff, matchPieces_literal_eq_some [] (by decide)]
  simp only [matchPieces_literal_eq_some [] (by decide), matchPieces_nil_eq_some]
  constructor
  · rintro ⟨_, hgs, _, rfl, rfl, rfl⟩
    exact ⟨hgs, rfl⟩
  · rintro ⟨hgs, rfl⟩
    exact ⟨_, hgs, _, rfl, rfl, rfl⟩

theorem match_search :
    matchTemplate "/search".toList path = some ps ↔ LeadsTo path .search ∧ ps = [] := by
  have hpieces : pieces "/search".toList = [[], "search".toList] := by decide
  rw [matchTemplate, hpieces, leadsTo_iff, matchPieces_literal_eq_some [] (by decide)]
  simp only [matchPieces_literal_eq_some "search".toList (by decide),
    matchPieces_nil_eq_some]
  constructor
  · rintro ⟨_, hgs, _, rfl, rfl, rfl⟩
    exact ⟨hgs, rfl⟩
  · rintro ⟨hgs, rfl⟩
    exact ⟨_, hgs, _, rfl, rfl, rfl⟩

theorem match_family :
    matchTemplate "/family/:fid".toList path = some ps ↔
      ∃ fid, LeadsTo path (.family fid) ∧ ps = [("fid", fid)] := by
  have hpieces : pieces "/family/:fid".toList = [[], "family".toList, ':' :: "fid".toList] := by
    decide
  rw [matchTemplate, hpieces, matchPieces_literal_eq_some [] (by decide)]
  simp only [matchPieces_literal_eq_some "family".toList (by decide),
    matchPieces_param_eq_some, matchPieces_nil_eq_some, leadsTo_iff]
  constructor
  · rintro ⟨_, hgs, _, rfl, x, _, fid, _, rfl, hx, ⟨rfl, rfl⟩, rfl⟩
    exact ⟨fid, ⟨x, hgs, hx⟩, rfl⟩
  · rintro ⟨fid, ⟨x, hgs, hx⟩, rfl⟩
    exact ⟨_, hgs, _, rfl, x, _, fid, _, rfl, hx, ⟨rfl, rfl⟩, rfl⟩

theorem match_person :
    matchTemplate "/family/:fid/person/:pid".toList path = some ps ↔
      ∃ fid pid, LeadsTo path (.person fid pid) ∧ ps = [("fid", fid), ("pid", pid)] := by
  have hpieces : pieces "/family/:fid/person/:pid".toList =
      [[], "family".toList, ':' :: "fid".toList, "person".toList, ':' :: "pid".toList] := by
    decide
  rw [matchTemplate, hpieces, matchPieces_literal_eq_some [] (by decide)]
  simp only [matchPieces_literal_eq_some "family".toList (by decide),
    matchPieces_literal_eq_some "person".toList (by decide),
    matchPieces_param_eq_some, matchPieces_nil_eq_some, leadsTo_iff]
  constructor
  · rintro ⟨_, hgs, _, rfl, x, _, fid, _, rfl, hx, ⟨_, rfl, y, _, pid, _, rfl, hy, ⟨rfl, rfl⟩, rfl⟩,
      rfl⟩
    exact ⟨fid, pid, ⟨x, y, hgs, hx, hy⟩, rfl⟩
  · rintro ⟨fid, pid, ⟨x, y, hgs, hx, hy⟩, rfl⟩
    exact ⟨_, hgs, _, rfl, x, _, fid, _, rfl, hx, ⟨_, rfl, y, _, pid, _, rfl, hy, ⟨rfl, rfl⟩, rfl⟩,
      rfl⟩

/-- A route matches a path just if the path leads to a destination of that route. -/
theorem matches_iff {l : Route.Leaf Reader} :
    homeRoute.Matches path l ps ↔ ∃ d, LeadsTo path d ∧ l = d.leaf ∧ ps = d.params := by
  rw [Route.Matches, ← Route.mem_leaves, leaves_homeRoute "" ""]
  simp only [List.mem_cons, List.not_mem_nil, or_false]
  constructor
  · rintro ⟨rfl | rfl | rfl | rfl, h⟩
    · obtain ⟨fid, pid, hpath, rfl⟩ := match_person.1 h
      exact ⟨.person fid pid, hpath, rfl, rfl⟩
    · obtain ⟨fid, hpath, rfl⟩ := match_family.1 h
      exact ⟨.family fid, hpath, rfl, rfl⟩
    · obtain ⟨hpath, rfl⟩ := match_search.1 h
      exact ⟨.search, hpath, rfl, rfl⟩
    · obtain ⟨hpath, rfl⟩ := match_home.1 h
      exact ⟨.home, hpath, rfl, rfl⟩
  · rintro ⟨d, hpath, rfl, rfl⟩
    cases d with
    | home => exact ⟨Or.inr (Or.inr (Or.inr rfl)), match_home.2 ⟨hpath, rfl⟩⟩
    | search => exact ⟨Or.inr (Or.inr (Or.inl rfl)), match_search.2 ⟨hpath, rfl⟩⟩
    | family fid => exact ⟨Or.inr (Or.inl rfl), match_family.2 ⟨fid, hpath, rfl⟩⟩
    | person fid pid => exact ⟨Or.inl rfl, match_person.2 ⟨fid, pid, hpath, rfl⟩⟩

/-- The route of a path is the one that it leads to. -/
theorem find_of_leadsTo {d : Destination} (h : LeadsTo path d) :
    homeRoute.find path = some (d.leaf.target, d.params) := by
  refine Route.FirstMatch.find_eq ⟨matches_iff.2 ⟨d, h, rfl, rfl⟩, fun l ps hl => Or.inl ?_⟩
  obtain ⟨d', h', rfl, -⟩ := matches_iff.1 hl
  rw [h.unique h']

theorem find_eq_none_of_not_leadsTo (h : ∀ d, ¬ LeadsTo path d) : homeRoute.find path = none := by
  refine Route.find_eq_none_iff.2 fun l hl => ?_
  cases hmatch : matchTemplate l.template path with
  | none => rfl
  | some ps =>
    obtain ⟨d, hd, -, -⟩ := matches_iff.1 ⟨hl, hmatch⟩
    exact absurd hd (h d)

end Matching

/-! ## Parameters of a request -/

/-- A parameter as a request gives it: the raw texts that count, and which texts convert. -/
structure Given where
  key : String
  required : Bool
  raws : List String
  Converts : String → Prop

namespace Given

/-- A parameter whose values are spelled in some way. -/
def spelled {α : Type} (key : String) (required : Bool) (raws : List String)
    (Spells : α → String → Prop) : Given :=
  ⟨key, required, raws, fun raw => ∃ a, Spells a raw⟩

/-- The parameter is there if it has to be, and all that is there converts. -/
def Fine (g : Given) : Prop :=
  (g.required = true → g.raws ≠ []) ∧ ∀ raw ∈ g.raws, g.Converts raw

/-- The error of a parameter: it is required but absent, or its first text that does not convert. -/
inductive Fails (g : Given) : ReadError → Prop
  | missing (hrequired : g.required = true) (habsent : g.raws = []) : Fails g (.missing g.key)
  | invalid (before : List String) {behind : List String} {raw : String}
    (hraws : g.raws = before ++ raw :: behind)
    (hbefore : ∀ r ∈ before, g.Converts r) (hraw : ¬ g.Converts raw) : Fails g (.invalid g.key raw)

theorem fine_iff {g : Given} : g.Fine ↔ ∀ e, ¬ g.Fails e := by
  constructor
  · rintro ⟨hpresent, hconverts⟩ e (⟨hrequired, habsent⟩ | ⟨_, hraws, -, hraw⟩)
    · exact hpresent hrequired habsent
    · exact hraw (hconverts _ (by simp [hraws]))
  · intro h
    refine ⟨fun hrequired habsent => h _ (.missing hrequired habsent), ?_⟩
    by_contra hbad
    -- the first text that does not convert
    classical
    have hfind : ∃ raw ∈ g.raws, (fun raw => decide (¬ g.Converts raw)) raw = true := by
      simpa using hbad
    obtain ⟨raw, hraw⟩ := Option.isSome_iff_exists.1 (List.find?_isSome.2 hfind)
    obtain ⟨hbad, before, behind, hraws, hbefore⟩ := List.find?_eq_some_iff_append.1 hraw
    exact h _ (.invalid before hraws (fun r hr => by simpa using hbefore r hr) (by simpa using hbad))

end Given

/-- The error of the first parameter in a row that has one. -/
def FirstFailure (gs : List Given) (e : ReadError) : Prop :=
  ∃ before g behind, gs = before ++ g :: behind ∧ (∀ b ∈ before, b.Fine) ∧ g.Fails e

theorem not_firstFailure_nil (e : ReadError) : ¬ FirstFailure [] e := by
  rintro ⟨_, _, _, h, -⟩
  simp at h

theorem firstFailure_cons {g : Given} {gs : List Given} {e : ReadError} :
    FirstFailure (g :: gs) e ↔ g.Fails e ∨ g.Fine ∧ FirstFailure gs e := by
  constructor
  · rintro ⟨before, g', behind, h, hbefore, hfails⟩
    cases before with
    | nil =>
      obtain ⟨rfl, rfl⟩ := List.cons.inj h
      exact Or.inl hfails
    | cons b before =>
      obtain ⟨rfl, rfl⟩ := List.cons.inj h
      obtain ⟨hg, hbefore⟩ := List.forall_mem_cons.1 hbefore
      exact Or.inr ⟨hg, before, g', behind, rfl, hbefore, hfails⟩
  · rintro (hfails | ⟨hg, before, g', behind, rfl, hbefore, hfails⟩)
    · exact ⟨[], g, gs, rfl, by simp, hfails⟩
    · exact ⟨g :: before, g', behind, rfl, List.forall_mem_cons.2 ⟨hg, hbefore⟩, hfails⟩

/-! ## Steps of readers -/

section Steps

variable {α β : Type}

/-- A step of a reader answers for a parameter: which values it has, and which error. -/
structure Answers (x : Except ReadError α) (g : Given) (P : α → Prop) : Prop where
  ok_iff : ∀ a, x = .ok a ↔ P a
  error_iff : ∀ e, x = .error e ↔ g.Fails e

/-- A reader runs along a row of parameters: which values it has, and the error of the first that has
one. -/
structure Runs (x : Except ReadError α) (gs : List Given) (P : α → Prop) : Prop where
  ok_iff : ∀ a, x = .ok a ↔ P a
  error_iff : ∀ e, x = .error e ↔ FirstFailure gs e

theorem Answers.exists_iff {x : Except ReadError α} {g : Given} {P : α → Prop}
    (h : Answers x g P) : (∃ a, P a) ↔ g.Fine := by
  rw [Given.fine_iff]
  simp only [← h.ok_iff, ← h.error_iff]
  cases x <;> simp

theorem Runs.exists_iff {x : Except ReadError α} {gs : List Given} {P : α → Prop}
    (h : Runs x gs P) : (∃ a, x = .ok a) ↔ ∀ g ∈ gs, g.Fine := by
  have hnone : (∀ g ∈ gs, g.Fine) ↔ ∀ e, ¬ FirstFailure gs e := by
    clear h
    induction gs with
    | nil => simp [not_firstFailure_nil]
    | cons g gs ih =>
      rw [List.forall_mem_cons, ih]
      simp only [firstFailure_cons, not_or, not_and, forall_and, ← Given.fine_iff]
      constructor
      · rintro ⟨hg, hgs⟩
        exact ⟨hg, fun e _ => hgs e⟩
      · rintro ⟨hg, hgs⟩
        exact ⟨hg, fun e => hgs e hg⟩
  rw [hnone]
  simp only [← h.error_iff]
  cases x <;> simp

theorem Runs.ok (a : α) : Runs (.ok a : Except ReadError α) [] (a = ·) where
  ok_iff b := by simp
  error_iff e := by simp [not_firstFailure_nil]

theorem Runs.bind {x : Except ReadError α} {f : α → Except ReadError β} {g : Given}
    {gs : List Given} {P : α → Prop} {Q : α → β → Prop} (hx : Answers x g P)
    (hf : ∀ a, Runs (f a) gs (Q a)) :
    Runs (x >>= f) (g :: gs) fun b => ∃ a, P a ∧ Q a b where
  ok_iff b := by
    rw [bind_eq_ok]
    simp only [hx.ok_iff, (hf _).ok_iff]
  error_iff e := by
    rw [bind_eq_error, firstFailure_cons, ← hx.exists_iff, hx.error_iff]
    simp only [hx.ok_iff, (hf _).error_iff, exists_and_right]

/-- A reader of texts knows the spelling of values. -/
def Reads (read : String → Option α) (Spells : α → String → Prop) : Prop :=
  ∀ raw a, read raw = some a ↔ Spells a raw

variable {read : String → Option α} {Spells : α → String → Prop} (key : String)

theorem convert_eq_ok (h : Reads read Spells) {raw : String} {a : α} :
    convert key raw read = .ok a ↔ Spells a raw := by
  rw [convert, ← h raw a]
  cases read raw <;> simp

theorem convert_eq_error (h : Reads read Spells) {raw : String} {e : ReadError} :
    convert key raw read = .error e ↔ (¬ ∃ a, Spells a raw) ∧ e = .invalid key raw := by
  rw [convert]
  simp only [← h raw]
  cases read raw <;> simp [eq_comm]

theorem fails_nil {required : Bool} {e : ReadError} :
    (Given.spelled key required [] Spells).Fails e ↔ required = true ∧ e = .missing key := by
  constructor
  · rintro (⟨hrequired, -⟩ | ⟨_, hraws, -, -⟩)
    · exact ⟨hrequired, rfl⟩
    · simp [Given.spelled] at hraws
  · rintro ⟨hrequired, rfl⟩
    exact .missing hrequired rfl

theorem fails_cons {required : Bool} {raw : String} {raws : List String} {e : ReadError} :
    (Given.spelled key required (raw :: raws) Spells).Fails e ↔
      ((¬ ∃ a, Spells a raw) ∧ e = .invalid key raw) ∨
        (∃ a, Spells a raw) ∧ (Given.spelled key false raws Spells).Fails e := by
  constructor
  · rintro (⟨-, ⟨⟩⟩ | ⟨before, hraws, hbefore, hraw⟩)
    cases before with
    | nil =>
      obtain ⟨rfl, rfl⟩ := List.cons.inj hraws
      exact Or.inl ⟨hraw, rfl⟩
    | cons r before =>
      obtain ⟨rfl, rfl⟩ := List.cons.inj hraws
      obtain ⟨hr, hbefore⟩ := List.forall_mem_cons.1 hbefore
      exact Or.inr ⟨hr, .invalid before rfl hbefore hraw⟩
  · rintro (⟨hraw, rfl⟩ | ⟨hraw, ⟨⟨⟩, -⟩ | ⟨before, hraws, hbefore, hraw'⟩⟩)
    · exact .invalid [] rfl (by simp) hraw
    · exact .invalid (raw :: before) (congrArg (raw :: ·) hraws)
        (List.forall_mem_cons.2 ⟨hraw, hbefore⟩) hraw'

theorem fails_singleton {required : Bool} {raw : String} {e : ReadError} :
    (Given.spelled key required [raw] Spells).Fails e ↔
      (¬ ∃ a, Spells a raw) ∧ e = .invalid key raw := by
  rw [fails_cons, fails_nil]
  simp

/-- A value that is there is converted. -/
theorem answers_convert (h : Reads read Spells) (raw : String) :
    Answers (convert key raw read) (.spelled key true [raw] Spells) (Spells · raw) where
  ok_iff _ := convert_eq_ok key h
  error_iff _ := (convert_eq_error key h).trans (fails_singleton key).symm

/-- A value that may be absent is converted if it is there. -/
theorem answers_convert? (h : Reads read Spells) (raw? : Option String) :
    Answers (convert? key raw? read) (.spelled key false raw?.toList Spells)
      (Option.Rel Spells · raw?) := by
  cases raw? with
  | none =>
    refine ⟨fun a => ?_, fun e => ?_⟩
    · cases a <;> simp [convert?]
    · simp [convert?, fails_nil]
  | some raw =>
    refine ⟨fun a => ?_, fun e => ?_⟩
    · show (convert key raw read).map some = .ok a ↔ _
      rw [show (convert key raw read).map some = some <$> convert key raw read from rfl, map_eq_ok]
      simp only [convert_eq_ok key h]
      cases a <;> simp
    · show (convert key raw read).map some = .error e ↔ _
      rw [show (convert key raw read).map some = some <$> convert key raw read from rfl,
        map_eq_error, convert_eq_error key h]
      exact (fails_singleton key).symm

/-- Each of some values is converted. -/
theorem answers_convert_each (h : Reads read Spells) (raws : List String) :
    Answers (raws.mapM fun raw => convert key raw read) (.spelled key false raws Spells)
      (List.Forall₂ Spells · raws) := by
  induction raws with
  | nil =>
    refine ⟨fun as => ?_, fun e => ?_⟩
    · simp [pure, Except.pure, eq_comm]
    · simp [pure, Except.pure, fails_nil]
  | cons raw raws ih =>
    refine ⟨fun as => ?_, fun e => ?_⟩
    · rw [List.mapM_cons, bind_eq_ok, List.forall₂_cons_right_iff]
      constructor
      · rintro ⟨a, ha, hrest⟩
        obtain ⟨rest, hrest, hcons⟩ := bind_eq_ok.1 hrest
        exact ⟨a, rest, (convert_eq_ok key h).1 ha, (ih.ok_iff rest).1 hrest,
          (pure_eq_ok.1 hcons).symm⟩
      · rintro ⟨a, rest, ha, hrest, rfl⟩
        exact ⟨a, (convert_eq_ok key h).2 ha,
          bind_eq_ok.2 ⟨rest, (ih.ok_iff rest).2 hrest, rfl⟩⟩
    · rw [List.mapM_cons, bind_eq_error, fails_cons, convert_eq_error key h, ← ih.error_iff]
      simp only [convert_eq_ok key h]
      refine or_congr Iff.rfl ⟨?_, ?_⟩
      · rintro ⟨a, ha, hrest⟩
        rcases bind_eq_error.1 hrest with hrest | ⟨_, -, ⟨⟩⟩
        exact ⟨⟨a, ha⟩, hrest⟩
      · rintro ⟨⟨a, ha⟩, hrest⟩
        exact ⟨a, ha, bind_eq_error.2 (Or.inl hrest)⟩

/-- A text spells itself. -/
def IsText (text raw : String) : Prop :=
  raw = text

theorem reads_text : Reads some IsText := fun raw text => by
  simp [IsText]

/-- A text that has to be there is taken as it is. -/
theorem answers_require (text? : Option String) :
    Answers (require key text?) (.spelled key true text?.toList IsText) (text? = some ·) := by
  cases text? with
  | none => exact ⟨fun a => by simp [require], fun e => by simp [require, fails_nil, eq_comm]⟩
  | some text =>
    exact ⟨fun a => by simp [require], fun e => by simp [require, fails_singleton, IsText]⟩

end Steps

/-! ## Spellings -/

/-- A 32-bit number is spelled by decimal digits, with or without a plus sign in front. -/
def IsWord (n : UInt32) (raw : String) : Prop :=
  ∃ digits, digits ≠ [] ∧ (∀ d ∈ digits, d.isDigit = true) ∧
    (raw.toList = digits ∨ raw.toList = '+' :: digits) ∧ Decimal.ofDigits digits = n.toNat

def IsColor : Color → String → Prop
  | .red, raw => raw = "red"
  | .darkBlue, raw => raw = "dark-blue"
  | .green, raw => raw = "green"

def IsBool : Bool → String → Prop
  | true, raw => raw = "true"
  | false, raw => raw = "false"

theorem nat?_eq_some {raw : String} {n : Nat} :
    Decimal.nat? raw = some n ↔
      ∃ digits, digits ≠ [] ∧ (∀ d ∈ digits, d.isDigit = true) ∧
        (raw.toList = digits ∨ raw.toList = '+' :: digits) ∧ Decimal.ofDigits digits = n := by
  have hunsigned : ∀ digits : List Char, (∀ d ∈ digits, d.isDigit = true) →
      (Decimal.unsigned raw.toList = digits ↔ raw.toList = digits ∨ raw.toList = '+' :: digits) := by
    intro digits hdigits
    unfold Decimal.unsigned
    split
    · next rest htext =>
      rw [htext]
      constructor
      · rintro rfl
        exact Or.inr rfl
      · rintro (rfl | h)
        · exact absurd (hdigits '+' List.mem_cons_self) (by decide)
        · exact (List.cons.inj h).2
    · next hplus =>
      rw [or_iff_left (fun h => hplus _ h)]
  unfold Decimal.nat?
  simp only [Option.ite_none_left_eq_some, Option.some.injEq, List.isEmpty_iff, Bool.not_eq_true',
    not_or, Bool.not_eq_false, List.all_eq_true]
  constructor
  · rintro ⟨⟨hne, hdigits⟩, hvalue⟩
    exact ⟨_, hne, hdigits, (hunsigned _ hdigits).1 rfl, hvalue⟩
  · rintro ⟨digits, hne, hdigits, htext, hvalue⟩
    obtain rfl := (hunsigned digits hdigits).2 htext
    exact ⟨⟨hne, hdigits⟩, hvalue⟩

theorem reads_word : Reads Decimal.word? IsWord := by
  intro raw n
  have hword : Decimal.word? raw = some n ↔ Decimal.nat? raw = some n.toNat := by
    rw [Decimal.word?]
    cases Decimal.nat? raw with
    | none => simp
    | some k =>
      show (if k < UInt32.size then some (UInt32.ofNat k) else none) = some n ↔ some k = some n.toNat
      rw [Option.ite_none_right_eq_some, Option.some.injEq, Option.some.injEq]
      constructor
      · rintro ⟨hk, rfl⟩
        exact (UInt32.toNat_ofNat_of_lt' hk).symm
      · rintro rfl
        exact ⟨n.toNat_lt_size, UInt32.ofNat_toNat⟩
  rw [hword, nat?_eq_some]
  rfl

theorem reads_color : Reads Color.ofText? IsColor := by
  intro raw c
  have hspelled : IsColor c raw ↔ raw = c.text := by cases c <;> exact Iff.rfl
  rw [hspelled]
  constructor
  · intro h
    obtain ⟨⟨c, text⟩, hfind, rfl⟩ := Option.map_eq_some_iff.1 h
    have htext := List.find?_some hfind
    obtain rfl : text = raw := of_decide_eq_true htext
    have hmem := List.mem_of_find?_eq_some hfind
    simp only [Color.table, List.mem_cons, Prod.mk.injEq, List.not_mem_nil, or_false] at hmem
    obtain ⟨rfl, rfl⟩ | ⟨rfl, rfl⟩ | ⟨rfl, rfl⟩ := hmem <;> rfl
  · rintro rfl
    exact Color.ofText?_text c

theorem reads_bool : Reads boolOfText? IsBool := by
  intro raw b
  unfold boolOfText?
  split <;> cases b <;> simp_all [IsBool]

/-! ## Outcome -/

/-- The parameters of a destination, in the order in which its value takes them, where `values` are the raw
texts of each key of a query. Of a key that has one value the first text counts. -/
def Destination.given (values : String → List String) : Destination → List Given
  | home => []
  | search =>
    [.spelled "q" true (values "q").head?.toList IsText,
      .spelled "page-size" false (values "page-size").head?.toList IsWord,
      .spelled "exact" false (values "exact").head?.toList IsBool,
      .spelled "sort" false (values "sort").head?.toList IsText]
  | family fid => [.spelled "fid" true [fid] IsText]
  | person fid pid =>
    [.spelled "fid" true [fid] IsText, .spelled "pid" true [pid] IsWord,
      .spelled "color" false (values "color").head?.toList IsColor,
      .spelled "tags" false (values "tags") IsColor,
      .spelled "note" false (values "note").head?.toList IsText]

/-- The value of a destination that the texts of a request spell, with defaults for what is absent. -/
inductive Makes (values : String → List String) (payload : Option Draft) : Destination → Value → Prop
  | home : Makes values payload .home .home
  | search {q : String} {size? : Option UInt32} {flag? : Option Bool}
    (hq : (values "q").head? = some q)
    (hsize : Option.Rel IsWord size? (values "page-size").head?)
    (hexact : Option.Rel IsBool flag? (values "exact").head?) :
    Makes values payload .search
      (.search q (size?.getD 20) (flag?.getD false) ((values "sort").head?.getD "name"))
  | family {fid : String} : Makes values payload (.family fid) (.family fid)
  | person {fid raw : String} {pid : UInt32} {color? : Option Color} {tags : List Color}
    (hpid : IsWord pid raw) (hcolor : Option.Rel IsColor color? (values "color").head?)
    (htags : List.Forall₂ IsColor tags (values "tags")) :
    Makes values payload (.person fid raw)
      (.person fid pid (color?.getD .red) tags (values "note").head? payload)

theorem rel_isText {text? raw? : Option String} : Option.Rel IsText text? raw? ↔ raw? = text? := by
  cases text? <;> cases raw? <;> simp [IsText]

theorem Runs.congr {α : Type} {x : Except ReadError α} {gs : List Given} {P Q : α → Prop}
    (h : Runs x gs P) (hPQ : ∀ a, P a ↔ Q a) : Runs x gs Q where
  ok_iff a := (h.ok_iff a).trans (hPQ a)
  error_iff := h.error_iff

section Readers

variable (query : List Char) (payload : Option Draft)

/-- The raw texts of a key among the pairs of a query that decode. -/
def rawsOf (key : String) : List String :=
  valuesOf key (Query.pairs query)

variable {query payload} in
theorem first?_eq {params : Params} (key : String) :
    (⟨params, Query.parse query, payload⟩ : Request Draft).first? key = (rawsOf query key).head? :=
  Query.lookup_first_pairs query key

variable {query payload} in
theorem all?_eq {params : Params} (key : String) :
    ((⟨params, Query.parse query, payload⟩ : Request Draft).all? key).getD [] =
      rawsOf query key := by
  rw [Request.all?, Query.lookup_all_pairs, rawsOf]
  split
  · next h => rw [h, Option.getD_none]
  · rfl

theorem readSearch_runs :
    Runs (readSearch ⟨[], Query.parse query, payload⟩) (Destination.search.given (rawsOf query))
      (Makes (rawsOf query) payload .search) := by
  have hread : readSearch ⟨[], Query.parse query, payload⟩ = (do
      let q ← require "q" (rawsOf query "q").head?
      let size? ← convert? "page-size" (rawsOf query "page-size").head? Decimal.word?
      let flag? ← convert? "exact" (rawsOf query "exact").head? boolOfText?
      let sort? ← convert? "sort" (rawsOf query "sort").head? some
      .ok (.search q (size?.getD 20) (flag?.getD false) (sort?.getD "name"))) := by
    simp only [readSearch, first?_eq]
    rfl
  rw [hread]
  refine (Runs.bind (answers_require "q" _) fun q =>
    .bind (answers_convert? "page-size" reads_word _) fun size? =>
    .bind (answers_convert? "exact" reads_bool _) fun flag? =>
    .bind (answers_convert? "sort" reads_text _) fun sort? => .ok _).congr fun v => ?_
  constructor
  · rintro ⟨q, hq, size?, hsize, flag?, hexact, sort?, hsort, rfl⟩
    rw [rel_isText] at hsort
    exact hsort ▸ .search hq hsize hexact
  · intro h
    cases h with
    | search hq hsize hexact =>
      exact ⟨_, hq, _, hsize, _, hexact, _, rel_isText.2 rfl, rfl⟩

theorem readPerson_runs (fid pid : String) :
    Runs (readPerson ⟨[("fid", fid), ("pid", pid)], Query.parse query, payload⟩)
      ((Destination.person fid pid).given (rawsOf query))
      (Makes (rawsOf query) payload (.person fid pid)) := by
  have hread : readPerson ⟨[("fid", fid), ("pid", pid)], Query.parse query, payload⟩ = (do
      let fid ← require "fid" (some fid)
      let pid ← convert "pid" pid Decimal.word?
      let color? ← convert? "color" (rawsOf query "color").head? Color.ofText?
      let tags ← (rawsOf query "tags").mapM fun raw => convert "tags" raw Color.ofText?
      let note? ← convert? "note" (rawsOf query "note").head? some
      .ok (.person fid pid (color?.getD .red) tags note? payload)) := by
    simp only [readPerson, first?_eq, all?_eq]
    rfl
  rw [hread]
  refine (Runs.bind (answers_require "fid" (some fid)) fun fid =>
    .bind (answers_convert "pid" reads_word pid) fun pid =>
    .bind (answers_convert? "color" reads_color _) fun color? =>
    .bind (answers_convert_each "tags" reads_color _) fun tags =>
    .bind (answers_convert? "note" reads_text _) fun note? => .ok _).congr fun v => ?_
  constructor
  · rintro ⟨_, ⟨⟩, pid, hpid, color?, hcolor, tags, htags, note?, hnote, rfl⟩
    rw [rel_isText] at hnote
    exact hnote ▸ .person hpid hcolor htags
  · intro h
    cases h with
    | person hpid hcolor htags =>
      exact ⟨fid, rfl, _, hpid, _, hcolor, _, htags, _, rel_isText.2 rfl, rfl⟩

/-- The reader of a destination runs along its parameters. -/
theorem reader_runs (d : Destination) :
    Runs (d.leaf.target ⟨d.params, Query.parse query, payload⟩) (d.given (rawsOf query))
      (Makes (rawsOf query) payload d) := by
  cases d with
  | home =>
    refine (Runs.ok Value.home).congr fun v => ⟨?_, ?_⟩
    · rintro rfl
      exact .home
    · rintro ⟨⟩
      rfl
  | search => exact readSearch_runs query payload
  | family fid =>
    refine (Runs.bind (answers_require "fid" (some fid)) fun fid =>
      Runs.ok (Value.family fid)).congr fun v => ⟨?_, ?_⟩
    · rintro ⟨_, ⟨⟩, rfl⟩
      exact .family
    · rintro ⟨⟩
      exact ⟨fid, rfl, rfl⟩
  | person fid pid => exact readPerson_runs query payload fid pid

end Readers

/-- What is in front of the first question mark decides whether a location is decoded: it has to be one of
the paths of the home tree, and then one route of the tree matches it. Of what stands behind the question
mark and of the payload a value is made just if every parameter of that route is there, where it has to be,
and converts; otherwise the error is that of the first parameter that fails. -/
theorem decodeHome_outcome (location : String) (payload : Option Draft) :
    let path := location.toList.takeWhile (· != '?')
    let values := rawsOf ((location.toList.dropWhile (· != '?')).drop 1)
    ((decodeHome location payload).isSome = true ↔ ∃ d, LeadsTo path d) ∧
    ∀ d, LeadsTo path d →
      (∃! l, ∃ params, homeRoute.Matches path l params) ∧
      ∃ outcome, decodeHome location payload = some outcome ∧
        ((∃ v, outcome = .ok v) ↔ ∀ g ∈ d.given values, g.Fine) ∧
        (∀ v, outcome = .ok v ↔ Makes values payload d v) ∧
        ∀ e, outcome = .error e ↔ FirstFailure (d.given values) e := by
  intro path values
  have hdecode : decodeHome location payload = (homeRoute.find path).map fun (target, params) =>
      target ⟨params, Query.parse ((location.toList.dropWhile (· != '?')).drop 1), payload⟩ :=
    Route.decode_eq_map_find homeRoute location payload
  have hfound : ∀ d, LeadsTo path d → decodeHome location payload = some (d.leaf.target
      ⟨d.params, Query.parse ((location.toList.dropWhile (· != '?')).drop 1), payload⟩) := by
    intro d hd
    rw [hdecode, find_of_leadsTo hd]
    rfl
  constructor
  · constructor
    · intro hsome
      by_contra hnone
      rw [hdecode, find_eq_none_of_not_leadsTo (not_exists.1 hnone)] at hsome
      cases hsome
    · rintro ⟨d, hd⟩
      rw [hfound d hd]
      rfl
  · intro d hd
    have hrun := reader_runs ((location.toList.dropWhile (· != '?')).drop 1) payload d
    refine ⟨⟨d.leaf, ⟨d.params, matches_iff.2 ⟨d, hd, rfl, rfl⟩⟩, ?_⟩, _, hfound d hd,
      hrun.exists_iff, hrun.ok_iff, hrun.error_iff⟩
    rintro l ⟨params, hl⟩
    obtain ⟨d', hd', rfl, -⟩ := matches_iff.1 hl
    rw [hd.unique hd']

/-- A person with a number behind a plus sign, a good color and two tags, of which the second is none: the
tag is the first failure, although a color behind the first counts for nothing. -/
theorem decodeHome_outcome_teal :
    LeadsTo "/family/a%20b/person/+7".toList (.person "a b" "+7") ∧
      decodeHome "/family/a%20b/person/+7?color=green&color=x&tags=red&tags=teal&note=%ff" none =
        some (.error (.invalid "tags" "teal")) := by
  have hfamily : Fills "a%20b".toList "a b" := ⟨by decide, by decide, by decide +kernel⟩
  have hperson : Fills "+7".toList "+7" := ⟨by decide, by decide, by decide +kernel⟩
  have hpath : LeadsTo "/family/a%20b/person/+7".toList (.person "a b" "+7") :=
    .person hfamily hperson
  refine ⟨hpath, ?_⟩
  obtain ⟨-, hmatch⟩ := decodeHome_outcome
    "/family/a%20b/person/+7?color=green&color=x&tags=red&tags=teal&note=%ff" none
  obtain ⟨-, outcome, hdecode, -, -, herror⟩ := hmatch (.person "a b" "+7") hpath
  have hcolor : rawsOf "color=green&color=x&tags=red&tags=teal&note=%ff".toList "color" =
      ["green", "x"] := by decide +kernel
  have htags : rawsOf "color=green&color=x&tags=red&tags=teal&note=%ff".toList "tags" =
      ["red", "teal"] := by decide +kernel
  have hfirst : FirstFailure ((Destination.person "a b" "+7").given
      (rawsOf "color=green&color=x&tags=red&tags=teal&note=%ff".toList)) (.invalid "tags" "teal") := by
    refine ⟨[.spelled "fid" true ["a b"] IsText, .spelled "pid" true ["+7"] IsWord,
      .spelled "color" false ["green"] IsColor], .spelled "tags" false ["red", "teal"] IsColor,
      _, by rw [Destination.given, hcolor, htags]; rfl, ?_, ?_⟩
    · simp only [List.mem_cons, List.not_mem_nil, or_false]
      rintro g (rfl | rfl | rfl)
      · exact ⟨by simp [Given.spelled], by simp [Given.spelled, IsText]⟩
      · refine ⟨by simp [Given.spelled], ?_⟩
        intro raw hraw
        obtain rfl := List.mem_singleton.1 hraw
        exact ⟨7, ['7'], by simp, by simp, Or.inr (by simp), by decide⟩
      · exact ⟨by simp [Given.spelled], by simpa [Given.spelled] using ⟨.green, rfl⟩⟩
    · refine .invalid ["red"] rfl ?_ ?_
      · simpa [Given.spelled] using ⟨.red, rfl⟩
      · rintro ⟨c, hc⟩
        cases c <;> simp [IsColor] at hc
  rw [hdecode, (herror (.invalid "tags" "teal")).2 hfirst]

end Sample

end TypedRoutes
