import TypedRoutes.Proofs.Fragment
import TypedRoutes.Proofs.Locals

/-!
# Codec tables as partial inverses

* `EnumTable.entriesFrom_eq_ok`, `EnumTable.entriesFrom_eq_error` : when members have entries, and which
  error usable members have otherwise;
* `fromNameBody`, `toNameBody` : the lookups of the shared trait with their meaning;
* `EnumTable.rows` : the rows of a table, with the values that its variants denote;
* `EnumTable.ofMembers_lookups` : the lookups of a table undo each other on its members always, and on its
  texts just if no two members denote one value; and the error of members that share a text.
-/

namespace TypedRoutes.Emission

open Syntax Code

/-! ## Entries -/

namespace EnumTable

section Entries

variable {place : Place} {enumeration : String}

/-- A member has an entry: its identifier and its text in kebab case. -/
def HasEntry (place : Place) (m : String) (entry : String × String) : Prop :=
  identifier place m = .ok entry.1 ∧ entry.2 = Text.kebab m

/-- Members with their texts, the last one first. -/
def seenAfter (members : List String) : List (String × String) :=
  (members.map fun m => (m, Text.kebab m)).reverse

theorem seenAfter_concat (members : List String) (m : String) :
    seenAfter (members ++ [m]) = (m, Text.kebab m) :: seenAfter members := by
  simp [seenAfter]

theorem mem_seenAfter {members : List String} {entry : String × String} :
    entry ∈ seenAfter members ↔ entry.1 ∈ members ∧ Text.kebab entry.1 = entry.2 := by
  obtain ⟨m, text⟩ := entry
  simp [seenAfter]

/-- No member before has a new text. -/
theorem find?_seenAfter_fresh {before : List String} {text : String}
    (hfresh : text ∉ before.map Text.kebab) :
    ((seenAfter before).find? fun entry => entry.2 = text) = none := by
  rw [List.find?_eq_none]
  intro entry hentry heq
  obtain ⟨hmem, htext⟩ := mem_seenAfter.1 hentry
  exact hfresh (List.mem_map.2 ⟨entry.1, hmem, htext.trans (of_decide_eq_true heq)⟩)

/-- Of members with different texts the one that has a text is found. -/
theorem find?_seenAfter_shared {before : List String} {previous : String}
    (hbefore : (before.map Text.kebab).Nodup) (hprevious : previous ∈ before) :
    ((seenAfter before).find? fun entry => entry.2 = Text.kebab previous) =
      some (previous, Text.kebab previous) := by
  have hpresent : (previous, Text.kebab previous) ∈ seenAfter before :=
    mem_seenAfter.2 ⟨hprevious, rfl⟩
  cases hfind : (seenAfter before).find? fun entry => entry.2 = Text.kebab previous with
  | none => exact absurd (decide_eq_true rfl) (List.find?_eq_none.1 hfind _ hpresent)
  | some entry =>
    obtain ⟨hmem, htext⟩ := mem_seenAfter.1 (List.mem_of_find?_eq_some hfind)
    have hfound := List.find?_some hfind
    have heq : entry.2 = Text.kebab previous := of_decide_eq_true hfound
    have hname := List.inj_on_of_nodup_map hbefore hmem hprevious (htext.trans heq)
    exact congrArg some (Prod.ext hname heq)

/-- A member whose text is new has the next entry. -/
theorem entriesFrom_cons_fresh {before rest : List String} {m : String}
    (hfresh : Text.kebab m ∉ before.map Text.kebab) :
    entriesFrom place enumeration (seenAfter before) (m :: rest) = do
      let variant ← identifier place m
      let tail ← entriesFrom place enumeration (seenAfter (before ++ [m])) rest
      return (variant, Text.kebab m) :: tail := by
  have hnone := find?_seenAfter_fresh hfresh
  rw [entriesFrom]
  refine congrArg (identifier place m >>= ·) (funext fun variant => ?_)
  dsimp only
  split
  · next previous text hfind => cases hnone.symm.trans hfind
  · rw [seenAfter_concat]

/-- A member whose text one before has is an error that names both. -/
theorem entriesFrom_cons_shared {before rest : List String} {previous m : String}
    (hbefore : (before.map Text.kebab).Nodup) (hprevious : previous ∈ before)
    (hshared : Text.kebab previous = Text.kebab m) :
    entriesFrom place enumeration (seenAfter before) (m :: rest) = (do
      let _ ← identifier place m
      throw ⟨.sharedMemberText previous m enumeration (Text.kebab m), place⟩) := by
  have hsome := find?_seenAfter_shared hbefore hprevious
  rw [hshared] at hsome
  rw [entriesFrom]
  refine congrArg (identifier place m >>= ·) (funext fun variant => ?_)
  dsimp only
  split
  · next previous' text hfind =>
    cases hsome.symm.trans hfind
    rfl
  · next hfind => cases hsome.symm.trans hfind

theorem nodup_concat {before : List String} {m : String} (hbefore : (before.map Text.kebab).Nodup) :
    ((before ++ [m]).map Text.kebab).Nodup ↔ Text.kebab m ∉ before.map Text.kebab := by
  rw [List.map_append, List.map_singleton, List.nodup_append]
  constructor
  · rintro ⟨-, -, hne⟩ hmem
    exact hne _ hmem _ List.mem_cons_self rfl
  · intro hfresh
    refine ⟨hbefore, List.nodup_singleton _, fun a ha b hb heq => hfresh ?_⟩
    rw [← List.mem_singleton.1 hb, ← heq]
    exact ha

/-- Members behind others have entries just if each is usable and no text occurs twice. -/
theorem entriesFrom_eq_ok (before : List String) {members : List String} {entries : List (String × String)}
    (hbefore : (before.map Text.kebab).Nodup) :
    entriesFrom place enumeration (seenAfter before) members = .ok entries ↔
      List.Forall₂ (HasEntry place) members entries ∧
        ((before ++ members).map Text.kebab).Nodup := by
  induction members generalizing before entries with
  | nil =>
    rw [entriesFrom, List.append_nil]
    constructor
    · rintro ⟨⟩
      exact ⟨.nil, hbefore⟩
    · rintro ⟨⟨⟩, -⟩
      rfl
  | cons m rest ih =>
    have hsplit : before ++ m :: rest = (before ++ [m]) ++ rest := by simp
    by_cases hfresh : Text.kebab m ∈ before.map Text.kebab
    · obtain ⟨previous, hprevious, hshared⟩ := List.mem_map.1 hfresh
      rw [entriesFrom_cons_shared hbefore hprevious hshared]
      constructor
      · intro h
        obtain ⟨_, -, ⟨⟩⟩ := bind_eq_ok.1 h
      · rintro ⟨-, hnodup⟩
        rw [hsplit, List.map_append] at hnodup
        exact absurd hfresh ((nodup_concat hbefore).1 hnodup.of_append_left)
    · have hfirst := (nodup_concat hbefore).2 hfresh
      rw [entriesFrom_cons_fresh hfresh, hsplit]
      constructor
      · intro h
        obtain ⟨variant, hvariant, h⟩ := bind_eq_ok.1 h
        obtain ⟨tail, htail, h⟩ := bind_eq_ok.1 h
        obtain rfl := pure_eq_ok.1 h
        obtain ⟨hentries, hnodup⟩ := (ih _ hfirst).1 htail
        exact ⟨.cons ⟨hvariant, rfl⟩ hentries, hnodup⟩
      · rintro ⟨hentries, hnodup⟩
        obtain ⟨⟨variant, text⟩, tail, ⟨hvariant, rfl⟩, htail, rfl⟩ :=
          List.forall₂_cons_left_iff.1 hentries
        exact bind_eq_ok.2
          ⟨variant, hvariant, bind_eq_ok.2 ⟨tail, (ih _ hfirst).2 ⟨htail, hnodup⟩, rfl⟩⟩

/-- Of members behind others, one is the first that has the text of one before it. -/
def FirstShared (before members : List String) (previous m : String) : Prop :=
  ∃ front behind, members = front ++ m :: behind ∧ ((before ++ front).map Text.kebab).Nodup ∧
    previous ∈ before ++ front ∧ Text.kebab previous = Text.kebab m

/-- Where the first member is new, the first shared one is behind it. -/
theorem firstShared_cons_fresh {before rest : List String} {previous m m' : String}
    (hfresh : Text.kebab m ∉ before.map Text.kebab) :
    FirstShared before (m :: rest) previous m' ↔ FirstShared (before ++ [m]) rest previous m' := by
  constructor
  · rintro ⟨front, behind, hsplit, hnodup, hmem, heq⟩
    cases front with
    | nil =>
      obtain ⟨rfl, rfl⟩ := List.cons.inj hsplit
      rw [List.append_nil] at hmem
      exact absurd (List.mem_map.2 ⟨previous, hmem, heq⟩) hfresh
    | cons _ front =>
      obtain ⟨rfl, rfl⟩ := List.cons.inj hsplit
      rw [List.append_cons] at hnodup hmem
      exact ⟨front, behind, rfl, hnodup, hmem, heq⟩
  · rintro ⟨front, behind, rfl, hnodup, hmem, heq⟩
    rw [← List.append_cons] at hnodup hmem
    exact ⟨m :: front, behind, rfl, hnodup, hmem, heq⟩

/-- Where the first member has the text of one before, it is the first shared one. -/
theorem firstShared_cons_shared {before rest : List String} {previous previous' m m' : String}
    (hbefore : (before.map Text.kebab).Nodup) (hprevious : previous ∈ before)
    (hshared : Text.kebab previous = Text.kebab m) :
    FirstShared before (m :: rest) previous' m' ↔ previous' = previous ∧ m' = m := by
  constructor
  · rintro ⟨front, behind, hsplit, hnodup, hmem, heq⟩
    cases front with
    | nil =>
      obtain ⟨rfl, rfl⟩ := List.cons.inj hsplit
      rw [List.append_nil] at hmem
      exact ⟨List.inj_on_of_nodup_map hbefore hmem hprevious (heq.trans hshared.symm), rfl⟩
    | cons _ front =>
      -- the text is shared before the place that is named
      obtain ⟨rfl, rfl⟩ := List.cons.inj hsplit
      rw [List.append_cons, List.map_append] at hnodup
      exact absurd (List.mem_map.2 ⟨previous, hprevious, hshared⟩)
        ((nodup_concat hbefore).1 hnodup.of_append_left)
  · rintro ⟨rfl, rfl⟩
    exact ⟨[], rest, rfl, by rwa [List.append_nil], by rwa [List.append_nil], hshared⟩

/-- Only members with a shared text have a first one. -/
theorem FirstShared.not_nodup {before members : List String} {previous m : String}
    (h : FirstShared before members previous m) : ¬ ((before ++ members).map Text.kebab).Nodup := by
  obtain ⟨front, behind, rfl, -, hmem, heq⟩ := h
  rw [← List.append_assoc, List.map_append, List.map_cons]
  intro hnodup
  exact (List.nodup_append.1 hnodup).2.2 _ (List.mem_map_of_mem hmem) _ List.mem_cons_self heq

/-- A usable member whose text is new leaves the failures of the members behind it. -/
theorem entriesFrom_cons_fresh_eq_error {before rest : List String} {m variant : String}
    {failure : Failure} (hvariant : identifier place m = .ok variant)
    (hfresh : Text.kebab m ∉ before.map Text.kebab) :
    entriesFrom place enumeration (seenAfter before) (m :: rest) = .error failure ↔
      entriesFrom place enumeration (seenAfter (before ++ [m])) rest = .error failure := by
  rw [entriesFrom_cons_fresh hfresh, hvariant]
  constructor
  · intro h
    rcases bind_eq_error.1 h with ⟨⟨⟩⟩ | ⟨_, -, h⟩
    rcases bind_eq_error.1 h with h | ⟨_, -, ⟨⟩⟩
    exact h
  · intro h
    exact bind_eq_error.2 (Or.inr ⟨variant, rfl, bind_eq_error.2 (Or.inl h)⟩)

/-- Usable members fail just at the first that has the text of one before. -/
theorem entriesFrom_eq_error {before members : List String} {failure : Failure}
    (husable : ∀ m ∈ members, ∃ variant, identifier place m = .ok variant)
    (hbefore : (before.map Text.kebab).Nodup) :
    entriesFrom place enumeration (seenAfter before) members = .error failure ↔
      ∃ previous m, FirstShared before members previous m ∧
        failure = ⟨.sharedMemberText previous m enumeration (Text.kebab m), place⟩ := by
  induction members generalizing before with
  | nil => simp [entriesFrom, FirstShared]
  | cons m rest ih =>
    obtain ⟨⟨variant, hvariant⟩, hrest⟩ := List.forall_mem_cons.1 husable
    by_cases hfresh : Text.kebab m ∈ before.map Text.kebab
    · obtain ⟨previous, hprevious, hshared⟩ := List.mem_map.1 hfresh
      rw [entriesFrom_cons_shared hbefore hprevious hshared, hvariant]
      simp only [firstShared_cons_shared hbefore hprevious hshared]
      constructor
      · rintro ⟨⟩
        exact ⟨previous, m, ⟨rfl, rfl⟩, rfl⟩
      · rintro ⟨_, _, ⟨rfl, rfl⟩, rfl⟩
        rfl
    · rw [entriesFrom_cons_fresh_eq_error hvariant hfresh,
        ih hrest ((nodup_concat hbefore).2 hfresh)]
      simp only [firstShared_cons_fresh hfresh]

end Entries

end EnumTable

/-! ## Lookups as code -/

section Lookups

variable {Γ σ τ V : Type}

namespace Term

/-- What a reference refers to. -/
def deref (t : Term Γ σ) : Term Γ σ where
  code := op "*" ++ t.code
  value := t.value

/-- Whether two values are equal. -/
def equal [DecidableEq σ] (a b : Term Γ σ) : Term Γ Bool where
  code := a.code ++ op "==" ++ b.code
  value g := decide (a.value g = b.value g)

/-- The first item of a list that satisfies a condition. -/
def findFirst (t : Term Γ (List σ)) (pattern : Code) (condition : Term (σ × Γ) Bool) :
    Term Γ (Option σ) where
  code := method (method t.code "iter" []) "find" [closure pattern condition.code]
  value g := (t.value g).find? fun s => condition.value (s, g)

/-- What is there, mapped by a closure that takes it apart. -/
def mapParts (t : Term Γ (Option σ)) (pattern : Code) (body : Term (σ × Γ) τ) :
    Term Γ (Option τ) where
  code := method t.code "map" [closure pattern body.code]
  value g := (t.value g).map fun s => body.value (s, g)

/-- A pair. -/
def pair (a : Term Γ σ) (b : Term Γ τ) : Term Γ (σ × τ) where
  code := tuple [a.code, b.code]
  value g := (a.value g, b.value g)

/-- A list of items. -/
def items (ts : List (Term Γ σ)) : Term Γ (List σ) where
  code := brackets (ts.map Term.code)
  value g := ts.map fun t => t.value g

/-- A variant of an enumeration. -/
def variant (type : Code) (name : String) (denotes : String → V) : Term Γ V where
  code := member type name
  value _ := denotes name

end Term

/-- The body of the lookup by name, over the table and the name. -/
def fromNameBody : Term (List (V × String) × String) (Option V) :=
  Term.mapParts
    (Term.findFirst (Term.var "self" (·.1)) (tuple [word "_", word "n"])
      (Term.equal (Term.deref (Term.var "n" (·.1.2))) (Term.var "name" (·.2.2))))
    (tuple [word "v", word "_"]) (Term.var "v" (·.1.1))

/-- The body of the lookup by value, over the table and the value. -/
def toNameBody [DecidableEq V] : Term (List (V × String) × V) (Option String) :=
  Term.mapParts
    (Term.findFirst (Term.var "self" (·.1)) (tuple [word "v", word "_"])
      (Term.equal (Term.var "v" (·.1.1)) (Term.var "value" (·.2.2))))
    (tuple [word "_", word "n"]) (Term.deref (Term.var "n" (·.1.2)))

/-- The lookups of the shared trait have these bodies. -/
theorem enumCodecCode_eq [DecidableEq V] :
    Helper.enumCodecCode =
      let named := generic (word enumCodec) [word "T"]
      let static := [Token.lifetime "'static"] ++ word "str"
      let fromName := Helper.lookupHead "from_name" "name" (word "str") (word "T")
      let toName := Helper.lookupHead "to_name" "value" (word "T") static
      word "trait" ++ named ++ braces (fromName ++ op ";" ++ toName ++ op ";") ++
        word "impl" ++ op "<" ++ typed (word "T") (path ["core", "cmp", "PartialEq"]) ++ op ">" ++
        named ++ word "for" ++ Tokens.brackets (tuple [word "T", staticStr]) ++
        braces (fromName ++ braces (fromNameBody (V := V)).code ++
          toName ++ braces (toNameBody (V := V)).code) :=
  rfl

/-- The value that a table has for a name. -/
def fromName? (rows : List (V × String)) (name : String) : Option V :=
  fromNameBody.value (rows, name)

/-- The name that a table has for a value. -/
def toName? [DecidableEq V] (rows : List (V × String)) (value : V) : Option String :=
  toNameBody.value (rows, value)

variable {rows : List (V × String)}

theorem fromName?_eq_none {name : String} :
    fromName? rows name = none ↔ name ∉ rows.map Prod.snd := by
  show ((rows.find? fun e => decide (e.2 = name)).map Prod.fst) = none ↔ _
  rw [Option.map_eq_none_iff, List.find?_eq_none]
  constructor
  · intro h hmem
    obtain ⟨row, hrow, hname⟩ := List.mem_map.1 hmem
    exact h row hrow (decide_eq_true hname)
  · intro h row hrow hname
    exact h (List.mem_map.2 ⟨row, hrow, of_decide_eq_true hname⟩)

/-- Of rows with different names the one that has a name is found. -/
theorem fromName?_of_mem (hnodup : (rows.map Prod.snd).Nodup) {v : V} {name : String}
    (h : (v, name) ∈ rows) : fromName? rows name = some v := by
  cases hfind : rows.find? fun e => decide (e.2 = name) with
  | none => exact absurd (decide_eq_true rfl) (List.find?_eq_none.1 hfind _ h)
  | some e =>
    have hfound := List.find?_some hfind
    have hname : e.2 = name := of_decide_eq_true hfound
    obtain rfl := List.inj_on_of_nodup_map hnodup (List.mem_of_find?_eq_some hfind) h hname
    exact congrArg (Option.map Prod.fst) hfind

/-- A value in a table has the name of one of its rows. -/
theorem toName?_of_mem [DecidableEq V] {v : V} (h : v ∈ rows.map Prod.fst) :
    ∃ name, toName? rows v = some name ∧ (v, name) ∈ rows := by
  obtain ⟨row, hrow, rfl⟩ := List.mem_map.1 h
  cases hfind : rows.find? fun e => decide (e.1 = row.1) with
  | none => exact absurd (decide_eq_true rfl) (List.find?_eq_none.1 hfind _ hrow)
  | some e =>
    have hfound := List.find?_some hfind
    have hvalue : e.1 = row.1 := of_decide_eq_true hfound
    exact ⟨e.2, congrArg (Option.map Prod.snd) hfind, hvalue ▸ List.mem_of_find?_eq_some hfind⟩

/-- The value of a name of a value is that value. -/
theorem fromName?_toName? [DecidableEq V] (hnodup : (rows.map Prod.snd).Nodup) {v : V}
    (h : v ∈ rows.map Prod.fst) : (toName? rows v).bind (fromName? rows) = some v := by
  obtain ⟨name, hname, hrow⟩ := toName?_of_mem h
  rw [hname]
  exact fromName?_of_mem hnodup hrow

/-- The name of a value of a name is that name, just if no value has two rows. -/
theorem toName?_fromName?_iff [DecidableEq V] (hnodup : (rows.map Prod.snd).Nodup) :
    (∀ name ∈ rows.map Prod.snd, (fromName? rows name).bind (toName? rows) = some name) ↔
      (rows.map Prod.fst).Nodup := by
  constructor
  · intro h
    refine (List.Nodup.of_map _ hnodup).map_on fun e he e' he' heq => ?_
    have hname : ∀ row ∈ rows, toName? rows row.1 = some row.2 := by
      intro row hrow
      have hback := h row.2 (List.mem_map_of_mem hrow)
      rwa [fromName?_of_mem hnodup hrow] at hback
    have hnames : some e.2 = some e'.2 := by rw [← hname e he, heq, hname e' he']
    exact Prod.ext heq (Option.some.inj hnames)
  · intro hvalues name hmem
    obtain ⟨row, hrow, rfl⟩ := List.mem_map.1 hmem
    obtain ⟨name, hname, hrow'⟩ := toName?_of_mem (List.mem_map_of_mem (f := Prod.fst) hrow)
    have heq : name = row.2 :=
      congrArg Prod.snd (List.inj_on_of_nodup_map hvalues hrow' hrow rfl)
    rw [fromName?_of_mem hnodup hrow, ← heq]
    exact hname

end Lookups

/-! ## Tables -/

namespace EnumTable

variable {V : Type} {Γ : Type}

/-- The rows of a table, with the values that its variants denote. -/
def rows (denotes : String → V) (t : EnumTable) : List (V × String) :=
  t.entries.map fun e => (denotes e.1, e.2)

/-- The rows of a table as code. -/
def rowsTerm (denotes : String → V) (t : EnumTable) : Term Γ (List (V × String)) :=
  Term.borrowed (Term.items (t.entries.map fun e =>
    Term.pair (Term.variant t.type e.1 denotes) (Term.literal e.2)))

theorem rowsTerm_value (denotes : String → V) (t : EnumTable) (g : Γ) :
    (t.rowsTerm denotes).value g = t.rows denotes := by
  simp [rowsTerm, rows, Term.borrowed, Term.items, Term.pair, Term.variant, Term.literal]

/-- The constant of a table is bound to its rows. -/
theorem code_eq (denotes : String → V) (t : EnumTable) :
    t.code = word "const" ++
      typed (word t.name) (refer (Tokens.brackets (tuple [t.type, strRef]))) ++ op "=" ++
      (t.rowsTerm (Γ := Γ) denotes).code ++ op ";" := by
  simp [code, rowsTerm, Term.borrowed, Term.items, Term.pair, Term.variant, Term.literal,
    Function.comp_def]

variable (place : Place) (enumeration : String) (members : List String)

theorem ofMembers_eq_ok {table : EnumTable} (h : ofMembers place enumeration members = .ok table) :
    List.Forall₂ (HasEntry place) members table.entries ∧ (members.map Text.kebab).Nodup := by
  obtain ⟨type, -, h⟩ := bind_eq_ok.1 h
  obtain ⟨name, -, h⟩ := bind_eq_ok.1 h
  obtain ⟨entries, hentries, h⟩ := bind_eq_ok.1 h
  obtain rfl := pure_eq_ok.1 h
  exact (entriesFrom_eq_ok [] List.nodup_nil).1 hentries

theorem map_text_of_hasEntry {members : List String} {entries : List (String × String)}
    (h : List.Forall₂ (HasEntry place) members entries) :
    entries.map Prod.snd = members.map Text.kebab := by
  induction h with
  | nil => rfl
  | cons hentry _ ih => rw [List.map_cons, List.map_cons, ih, hentry.2]

theorem identifier_of_plain {m variant : String} (hplain : Text.isPlainIdentifier m = true)
    (h : identifier place m = .ok variant) : variant = m := by
  unfold identifier at h
  split at h
  · next n hread =>
    obtain rfl := Except.ok.inj h
    exact parseIdent_of_plain hplain hread
  · cases h

theorem map_variant_of_plain {members : List String} {entries : List (String × String)}
    (hplain : ∀ m ∈ members, Text.isPlainIdentifier m = true)
    (h : List.Forall₂ (HasEntry place) members entries) : entries.map Prod.fst = members := by
  induction h with
  | nil => rfl
  | cons hentry _ ih =>
    obtain ⟨hm, hrest⟩ := List.forall_mem_cons.1 hplain
    rw [List.map_cons, ih hrest, identifier_of_plain place hm hentry.1]

section Failures

variable {place enumeration members}
  (htype : ∃ type, typeCode place (.named enumeration) = .ok type)
  (hname : ∃ name, tableName place enumeration = .ok name)
  (husable : ∀ m ∈ members, ∃ variant, identifier place m = .ok variant)

include htype hname husable

/-- Usable members of a usable enumeration fail just at the first that has the text of one before. -/
theorem ofMembers_eq_error (failure : Failure) :
    ofMembers place enumeration members = .error failure ↔
      ∃ previous m, FirstShared [] members previous m ∧
        failure = ⟨.sharedMemberText previous m enumeration (Text.kebab m), place⟩ := by
  obtain ⟨type, htype⟩ := htype
  obtain ⟨name, hname⟩ := hname
  refine Iff.trans ?_ (entriesFrom_eq_error husable List.nodup_nil)
  rw [ofMembers, htype, hname]
  constructor
  · intro h
    rcases bind_eq_error.1 h with ⟨⟨⟩⟩ | ⟨_, -, h⟩
    rcases bind_eq_error.1 h with ⟨⟨⟩⟩ | ⟨_, -, h⟩
    rcases bind_eq_error.1 h with h | ⟨_, -, ⟨⟩⟩
    exact h
  · intro h
    exact bind_eq_error.2 (Or.inr ⟨type, rfl,
      bind_eq_error.2 (Or.inr ⟨name, rfl, bind_eq_error.2 (Or.inl h)⟩)⟩)

theorem exists_ofMembers_eq_error :
    (∃ failure, ofMembers place enumeration members = .error failure) ↔
      ¬ (members.map Text.kebab).Nodup := by
  constructor
  · rintro ⟨failure, h⟩
    obtain ⟨previous, m, hfirst, -⟩ := (ofMembers_eq_error htype hname husable failure).1 h
    exact hfirst.not_nodup
  · intro hshared
    cases hrun : ofMembers place enumeration members with
    | error failure => exact ⟨failure, rfl⟩
    | ok table => exact absurd (ofMembers_eq_ok place enumeration members hrun).2 hshared

end Failures

/-- A table has one row for each member, in order, with different texts. The value of a text of a value
is that value, a text outside the table has none, and the text of a value of a text is that text just if
no two members denote one value. Members that are plain names stand in the table as they are. Of usable
members just those fail of which two have one text, at the first that has the text of one before. -/
theorem ofMembers_lookups [DecidableEq V] (denotes : String → V) :
    (∀ table, ofMembers place enumeration members = .ok table →
      List.Forall₂ (HasEntry place) members table.entries ∧
      (table.entries.map Prod.snd).Nodup ∧ members.Nodup ∧
      (∀ e ∈ table.entries,
        (toName? (table.rows denotes) (denotes e.1)).bind (fromName? (table.rows denotes)) =
          some (denotes e.1)) ∧
      (∀ text, text ∉ table.entries.map Prod.snd → fromName? (table.rows denotes) text = none) ∧
      ((∀ text ∈ table.entries.map Prod.snd,
        (fromName? (table.rows denotes) text).bind (toName? (table.rows denotes)) = some text) ↔
          (table.entries.map fun e => denotes e.1).Nodup) ∧
      ((∀ m ∈ members, Text.isPlainIdentifier m = true) →
        table.entries.map Prod.fst = members)) ∧
    ((∃ type, typeCode place (.named enumeration) = .ok type) →
      (∃ name, tableName place enumeration = .ok name) →
      (∀ m ∈ members, ∃ variant, identifier place m = .ok variant) →
      ((∃ failure, ofMembers place enumeration members = .error failure) ↔
        ¬ (members.map Text.kebab).Nodup) ∧
      ∀ failure, ofMembers place enumeration members = .error failure ↔
        ∃ previous m, FirstShared [] members previous m ∧
          failure = ⟨.sharedMemberText previous m enumeration (Text.kebab m), place⟩) := by
  constructor
  · intro table h
    obtain ⟨hentries, hnodup⟩ := ofMembers_eq_ok place enumeration members h
    have htexts : (table.entries.map Prod.snd).Nodup := map_text_of_hasEntry place hentries ▸ hnodup
    have hnames : (table.rows denotes).map Prod.snd = table.entries.map Prod.snd := by
      rw [rows, List.map_map]
      rfl
    have hvalues : (table.rows denotes).map Prod.fst = table.entries.map fun e => denotes e.1 := by
      rw [rows, List.map_map]
      rfl
    refine ⟨hentries, htexts, .of_map _ hnodup, fun e he => ?_, fun text htext => ?_, ?_,
      fun hplain => map_variant_of_plain place hplain hentries⟩
    · refine fromName?_toName? (hnames ▸ htexts) ?_
      rw [hvalues]
      exact List.mem_map.2 ⟨e, he, rfl⟩
    · exact fromName?_eq_none.2 (hnames ▸ htext)
    · rw [← hvalues, ← hnames]
      exact toName?_fromName?_iff (hnames ▸ htexts)
  · intro htype hname husable
    exact ⟨exists_ofMembers_eq_error htype hname husable, ofMembers_eq_error htype hname husable⟩

/-- One variant under two spellings has two texts, of which the second is read but never written. Members
that differ by an underscore alone share a text. -/
theorem two_spellings_of_red :
    (∃ table, ofMembers ⟨"Home", none, none⟩ "Color" ["Red", "r#Red"] = .ok table ∧
      table.entries = [("Red", "red"), ("r#Red", "r-red")] ∧
      plainSegment "Red" = plainSegment "r#Red" ∧
      ¬ ∀ text ∈ table.entries.map Prod.snd,
        (fromName? (table.rows plainSegment) text).bind (toName? (table.rows plainSegment)) =
          some text) ∧
    ∃ failure, ofMembers ⟨"Home", none, none⟩ "Mode" ["DarkMode", "Light", "Dark_Mode"] =
      .error failure := by
  refine ⟨⟨_, rfl, rfl, rfl, fun hback => ?_⟩, ?_⟩
  · obtain ⟨-, -, -, -, -, hinverse, -⟩ :=
      (ofMembers_lookups ⟨"Home", none, none⟩ "Color" ["Red", "r#Red"] plainSegment).1 _ rfl
    have hvalues : ["Red", "Red"].Nodup := hinverse.1 hback
    exact absurd hvalues (by decide)
  · have husable : ∀ m ∈ ["DarkMode", "Light", "Dark_Mode"],
        ∃ variant, identifier ⟨"Home", none, none⟩ m = .ok variant := by
      intro m hm
      rcases List.mem_cons.1 hm with rfl | hm
      · exact ⟨_, rfl⟩
      rcases List.mem_cons.1 hm with rfl | hm
      · exact ⟨_, rfl⟩
      obtain rfl := List.mem_singleton.1 hm
      exact ⟨_, rfl⟩
    have hshared : ¬ (["DarkMode", "Light", "Dark_Mode"].map Text.kebab).Nodup := by decide
    exact ((ofMembers_lookups ⟨"Home", none, none⟩ "Mode" ["DarkMode", "Light", "Dark_Mode"]
      plainSegment).2 ⟨_, rfl⟩ ⟨_, rfl⟩ husable).1.2 hshared

end EnumTable

end TypedRoutes.Emission
