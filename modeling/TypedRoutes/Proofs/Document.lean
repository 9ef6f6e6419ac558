import Mathlib.Logic.Function.Iterate
import TypedRoutes.Document
import TypedRoutes.Proofs.JsonSchema

/-!
# Documents as text: reading what was written

* `Document.trim_abridged` : nothing is skipped in the form of a document;
* `Document.ofJson?_abridged` : an abridged form of a document is read as the document;
* `Document.parse_write_abridged` : so is its text, unless it is nested too deep;
* `Document.parse_write_lists` : how deep types can be nested in a document that is read back.
-/

namespace TypedRoutes

open Json

namespace Document

/-! ## Nothing is skipped -/

theorem trimDeclaration_abridged {d : Declaration} {k : Json} (h : Abridged d.toJson k) :
    trimDeclaration k = k := by
  cases h with
  | leaf hleaf => cases hleaf
  | @object _ ns h =>
    have hkeys : ∀ n ∈ ns, Declaration.fieldNames.contains n.1 = true := fun n hn =>
      List.contains_iff_mem.2 (h.keys_sublist.subset (List.mem_map_of_mem hn))
    rw [trimDeclaration, List.filter_eq_self.2 hkeys]

theorem trimDeclarations_abridged {ds : List Declaration} {k : Json}
    (h : Abridged (.array (ds.map Declaration.toJson)) k) : trimDeclarations k = k := by
  cases h with
  | leaf hleaf => cases hleaf
  | @array _ ks h =>
    have hitems : ∀ i ∈ ks, trimDeclaration i = id i := by
      intro i hi
      obtain ⟨j, hj, hji⟩ := h.exists_of_mem hi
      obtain ⟨d, -, rfl⟩ := List.mem_map.1 hj
      exact trimDeclaration_abridged hji
    rw [trimDeclarations, List.map_congr_left hitems, List.map_id]

variable {d : Document}

/-- The members of a document. -/
def members (d : Document) : Fields :=
  [("types", d.types.toJson), ("declarations", .array (d.declarations.map Declaration.toJson))]

theorem members_nodup (d : Document) : (d.members.map Prod.fst).Nodup := by
  simp [members]

/-- Nothing is skipped in the form of a document. -/
theorem trim_abridged {ns : Fields} (h : AbridgedMembers d.members ns) :
    trim (.object ns) = .object ns := by
  have hmembers : ∀ n ∈ ns,
      (n.1, if n.1 = "declarations" then trimDeclarations n.2 else n.2) = id n := by
    rintro ⟨name, k⟩ hn
    by_cases hname : name = "declarations"
    · subst hname
      obtain ⟨j, hj, hjk⟩ := h.exists_of_mem hn
      have hj : j = .array (d.declarations.map Declaration.toJson) := by
        simpa [members] using hj
      rw [if_pos rfl, trimDeclarations_abridged (hj ▸ hjk)]
      rfl
    · rw [if_neg hname]
      rfl
  rw [trim, List.map_congr_left hmembers, List.map_id]

/-! ## Reading -/

/-- An abridged form of a document is read as the document if its types are there. -/
theorem ofJson?_abridged {ns : Fields} (h : AbridgedMembers d.members ns)
    (htypes : (ns.lookup "types").isSome = true) : ofJson? (.object ns) = some d := by
  have hfields : fields fieldNames true (.object ns) = some ns :=
    fields_abridged true h d.members_nodup (by simp [members, fieldNames])
  have hmem : ("types", d.types.toJson) ∈ d.members := by simp [members]
  have htypes : Fields.get ns "types" Catalog.ofJson? = some d.types := by
    rcases h.lookup d.members_nodup hmem with ⟨k, hk, -, hjk⟩ | ⟨hnone, -⟩
    · unfold Fields.get
      rw [hk]
      exact Catalog.ofJson?_abridged hjk
    · rw [hnone] at htypes
      cases htypes
  have hdeclarations :
      Fields.getOr ns "declarations" (asList Declaration.ofJson?) [] = some d.declarations :=
    getOr_list h d.members_nodup (by simp [members]) fun _ _ _ _ => Declaration.ofJson?_abridged
  simp only [ofJson?, hfields, htypes, hdeclarations, Option.bind_eq_bind, Option.bind_some]
  rfl

theorem toJson_isNumberless (d : Document) : d.toJson.isNumberless = true := by
  simp [toJson, isNumberless, membersNumberless, d.types.toJson_isNumberless,
    areNumberless_map Declaration.toJson_isNumberless]

theorem parse_write_of_abridged {k : Json} (h : Abridged d.toJson k)
    (htypes : (k.get? "types").isSome = true) :
    parse (write k) = if k.depth ≤ maxDepth then some d else none := by
  have hnumberless := h.isNumberless
  cases h with
  | leaf hleaf => cases hleaf
  | @object _ ns h =>
    have htrim : trim (.object ns) = .object ns := trim_abridged h
    have hread : ofJson? (.object ns) = some d := ofJson?_abridged h htypes
    have hreadable := isReadable_of_isNumberless hnumberless
    simp only [parse, parse_write hnumberless, htrim, hread, hreadable, Option.bind_eq_bind,
      Option.bind_some, true_and]

/-- A document is read back from its text, and from the text of any form of it in which members are
left out that hold false, null or an empty list. Either is refused just if it is nested too deep.
The types have no default, and so are always there. -/
theorem parse_write_abridged (d : Document) :
    parse (write d.toJson) = (if d.toJson.depth ≤ maxDepth then some d else none) ∧
      ∀ k, Abridged d.toJson k → (k.get? "types").isSome = true →
        parse (write k) = if k.depth ≤ maxDepth then some d else none :=
  ⟨parse_write_of_abridged (.refl d.toJson_isNumberless) rfl,
    fun _ => parse_write_of_abridged⟩

/-- A document whose declaration leaves out what it can. -/
def home : Document :=
  ⟨.ofList [⟨"A", .record [] [] []⟩], [⟨"A", .go "A" (some "/a") none []⟩]⟩

/-- A form of it without its empty lists, false and null. -/
def homeForm : Json :=
  .object [("types", .array [.object [("name", .string "A"), ("kind", .string "struct")]]),
    ("declarations", .array [.object [("type_name", .string "A"),
      ("annotation", .object [("kind", .string "go_route"), ("type", .string "A"),
        ("path", .string "/a")])]])]

theorem home_abridged : Abridged home.toJson homeForm := by
  have htype : Abridged (TypeInfo.toJson ⟨"A", .record [] [] []⟩)
      (.object [("name", .string "A"), ("kind", .string "struct")]) :=
    .object <| .keep (.leaf rfl) <| .keep (.leaf rfl) <| .drop rfl <| .drop rfl <| .drop rfl .nil
  have hdeclaration : Abridged (Declaration.toJson ⟨"A", .go "A" (some "/a") none []⟩)
      (.object [("type_name", .string "A"), ("annotation", .object [("kind", .string "go_route"),
        ("type", .string "A"), ("path", .string "/a")])]) := by
    rw [Declaration.toJson, Annotation.toJson, Annotation.toJsons]
    exact .object <| .keep (.leaf rfl) <| .keep (.object <| .keep (.leaf rfl) <|
      .keep (.leaf rfl) <| .keep (.leaf rfl) <| .drop rfl <| .drop rfl .nil) .nil
  exact .object <| .keep (.array (.cons htype .nil)) <|
    .keep (.array (.cons hdeclaration .nil)) .nil

theorem parse_write_home : Abridged home.toJson homeForm ∧
    (homeForm.get? "types").isSome = true ∧ parse (write homeForm) = some home :=
  ⟨home_abridged, rfl,
    ((parse_write_abridged home).2 homeForm home_abridged rfl).trans (if_pos (by decide))⟩

/-! ## Nested types -/

/-- A document that describes one type, with one field. -/
def ofField (t : TypeRef) : Document :=
  ⟨⟨[⟨"A", .record [] [⟨"f", t⟩] []⟩], List.pairwise_singleton _ _⟩, []⟩

theorem depth_ofField (t : TypeRef) : (ofField t).toJson.depth = t.toJson.depth + 5 := by
  simp [ofField, toJson, Catalog.toJson, TypeInfo.toJson, Field.toJson, depth, depthAll,
    depthMembers]

theorem depth_list (t : TypeRef) : t.list.toJson.depth = t.toJson.depth + 2 := by
  simp [TypeRef.list, TypeRef.toJson, TypeRef.toJsons, depth, depthAll, depthMembers]

/-- Each list that a type is put into nests its form two deeper. -/
theorem depth_lists (n : Nat) (t : TypeRef) :
    (TypeRef.list^[n] t).toJson.depth = t.toJson.depth + 2 * n := by
  induction n with
  | zero => rfl
  | succ n ih =>
    rw [Function.iterate_succ_apply', depth_list, ih]
    omega

/-- A name is read back from sixty lists in one another, and from no more. -/
theorem parse_write_lists (n : Nat) (name : String) (nullable : Bool) :
    let d := ofField (TypeRef.list^[n] ⟨name, [], nullable⟩)
    parse (write d.toJson) = if n ≤ 60 then some d else none := by
  intro d
  have hname : (TypeRef.toJson ⟨name, [], nullable⟩).depth = 1 := rfl
  have hdepth : d.toJson.depth ≤ maxDepth ↔ n ≤ 60 := by
    rw [depth_ofField, depth_lists, hname, maxDepth]
    omega
  rw [parse_write_of_abridged (.refl d.toJson_isNumberless) rfl]
  exact if_congr hdepth rfl rfl

/-- A document with lists in lists that is not read back. -/
theorem parse_write_sixty_one_lists :
    parse (write (ofField (TypeRef.list^[61] ⟨"u32", [], false⟩)).toJson) ≠
      some (ofField (TypeRef.list^[61] ⟨"u32", [], false⟩)) := by
  rw [parse_write_lists, if_neg (by decide)]
  nofun

end Document

end TypedRoutes
