import TypedRoutes.Proofs.ReadableStatements

/-!
# Items that are read back

* `ReadsInput`, `takes_fnInputs` : code that is read as a parameter of a function, and all of them;
* `ReadsFunction` : a function, as it is read from its parts;
* `ReadsMember`, `takes_impl` : the members of an implementation, and the implementation;
* `takes_constant` : a constant;
* `isSome_itemsOf?` : code that is read as an item is read as a text of items.
-/

namespace TypedRoutes.Emission

open Syntax Code
open Parse (Takes Row ahead bind_apply bind_eq_some)

/-! ## Parameters -/

/-- Code that is read as a parameter of a function. -/
structure ReadsInput (c : Code) (input : FnInput) : Prop where
  ne_nil : c ≠ []
  begins : ∀ rest, startsOp "#" (c ++ rest) = false ∧ startsOp "..." (c ++ rest) = false
  isRest : input.isRest = false
  takes : ∀ {n : Nat} {rest : Code}, 2 * Token.countAll c ≤ n →
    (rest = [] ∨ ∃ r, rest = op "," ++ r) → Takes ((grammar (n + 1)).fnInput []) c input rest

section Inputs

variable {c : Code} {ty : Ty} {x : String} {n : Nat} {inputs : List Code} {is : List FnInput}

/-- The value itself, behind a reference. -/
theorem ReadsInput.receiver : ReadsInput (refer (word "self")) (.receiver [] true none false none) where
  ne_nil := nofun
  begins _ := ⟨rfl, rfl⟩
  isRest := rfl
  takes {n rest} _ hrest := by
    have hcolons : startsOp "::" rest = false := by
      rcases hrest with rfl | ⟨r, rfl⟩ <;> rfl
    have hreceiver : Takes ((grammar (n + 1)).receiver []) (refer (word "self"))
        (.receiver [] true none false none) rest := by
      refine .bind (a := true) rfl (.skip (a := none) rfl (.skip (a := false) rfl (.last rfl ?_)))
      have hexpect : Takes (Parse.expect fun ts => !startsOp "::" ts) [] () rest :=
        if_pos (by simp [hcolons])
      exact hexpect.skip (.skip .pure .pure)
    unfold Takes Grammar.fnInput at *
    rw [hreceiver]

theorem receiver_name {g : Grammar} {attrs : List Attr} {rest : Code} (hx : isIdentifier x = true) :
    g.receiver attrs (word x ++ rest) = none := by
  have hself : startsWord "self" (word x ++ rest) = false := startsWord_of_isIdentifier hx (by decide)
  have hmut : startsWord "mut" (word x ++ rest) = false := startsWord_of_isIdentifier hx (by decide)
  have hrefer : Parse.op? "&" (word x ++ rest) = some (false, word x ++ rest) :=
    if_neg (by rw [show startsOp "&" (word x ++ rest) = false from startsOp_ident]; nofun)
  have hmut' : Parse.word? "mut" (word x ++ rest) = some (false, word x ++ rest) :=
    if_neg (by simp [hmut])
  have hword : Parse.word "self" (word x ++ rest) = none := if_neg (by simp [hself])
  unfold Grammar.receiver
  simp [bind_apply, hrefer, hmut', hword]

theorem ReadsInput.typed (hx : isIdentifier x = true) (h : ReadsTy c ty) :
    ReadsInput (Code.typed (word x) c) (.typed [] (.ident false false x none) ty) where
  ne_nil := nofun
  begins _ := ⟨startsOp_ident, startsOp_ident⟩
  isRest := rfl
  takes {n rest} hn hrest := by
    have hcode : Code.typed (word x) c = word x ++ (op ":" ++ c) := by
      simp only [Code.typed, List.append_assoc]
    have hop : 1 ≤ Token.countAll (op ":") := by decide
    rw [hcode] at hn ⊢
    simp only [countAll_append] at hn
    have hends : endsType rest = true := by
      rcases hrest with rfl | ⟨r, rfl⟩ <;> rfl
    obtain ⟨t, c', rfl, ht⟩ := h.begins
    have hdots : startsOp "..." (t :: c' ++ rest) = false := not_dots_of_beginsType _ ht
    have htyped : Takes (do
        let pat ← (grammar (n + 1)).pat
        Parse.op ":"
        if ← Parse.op? "..." then return .rest [] (some pat)
        else return .typed [] pat (← (grammar (n + 1)).ty true) : Parse FnInput)
        (word x ++ (op ":" ++ (t :: c'))) (.typed [] (.ident false false x none) ty) rest :=
      .bind (takes_readPat_name hx rfl) (.bind rfl (.skip (.no_op? hdots) (.no rfl
        (.last (h.takes true (by omega) hends) .pure))))
    have hangle : (startsIdent (word x ++ (op ":" ++ (t :: c')) ++ rest) &&
        startsOp "<" ((word x ++ (op ":" ++ (t :: c')) ++ rest).drop 1)) = false := Bool.and_false _
    have hassoc : word x ++ (op ":" ++ (t :: c')) ++ rest =
        word x ++ (op ":" ++ (t :: c') ++ rest) := rfl
    unfold Takes Grammar.fnInput at *
    rw [hassoc] at htyped hangle ⊢
    rw [receiver_name hx, hangle]
    exact htyped

/-- The value itself may only come first. -/
theorem takes_fnInputs (h : List.Forall₂ ReadsInput inputs is) (isFirst : Bool)
    (hreceiver : ∀ i ∈ if isFirst then is.tail else is, i.isReceiver = false)
    (hn : 2 * Token.countAll (Tokens.commaSeparated inputs) ≤ n) {fuel : Nat} (hpos : 0 < fuel)
    (hfuel : inputs.length ≤ fuel) :
    Takes ((grammar (n + 1)).fnInputs isFirst fuel) (Tokens.commaSeparated inputs) is [] := by
  induction h generalizing isFirst fuel with
  | nil =>
    obtain ⟨k, rfl⟩ : ∃ k, fuel = k + 1 := ⟨fuel - 1, by omega⟩
    exact .look (.isTrue rfl .pure)
  | @cons c i inputs is hinput hinputs ih =>
    obtain ⟨k, rfl⟩ : ∃ k, fuel = k + 1 := ⟨fuel - 1, by omega⟩
    have hplace : (i.isReceiver && !isFirst) = false := by
      cases isFirst with
      | true => exact Bool.and_false _
      | false => simp [hreceiver i List.mem_cons_self]
    have hlater : ∀ i ∈ is, i.isReceiver = false := fun j hj => hreceiver j (by
      cases isFirst with
      | true => exact hj
      | false => exact List.mem_cons_of_mem _ hj)
    have hempty (r : Code) : (c ++ r).isEmpty = false := by simp [hinput.ne_nil]
    cases hinputs with
    | nil =>
      rw [commaSeparated_singleton] at hn ⊢
      obtain ⟨hattrs, hdots⟩ := hinput.begins []
      refine .look (.no (hempty _) (.skip (takes_outerAttrs hattrs) (.skip (.no_op? hdots) (.no rfl
        (.last (hinput.takes hn (Or.inl rfl)) (.no hplace (.look (.isTrue rfl .pure))))))))
    | @cons c' i' inputs is hinput' hinputs =>
      rw [commaSeparated_cons_cons, countAll_append, Token.countAll] at hn
      rw [commaSeparated_cons_cons]
      show Takes _ (c ++ (op "," ++ Tokens.commaSeparated (c' :: inputs))) _ _
      obtain ⟨hattrs, hdots⟩ := hinput.begins
        (op "," ++ Tokens.commaSeparated (c' :: inputs) ++ [])
      simp only [List.length_cons] at hfuel
      have hrest : Takes ((grammar (n + 1)).fnInputs false k) (Tokens.commaSeparated (c' :: inputs))
          (i' :: is) [] :=
        ih false hlater (by omega) (by omega) (by simp only [List.length_cons]; omega)
      rw [← List.append_assoc] at hattrs hdots
      refine .look (.no ?_ (.skip (takes_outerAttrs hattrs) (.skip (.no_op? hdots) (.no rfl
        (.bind (hinput.takes (by omega) (Or.inr ⟨_, rfl⟩)) (.no hplace (.look (.no rfl (.bind rfl
          (.no hinput.isRest (.last hrest .pure)))))))))))
      rw [List.append_assoc]
      exact hempty _

end Inputs

/-! ## Functions -/

section Functions

variable {x : String} {generics : Code} {params : List GenericParam} {inputs : List Code}
  {is : List FnInput} {output body : Code} {output? : Option Ty} {ss : List Stmt}

/-- What a function is declared as, without its body. -/
def signature (x : String) (params : List GenericParam) (is : List FnInput)
    (output? : Option Ty) : Signature :=
  ⟨false, false, false, none, x, params, is, output?, []⟩

/-- Code that is read as generic parameters, or none. -/
def ReadsGenerics (c : Code) (params : List GenericParam) : Prop :=
  ∀ {n : Nat} {inner rest : Code}, 2 * Token.countAll c ≤ n →
    Takes (grammar n).genericParams c params (.group .paren inner :: rest)

/-- Code of a result type, or none. -/
def ReadsOutput (c : Code) (output? : Option Ty) : Prop :=
  (c = [] ∧ output? = none) ∨ ∃ ty, c ≠ [] ∧ output? = some ty ∧ ReadsTy c ty

theorem ReadsGenerics.none : ReadsGenerics [] [] :=
  fun _ => rfl

/-- A single parameter. -/
theorem ReadsGenerics.single (hx : isIdentifier x = true) :
    ReadsGenerics (op "<" ++ (word x ++ op ">")) [.type [] x [] Option.none] := by
  intro n inner rest hn
  have hop : 1 ≤ Token.countAll (op "<") := by decide
  simp only [countAll_append] at hn
  obtain ⟨m, rfl⟩ : ∃ m, n = m + 1 := ⟨n - 1, by omega⟩
  have hno (w : String) (hw : isIdentifier w = false) (r : Code) :
      startsWord w (word x ++ r) = false := startsWord_of_isIdentifier hx hw
  have hparam (r : Code) : Takes (grammar m).readParam (word x) (.type [] x [] Option.none)
      (op ">" ++ r) := by
    refine .skip (takes_outerAttrs startsOp_ident) (.look (.no rfl (.skip
      (.no_word? (hno "const" (by decide) _)) (.no rfl (.bind (takes_ident hx) ?_)))))
    exact .skip (a := false) rfl (.no rfl (.skip .pure (.skip (.whenAhead_none rfl) .pure)))
  have hitem (r : Code) : Takes (do
      let ts ← ahead id
      let attrs ← (grammar (m + 1)).outerAttrs
      if ← Parse.word? "_" then return .type attrs "_" [] Option.none
      else fun _ => (grammar (m + 1)).param ts) (word x) (.type [] x [] Option.none) (op ">" ++ r) :=
    .look (.skip (takes_outerAttrs startsOp_ident) (.skip
      (.no_word? (hno "_" (by decide) _)) (.no rfl (hparam r))))
  refine .bind rfl (.isTrue rfl (.bind (a := ([.type [] x [] Option.none], false)) ?_ (.last rfl .pure)))
  exact .look (.look (.no rfl (.last (hitem _) (.look (.isTrue rfl .pure)))))

/-- A function, as it is read from its parts. -/
structure ReadsFunction (name : Code) (inputs : List Code) (output body : Code)
    (sig : Signature) (ss : List Stmt) : Prop where
  takes : ∀ {n : Nat} (attrs : List Attr) (vis : Visibility) {rest : Code},
    2 * Token.countAll (function name inputs output body) ≤ n →
      Takes ((grammar n).functionItem attrs vis false) (function name inputs output body)
        (.function attrs vis false sig (some ss)) rest

theorem ReadsFunction.of_parts (hx : isIdentifier x = true) (hgenerics : ReadsGenerics generics params)
    (hinputs : List.Forall₂ ReadsInput inputs is)
    (hreceiver : ∀ i ∈ is.tail, i.isReceiver = false) (houtput : ReadsOutput output output?)
    (hbody : ReadsStmts body ss) :
    ReadsFunction (word x ++ generics) inputs output body (signature x params is output?) ss where
  takes {n} attrs vis rest hn := by
    have hcode : function (word x ++ generics) inputs output body = word "fn" ++ (word x ++
        (generics ++ (tuple inputs ++ ((if output.isEmpty then [] else op "->" ++ output) ++
          braces body)))) := by
      simp only [function, List.append_assoc]
    have hcount : Token.countAll (braces body) = Token.countAll body + 1 := rfl
    have hword : 1 ≤ Token.countAll (word "fn") := by decide
    have hname : 1 ≤ Token.countAll (word x) := count_pos _
    have hlength := length_commaSeparated inputs
    rw [hcode] at hn ⊢
    simp only [countAll_append, countAll_tuple, hcount] at hn
    obtain ⟨m, rfl⟩ : ∃ m, n = m + 1 := ⟨n - 1, by omega⟩
    have hins : Takes (do (grammar (m + 1)).fnInputs true ((← Parse.remaining) + 1))
        (Tokens.commaSeparated inputs) is [] :=
      .look (takes_fnInputs hinputs true hreceiver (by omega) (Nat.succ_pos _) (by simpa using hlength))
    have hout : Takes ((grammar (m + 1)).output? true)
        (if output.isEmpty then [] else op "->" ++ output) output? (braces body ++ rest) := by
      rcases houtput with ⟨rfl, rfl⟩ | ⟨ty, hne, rfl, hty⟩
      · exact .whenAhead_none rfl
      · have hempty : output.isEmpty = false := by simp [hne]
        simp only [hempty, Bool.false_eq_true, if_false, countAll_append] at hn ⊢
        exact .whenAhead rfl (.bind rfl (hty.takes true (by omega) rfl))
    have hsig : Takes (grammar (m + 1)).signature (word "fn" ++ (word x ++ (generics ++
        (tuple inputs ++ (if output.isEmpty then [] else op "->" ++ output)))))
        (signature x params is output?)
        (braces body ++ rest) := by
      refine .skip (a := false) rfl (.skip (a := false) rfl (.skip (a := false) rfl
        (.skip (a := none) rfl (.bind rfl (.bind (takes_ident hx)
          (.bind (hgenerics (by omega)) (.bind (.within hins) (.last hout
            (.skip (a := []) rfl .pure)))))))))
    have hitem : Takes ((grammar (m + 1)).functionItem attrs vis false) ((word "fn" ++ (word x ++
        (generics ++ (tuple inputs ++ (if output.isEmpty then [] else op "->" ++ output))))) ++
          braces body) (.function attrs vis false (signature x params is output?) (some ss)) rest :=
      .bind hsig (.skip (a := false) rfl (.no rfl
        (.last (takes_statements hbody true (by rw [hcount]; omega)) .pure)))
    simpa only [List.append_assoc] using hitem

end Functions

/-! ## Implementations -/

/-- Code that is read as a member of an implementation. -/
structure ReadsMember (c : Code) (item : Item) : Prop where
  ne_nil : c ≠ []
  begins : ∀ rest, (startsOp "#" (c ++ rest) && startsOp "!" ((c ++ rest).drop 1)) = false
  takes : ∀ {n : Nat} {rest : Code}, 2 * Token.countAll c ≤ n → Takes (grammar n).implMember c item rest

section Members

variable {name output body marker : Code} {inputs members : List Code} {sig : Signature}
  {ss : List Stmt} {items : List Item} {attrs : List Attr}

/-- A public function behind its attributes. -/
theorem ReadsMember.publicFunction (h : ReadsFunction name inputs output body sig ss)
    (hmarker : ∀ {g : Grammar} (rest : Code), Takes g.outerAttrs marker attrs (word "pub" ++ rest))
    (hbegins : ∀ rest, (startsOp "#" (marker ++ (word "pub" ++ rest)) &&
      startsOp "!" ((marker ++ (word "pub" ++ rest)).drop 1)) = false) :
    ReadsMember (marker ++ publicFunction name inputs output body)
      (.function attrs .exported false sig (some ss)) where
  ne_nil := by simp [Code.publicFunction, word, Tokens.word]
  begins rest := by
    rw [Code.publicFunction, List.append_assoc, List.append_assoc]
    exact hbegins _
  takes {n rest} hn := by
    rw [Code.publicFunction, countAll_append, countAll_append] at hn
    have hattrs : Takes (grammar n).outerAttrs marker attrs
        (Code.publicFunction name inputs output body ++ rest) := by
      rw [Code.publicFunction, List.append_assoc]
      exact hmarker _
    have hfunction : Takes ((grammar n).functionItem attrs .exported false)
        (function name inputs output body) (.function attrs .exported false sig (some ss)) rest :=
      h.takes attrs .exported (by omega)
    refine .bind hattrs (.bind (a := Visibility.exported) rfl (.look (.no rfl (.skip .pure
      (.look (.isTrue rfl hfunction))))))

theorem takes_members (h : List.Forall₂ ReadsMember members items) {n : Nat}
    (hn : 2 * Token.countAll members.flatten ≤ n) {rest : Code} :
    Takes ((grammar n).members (grammar n).implMember) (braces members.flatten) items rest := by
  have hattrs : Takes (grammar n).innerAttrs [] [] (members.flatten ++ []) := by
    refine Row.takes_manyWhile (.stop ?_)
    cases h with
    | nil => rfl
    | cons h _ =>
      rw [List.flatten_cons, List.append_nil]
      exact h.begins _
  have hitems : Takes (Parse.manyWhile (fun ts => !ts.isEmpty) (grammar n).implMember)
      members.flatten items [] :=
    Parse.takes_pieces (k := 0) (fun h => ⟨h.ne_nil, fun _ hn => h.takes hn⟩) h hn
  exact .within (hattrs.skip (.last hitems .pure))

end Members

section Implementations

variable {leading : Bool} {first : String} {names : List String} {members : List Code}
  {items : List Item} {n : Nat}

/-- An implementation for a type that is a path of bare names. -/
theorem takes_impl (hfirst : isPathName first = true) (hnames : ∀ m ∈ names, isPathName m = true)
    (h : List.Forall₂ ReadsMember members items)
    (hn : 2 * Token.countAll (word "impl" ++ barePath leading first names ++ braces members.flatten) ≤
      n) :
    Takes (grammar n).readItem (word "impl" ++ barePath leading first names ++ braces members.flatten)
      (.implementation [] [] [] false none
        (.path (.mk none 0 leading ((first :: names).map .plain))) [] items) [] := by
  have hcode : word "impl" ++ barePath leading first names ++ braces members.flatten =
      word "impl" ++ (barePath leading first names ++ braces members.flatten) := List.append_assoc _ _ _
  have hcount : Token.countAll (braces members.flatten) = Token.countAll members.flatten + 1 := rfl
  have hword : 1 ≤ Token.countAll (word "impl") := by decide
  rw [hcode] at hn ⊢
  simp only [countAll_append, hcount] at hn
  obtain ⟨m, rfl⟩ : ∃ m, n = m + 1 := ⟨n - 1, by omega⟩
  have hty : Takes ((grammar (m + 1)).ty true) (barePath leading first names)
      (.path (.mk none 0 leading ((first :: names).map .plain))) (braces members.flatten ++ []) :=
    (ReadsTy.bare hfirst hnames).takes true (by omega) rfl
  let behind : Code := barePath leading first names ++ braces members.flatten ++ []
  have hno {o : String} (ho : o ∈ ["#", "&", "*", "!", "-", "<", "->", "?"]) :
      startsOp o behind = false := by
    show startsOp o (barePath leading first names ++ braces members.flatten ++ []) = false
    rw [List.append_assoc]
    exact not_startsOp_barePath ho
  have hgenerics : startsGenerics behind = false :=
    Bool.and_eq_false_iff.2 (.inl (hno (by decide)))
  have hword' : startsWord "const" behind = false := by
    show startsWord "const" (barePath leading first names ++ braces members.flatten ++ []) = false
    rw [List.append_assoc]
    exact startsWord_barePath hfirst (by decide)
  have hconst : (startsWord "const" behind ||
      startsOp "?" behind && startsWord "const" (behind.drop 1)) = false := by
    rw [hword', hno (by decide)]
    rfl
  have hnegative : (startsOp "!" behind && !startsGroup .brace (behind.drop 1)) = false := by
    rw [hno (by decide), Bool.false_and]
  have himpl : Takes ((grammar (m + 1)).implementation [] .inherited)
      (word "impl" ++ (barePath leading first names ++ braces members.flatten))
      (.implementation [] [] [] false none
        (.path (.mk none 0 leading ((first :: names).map .plain))) [] items) [] := by
    refine .skip (a := false) rfl (.skip (a := false) rfl (.bind rfl (.look (.no hgenerics (.skip .pure
      (.look (.no hconst (.look (.no hnegative (.skip .pure (.bind hty (.skip (a := false) rfl (.no rfl
        (.skip .pure (.skip (a := []) rfl (.last (takes_members h (by omega)) ?_))))))))))))))))
    change Takes (pure (if (!Visibility.inherited.isInherited || (startsWord "const" behind ||
      startsOp "?" behind && startsWord "const" (behind.drop 1)) || false) = true then _ else _)) _ _ _
    rw [hconst]
    exact .pure
  have hafter : Takes ((grammar (m + 1)).itemAfter [])
      (word "impl" ++ (barePath leading first names ++ braces members.flatten))
      (.implementation [] [] [] false none
        (.path (.mk none 0 leading ((first :: names).map .plain))) [] items) [] := himpl
  exact .skip (takes_outerAttrs rfl) hafter

end Implementations

/-! ## Constants and functions -/

section Items

variable {x : String} {tyCode c name output body : Code} {inputs : List Code} {sig : Signature}
  {ss : List Stmt} {ty : Ty} {e : Expr} {n : Nat}

theorem takes_constant (hx : isIdentifier x = true) (hty : ReadsTy tyCode ty)
    (h : ReadsExpr false c e)
    (hn : 2 * Token.countAll (word "const" ++ typed (word x) tyCode ++ op "=" ++ c ++ op ";") + 3 ≤ n) :
    Takes (grammar n).readItem (word "const" ++ typed (word x) tyCode ++ op "=" ++ c ++ op ";")
      (.constant [] .inherited false x ty (some e)) [] := by
  have hcode : word "const" ++ typed (word x) tyCode ++ op "=" ++ c ++ op ";" =
      word "const" ++ (word x ++ (op ":" ++ (tyCode ++ (op "=" ++ c ++ op ";")))) := by
    simp only [typed, List.append_assoc]
  rw [hcode] at hn ⊢
  simp only [countAll_append] at hn
  obtain ⟨m, rfl⟩ : ∃ m, n = m + 1 := ⟨n - 1, by omega⟩
  have hno (w : String) (hw : isIdentifier w = false) (r : Code) :
      startsWord w (word x ++ r) = false := startsWord_of_isIdentifier hx hw
  have hword : 1 ≤ Token.countAll (word "const") := by decide
  have htype : Takes ((grammar (m + 1)).ty true) tyCode ty (op "=" ++ c ++ op ";" ++ []) :=
    hty.takes true (by omega) rfl
  have hexpr : Takes ((grammar (m + 1)).expr true) c e (op ";" ++ []) := h.takes (by omega) rfl
  have hvalue : Takes (Parse.whenAhead (startsOp "=") (do
      Parse.op "="
      (grammar (m + 1)).expr true)) (op "=" ++ c) (some e) (op ";" ++ []) :=
    .whenAhead rfl (.bind rfl hexpr)
  have hconstant : Takes ((grammar (m + 1)).constantAfter [] .inherited false false)
      (word x ++ (op ":" ++ (tyCode ++ (op "=" ++ c ++ op ";"))))
      (.constant [] .inherited false x ty (some e)) [] := by
    refine .look (.no (hno "_" (by decide) _) (.bind (takes_ident hx) (.look (.skip (a := []) rfl
      (.bind rfl (.bind htype (.bind hvalue (.look (.skip (a := []) rfl (.last rfl .pure))))))))))
  have hfn (r : Code) : startsFn (word "const" ++ (word x ++ r)) = false := by
    have hasync := hno "async" (by decide) r
    have hunsafe := hno "unsafe" (by decide) r
    have hextern := hno "extern" (by decide) r
    have hfn := hno "fn" (by decide) r
    have hskip : (word "const" ++ (word x ++ r)).drop 1 = word x ++ r := rfl
    have hconst : startsWord "const" (word "const" ++ (word x ++ r)) = true := rfl
    simp only [startsFn, hconst, hskip, if_true, hasync, hunsafe, hextern, hfn, if_false,
      Bool.false_eq_true]
  have hafter : Takes ((grammar (m + 1)).itemAfter [])
      (word "const" ++ (word x ++ (op ":" ++ (tyCode ++ (op "=" ++ c ++ op ";")))))
      (.constant [] .inherited false x ty (some e)) [] := by
    refine .skip (a := Visibility.inherited) rfl (.look (.no ?_ (.no rfl (.no rfl (.no rfl (.no rfl
      (.bind (a := true) rfl (.isTrue rfl hconstant))))))))
    exact hfn _
  exact .skip (takes_outerAttrs rfl) hafter

/-- A function as an item. -/
theorem takes_function (front : Code) (vis : Visibility)
    (hvis : ∀ rest, Takes visibility front vis (word "fn" ++ rest))
    (hfront : ∀ rest, startsOp "#" (front ++ (word "fn" ++ rest)) = false)
    (h : ReadsFunction name inputs output body sig ss)
    (hn : 2 * Token.countAll (front ++ function name inputs output body) ≤ n) :
    Takes (grammar n).readItem (front ++ function name inputs output body)
      (.function [] vis false sig (some ss)) [] := by
  rw [countAll_append] at hn
  have hitem : Takes ((grammar n).functionItem [] vis false) (function name inputs output body)
      (.function [] vis false sig (some ss)) [] := h.takes [] vis (by omega)
  have hcode : ∃ r, function name inputs output body = word "fn" ++ r :=
    ⟨_, by simp only [function, List.append_assoc]; rfl⟩
  obtain ⟨r, hr⟩ := hcode
  rw [hr] at hitem ⊢
  have hvis' : Takes visibility front vis (word "fn" ++ r ++ []) := by
    rw [List.append_assoc]
    exact hvis _
  have hattrs : startsOp "#" (front ++ (word "fn" ++ r) ++ []) = false := by
    rw [List.append_assoc, List.append_assoc]
    exact hfront _
  exact .skip (takes_outerAttrs hattrs) (.bind hvis' (.look (.isTrue rfl hitem)))

theorem isSome_itemsOf? {item : Item} (hne : c ≠ [])
    (hbegins : startsOp "#" c = false)
    (h : ∀ {n : Nat}, 2 * Token.countAll c + 3 ≤ n → Takes (grammar n).readItem c item []) :
    (itemsOf? c).isSome = true := by
  have hlevels : levels c = 2 * Token.countAll c + 3 + 1 := rfl
  have hattrs : Takes (grammar (levels c)).innerAttrs [] [] (c ++ []) := by
    refine Row.takes_manyWhile (.stop ?_)
    rw [List.append_nil, hbegins, Bool.false_and]
  have hitems : Takes (Parse.manyWhile (fun ts => !ts.isEmpty) (grammar (levels c)).item) c [item]
      [] := by
    refine Row.takes_manyWhile (.next (by simp [hne]) (h (Nat.le_refl _)) ?_ (.stop rfl))
    simpa using List.length_pos_iff.2 hne
  have htext : Takes (do
      let inner ← (grammar (levels c)).innerAttrs
      let items ← Parse.manyWhile (fun ts => !ts.isEmpty) (grammar (levels c)).item
      return inner.map .innerAttr ++ items : Parse (List Item)) c [item] [] :=
    hattrs.skip (.last hitems .pure)
  unfold Takes at htext
  rw [List.append_nil] at htext
  exact Option.isSome_iff_exists.2 ⟨_, Parse.all_eq_some.2 htext⟩

end Items

end TypedRoutes.Emission
