import TypedRoutes.Emission.Code

/-!
# Names in code

* `Mentions` : a name stands among tokens as an identifier, at any depth;
* `mentions_append`, `mentions_call`, `mentions_method`, … : the names in code made of smaller pieces.
-/

namespace TypedRoutes.Emission

open Syntax Code

/-- A name stands among tokens as an identifier, at any depth. -/
def Mentions (name : String) (ts : List Token) : Prop :=
  Lexeme.leaf (.ident name) ∈ Token.flatten ts

section Mentions

variable {name : String}

theorem flatten_append (ts us : List Token) :
    Token.flatten (ts ++ us) = Token.flatten ts ++ Token.flatten us := by
  induction ts with
  | nil => simp [Token.flatten]
  | cons t ts ih => simp [Token.flatten, ih]

@[simp] theorem mentions_nil : ¬Mentions name [] := by
  simp [Mentions, Token.flatten]

@[simp] theorem mentions_append {ts us : List Token} :
    Mentions name (ts ++ us) ↔ Mentions name ts ∨ Mentions name us := by
  simp [Mentions, flatten_append]

@[simp] theorem mentions_word {text : String} : Mentions name (word text) ↔ name = text := by
  simp [Mentions, word, Tokens.word, Token.flatten, Token.lexemes]

@[simp] theorem mentions_str {text : String} : ¬Mentions name (str text) := by
  simp [Mentions, str, Token.flatten, Token.lexemes]

@[simp] theorem mentions_op {text : String} : ¬Mentions name (op text) := by
  have hpuncts : ∀ cs, ¬Mentions name (Tokens.operatorTokens cs) := by
    intro cs
    fun_induction Tokens.operatorTokens cs with
    | case1 => exact mentions_nil
    | case2 c => simp [Mentions, Token.flatten, Token.lexemes]
    | case3 c rest _ ih =>
      have h : Token.flatten (.punct c true :: Tokens.operatorTokens rest) =
          .leaf (.punct c true) :: Token.flatten (Tokens.operatorTokens rest) := rfl
      rw [Mentions, h, List.mem_cons]
      rintro (h | h)
      · cases h
      · exact ih h
  exact hpuncts text.toList

theorem mentions_group {d : Delim} {inner : List Token} :
    Mentions name [.group d inner] ↔ Mentions name inner := by
  simp [Mentions, Token.flatten, Token.lexemes]

@[simp] theorem mentions_parens {inner : Code} : Mentions name (parens inner) ↔ Mentions name inner :=
  mentions_group

@[simp] theorem mentions_braces {inner : Code} : Mentions name (braces inner) ↔ Mentions name inner :=
  mentions_group

@[simp] theorem mentions_commaSeparated {items : List Code} :
    Mentions name (Tokens.commaSeparated items) ↔ ∃ item ∈ items, Mentions name item := by
  unfold Tokens.commaSeparated
  induction items with
  | nil => simp
  | cons item items ih =>
    cases items with
    | nil => simp
    | cons next items =>
      have hcomma : ¬Mentions name (Tokens.op ",") := mentions_op
      rw [List.intercalate_cons_cons, mentions_append, mentions_append, ih]
      simp [hcomma]

@[simp] theorem mentions_tuple {items : List Code} :
    Mentions name (tuple items) ↔ ∃ item ∈ items, Mentions name item :=
  mentions_group.trans mentions_commaSeparated

@[simp] theorem mentions_flatten {cs : List Code} :
    Mentions name cs.flatten ↔ ∃ c ∈ cs, Mentions name c := by
  induction cs with
  | nil => simp
  | cons c cs ih => simp [ih]

@[simp] theorem mentions_refer {value : Code} : Mentions name (refer value) ↔ Mentions name value := by
  simp [refer]

@[simp] theorem mentions_propagate {value : Code} :
    Mentions name (propagate value) ↔ Mentions name value := by
  simp [propagate]

@[simp] theorem mentions_closure {parameter body : Code} :
    Mentions name (closure parameter body) ↔ Mentions name parameter ∨ Mentions name body := by
  simp [Code.closure]

@[simp] theorem mentions_call {callee : Code} {args : List Code} :
    Mentions name (call callee args) ↔ Mentions name callee ∨ ∃ arg ∈ args, Mentions name arg := by
  simp [call]

@[simp] theorem mentions_method {receiver : Code} {m : String} {args : List Code} :
    Mentions name (method receiver m args) ↔
      Mentions name receiver ∨ name = m ∨ ∃ arg ∈ args, Mentions name arg := by
  simp [method]

@[simp] theorem mentions_bind {place value : Code} :
    Mentions name (Code.bind place value) ↔
      name = "let" ∨ Mentions name place ∨ Mentions name value := by
  simp [Code.bind]

theorem mentions_publicFunction {function output body : Code} {inputs : List Code}
    (h : Mentions name body) : Mentions name (publicFunction function inputs output body) := by
  simp [publicFunction, Code.function, h]

end Mentions

/-! ## Tokens of lexemes -/

/-- The lexemes that have been read when `done` are the tokens in the innermost open group and `outer`
the groups around it, last first. -/
def readLexemes (outer : List (Delim × List Token)) (done : List Token) : List Lexeme :=
  match outer with
  | [] => Token.flatten done.reverse
  | (d, before) :: outer => readLexemes outer before ++ .opening d :: Token.flatten done.reverse

theorem readLexemes_cons (outer : List (Delim × List Token)) (t : Token) (done : List Token) :
    readLexemes outer (t :: done) = readLexemes outer done ++ t.lexemes := by
  cases outer <;> simp [readLexemes, flatten_append, Token.flatten]

/-- Grouping keeps the lexemes. -/
theorem flatten_of_nest {ls : List Lexeme} {ts : List Token}
    (hleaves : ∀ d inner, Lexeme.leaf (.group d inner) ∉ ls) (h : Lexeme.nest ls = some ts) :
    Token.flatten ts = ls := by
  have hfrom : ∀ {outer done}, Lexeme.nestFrom done outer ls = some ts →
      Token.flatten ts = readLexemes outer done ++ ls := by
    clear h
    induction ls with
    | nil =>
      intro outer done h
      cases outer with
      | nil =>
        obtain rfl := Option.some.inj h
        simp [readLexemes]
      | cons g outer => cases h
    | cons l ls ih =>
      intro outer done h
      have ih := @ih fun d inner hmem => hleaves d inner (List.mem_cons_of_mem l hmem)
      cases l with
      | leaf t =>
        have hlexemes : t.lexemes = [.leaf t] := by
          cases t with
          | group d inner => exact absurd List.mem_cons_self (hleaves d inner)
          | _ => rfl
        rw [ih h, readLexemes_cons, hlexemes, List.append_assoc]
        rfl
      | opening d =>
        rw [ih h, readLexemes]
        simp [Token.flatten]
      | closing d =>
        cases outer with
        | nil => cases h
        | cons g outer =>
          obtain ⟨d', before⟩ := g
          rw [Lexeme.nestFrom] at h
          split at h
          · next heq =>
            subst heq
            rw [ih h, readLexemes_cons, readLexemes, Token.lexemes]
            simp
          · cases h
  exact hfrom h

end TypedRoutes.Emission
