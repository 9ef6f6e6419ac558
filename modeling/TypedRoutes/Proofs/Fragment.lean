import TypedRoutes.Emission.Helper
import TypedRoutes.Navigation.Route

/-!
# Emitted code with its meaning

A fragment is a piece of emitted code together with what running it does, as a function of the
variables `Γ` in scope. Every fragment is put together from those of its parts, one definition for
each form of the language that emitted code uses.

* `Term` : an expression with its value; `Action` : one that may leave the function with an error;
* `Step` : statements with the pairs that they add to the query;
* `readerCall` : the value of a key, converted by the shared helper;
* `valuesCall` : the values of a key, each of them converted.
-/

namespace TypedRoutes.Emission

open Syntax Code Navigation

/-- An expression with its value. -/
structure Term (Γ σ : Type) where
  code : Code
  value : Γ → σ

/-- An expression that has a value or leaves the function with an error. -/
structure Action (Γ σ : Type) where
  code : Code
  run : Γ → Except ReadError σ

/-- Statements with the pairs that they add to the query, in order. -/
structure Step (Γ : Type) where
  code : Code
  pairs : Γ → List (String × String)

/-- How the values of a type are written as text and read back. -/
structure Conversion (α : Type) where
  encode : α → String
  decode : String → Option α

variable {Γ α σ τ : Type}

/-! ## Expressions -/

namespace Term

/-- A text literal. -/
def literal (text : String) : Term Γ String where
  code := str text
  value _ := text

/-- A variable. -/
def var (name : String) (value : Γ → σ) : Term Γ σ where
  code := word name
  value := value

/-- A reference has the value it refers to. -/
def borrowed (t : Term Γ σ) : Term Γ σ where
  code := refer t.code
  value := t.value

/-- A text as a borrowed one. -/
def asText (t : Term Γ String) : Term Γ String where
  code := method t.code "as_str" []
  value := t.value

/-- A block that is one expression. -/
def block (t : Term Γ σ) : Term Γ σ where
  code := braces t.code
  value := t.value

/-- The entry of a map. -/
def entry (map : Term Γ (List (String × σ))) (key : Term Γ String) : Term Γ (Option σ) where
  code := method map.code "get" [key.code]
  value g := (map.value g).lookup (key.value g)

/-- What is there, mapped by a closure. -/
def mapPresent (t : Term Γ (Option σ)) (name : String) (body : Term (σ × Γ) τ) :
    Term Γ (Option τ) where
  code := method t.code "map" [closure (word name) body.code]
  value g := (t.value g).map fun s => body.value (s, g)

/-- What is there, marked as such once more. -/
def markPresent (t : Term Γ (Option σ)) : Term Γ (Option (Option σ)) where
  code := method t.code "map" [member option "Some"]
  value g := (t.value g).map some

/-- The items of a list, each mapped by a closure, as the list of results or the first error. -/
def mapEach (t : Term Γ (List σ)) (name : String) (body : Term (σ × Γ) (Except ReadError τ)) :
    Term Γ (Except ReadError (List τ)) where
  code := method (method t.code "iter" []) "map" [closure (word name) body.code] ++
    op "." ++ word "collect" ++ op "::" ++ op "<" ++
    generic result [generic vecType [word "_"], word "_"] ++ op ">" ++ tuple []
  value g := (t.value g).mapM fun s => body.value (s, g)

/-- The error of what is there, if it is one. -/
def transpose (t : Term Γ (Option (Except ReadError σ))) :
    Term Γ (Except ReadError (Option σ)) where
  code := method t.code "transpose" []
  value g :=
    match t.value g with
    | none => .ok none
    | some r => r.map some

/-- What is there, or else an error. -/
def orError (t : Term Γ (Option σ)) (error : Term Γ ReadError) : Term Γ (Except ReadError σ) where
  code := method t.code "ok_or_else" [thunk error.code]
  value g :=
    match t.value g with
    | some s => .ok s
    | none => .error (error.value g)

/-- A selection by whether something is there. -/
def select (t : Term Γ (Option σ)) (absent : Term Γ τ) (name : String) (present : Term (σ × Γ) τ) :
    Term Γ τ where
  code := Helper.choose t.code
    [Helper.arm Code.absent absent.code, Helper.arm (Code.present (word name)) present.code]
  value g :=
    match t.value g with
    | none => absent.value g
    | some s => present.value (s, g)

/-- The error for a key without value. -/
def missing (tg : Target) (key : Term Γ String) : Term Γ ReadError where
  code := tg.missing key.code
  value g := .missing (key.value g)

/-- The error for a value that does not convert. -/
def invalid (tg : Target) (key raw : Term Γ String) : Term Γ ReadError where
  code := tg.invalid key.code raw.code
  value g := .invalid (key.value g) (raw.value g)

/-- A value as text. -/
def encoded (codec : Codec) (c : Conversion α) (t : Term Γ α) : Term Γ String where
  code := codec.encoder t.code
  value g := c.encode (t.value g)

/-- The value of a text. -/
def decoded (codec : Codec) (c : Conversion α) (t : Term Γ String) : Term Γ (Option α) where
  code := call (parens codec.decoder) [t.code]
  value g := c.decode (t.value g)

end Term

/-! ## Expressions that may leave the function -/

namespace Action

/-- Leave the function with the error of a value, if it is one. -/
def ofTerm (t : Term Γ (Except ReadError σ)) : Action Γ σ where
  code := propagate t.code
  run := t.value

/-- What is there, or else the value of a closure. -/
def orElse (a : Action Γ (Option σ)) (t : Term Γ σ) : Action Γ σ where
  code := method a.code "unwrap_or_else" [thunk t.code]
  run g := (a.run g).map fun o => o.getD (t.value g)

/-- The list that is there, or else the empty one. -/
def orEmpty (a : Action Γ (Option (List σ))) : Action Γ (List σ) where
  code := method a.code "unwrap_or_default" []
  run g := (a.run g).map fun o => o.getD []

/-- What is there, or else leave the function with an error. -/
def orLeave (a : Action Γ (Option σ)) (error : Term Γ ReadError) : Action Γ σ where
  code := propagate (method a.code "ok_or_else" [thunk error.code])
  run g :=
    match a.run g with
    | .ok (some s) => .ok s
    | .ok none => .error (error.value g)
    | .error e => .error e

end Action

/-! ## Statements -/

namespace Step

/-- Add a pair to the query. -/
def push (key value : Term Γ String) : Step Γ where
  code := method (word "__query") "push" [tuple [key.code, value.code]] ++ op ";"
  pairs g := [(key.value g, value.value g)]

/-- Run statements for each item of a list. -/
def forEach (name : String) (t : Term Γ (List σ)) (body : Step (σ × Γ)) : Step Γ where
  code := word "for" ++ word name ++ word "in" ++ t.code ++ braces body.code
  pairs g := (t.value g).flatMap fun s => body.pairs (s, g)

/-- Run statements for what is there. -/
def whenPresent (name : String) (t : Term Γ (Option σ)) (body : Step (σ × Γ)) : Step Γ where
  code := word "if" ++ word "let" ++ present (word name) ++ op "=" ++ t.code ++ braces body.code
  pairs g :=
    match t.value g with
    | none => []
    | some s => body.pairs (s, g)

end Step

/-! ## The query of a request -/

section Request

variable (tg : Target)

/-- The body of the shared helper, over its key, its map and its converter. -/
def readerBody : Term (String × List (String × String) × (String → Option α))
    (Except ReadError (Option α)) :=
  let key := Term.var "key" (·.1)
  let converted :
      Term (String × String × List (String × String) × (String → Option α)) (Option α) :=
    ⟨call (word "converter") [word "raw"], fun g => g.2.2.2 g.1⟩
  Term.select (Term.entry (Term.var "map" (·.2.1)) key)
    ⟨success absent, fun _ => .ok none⟩ "raw"
    (Term.orError (Term.markPresent converted)
      (Term.invalid tg (Term.var "key" (·.2.1)) (Term.var "raw" (·.1))))

/-- The shared helper has that body. -/
theorem queryReaderCode_eq :
    Helper.queryReaderCode tg =
      function (generic (word queryReader) [word "T"])
        [typed (word "key") strRef,
          typed (word "map")
            (refer (generic (path ["std", "collections", "HashMap"]) [stringType, stringType])),
          typed (word "converter")
            (word "impl" ++ call (path ["core", "ops", "Fn"]) [strRef] ++ op "->" ++
              generic option [word "T"])]
        (generic result [generic option [word "T"], tg.name ["DecodeError"]])
        (readerBody (α := α) tg).code :=
  rfl

/-- The value of a key, converted by the shared helper. -/
def readerCall (key : String) (codec : Codec) (c : Conversion α) : Action Query (Option α) :=
  .ofTerm
    { code := call (word queryReader)
        [str key, method (word "__state") "query_parameters" [], codec.decoder]
      value := fun q => (readerBody tg).value (key, q.first, c.decode) }

/-- The values of a key, each of them converted. -/
def valuesCall (key : String) (codec : Codec) (c : Conversion α) :
    Action Query (Option (List α)) :=
  let all : Term Query (List (String × List String)) :=
    ⟨method (word "__state") "query_parameters_all" [], Query.all⟩
  let each : Term (String × List String × Query) (Except ReadError α) :=
    Term.orError (Term.decoded codec c (Term.asText (Term.var "__item" (·.1))))
      (Term.invalid tg (.literal key) (Term.var "__item" (·.1)))
  .ofTerm (Term.transpose (Term.mapPresent (Term.entry all (.literal key)) "__items"
    (Term.block (Term.mapEach (Term.var "__items" (·.1)) "__item" (Term.block each)))))

end Request

end TypedRoutes.Emission
