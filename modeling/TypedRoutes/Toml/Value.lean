/-!
# TOML tables

* `Toml` : a text, an array or a table; `TableKind` : how a table came about;
* `Toml.define` : a table with a value under a dotted key;
* `Toml.open?` : a table with a table opened under the path of a header.

A key is defined once. A dotted key makes the tables on its way, and a header those in front of its
last name. What a header opened, or a value in braces defined, cannot be extended by another
definition of its own.
-/

namespace TypedRoutes

/-- How a table came about. -/
inductive TableKind
  /-- By a header. -/
  | opened
  /-- On the way of a longer header. -/
  | implied
  /-- On the way of a dotted key. -/
  | dotted
  /-- By a value in braces. -/
  | closed
  deriving DecidableEq, Repr, Inhabited

inductive Toml
  | text (s : String)
  | array (items : List Toml)
  | table (kind : TableKind) (members : List (String × Toml))
  deriving Repr, Inhabited

namespace Toml

abbrev Members := List (String × Toml)

/-- The members with another value under a key, last if the key is new. -/
def put (k : String) (v : Toml) : Members → Members
  | [] => [(k, v)]
  | (k', v') :: rest => if k' = k then (k, v) :: rest else (k', v') :: put k v rest

/-- The members with a value under a dotted key. -/
def define (v : Toml) : List String → Members → Option Members
  | [], _ => none
  | [k], ms => if (ms.lookup k).isSome then none else some (ms ++ [(k, v)])
  | k :: path, ms =>
    match ms.lookup k with
    | none => (define v path []).map fun inner => ms ++ [(k, table .dotted inner)]
    | some (table kind inner) =>
      if kind = .dotted ∨ kind = .implied then
        (define v path inner).map fun inner => put k (table kind inner) ms
      else none
    | some _ => none

/-- The members with a table opened under the path of a header. -/
def open? : List String → Members → Option Members
  | [], _ => none
  | [k], ms =>
    match ms.lookup k with
    | none => some (ms ++ [(k, table .opened [])])
    | some (table .implied inner) => some (put k (table .opened inner) ms)
    | some _ => none
  | k :: path, ms =>
    match ms.lookup k with
    | none => (open? path []).map fun inner => ms ++ [(k, table .implied inner)]
    | some (table kind inner) =>
      if kind = .closed then none
      else (open? path inner).map fun inner => put k (table kind inner) ms
    | some _ => none

/-- The members with a value under a dotted key in the table of a header. -/
def defineIn (v : Toml) (key : List String) : List String → Members → Option Members
  | [], ms => define v key ms
  | k :: path, ms =>
    match ms.lookup k with
    | some (table kind inner) =>
      (defineIn v key path inner).map fun inner => put k (table kind inner) ms
    | _ => none

end Toml

end TypedRoutes
