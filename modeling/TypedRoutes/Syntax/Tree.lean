import TypedRoutes.Syntax.Token

/-!
# Syntax trees of emitted code

* `Attr`, `Invocation` : attributes and calls of code templates;
* `Ty`, `Path`, `GenericArg`, `Bound`, `GenericParam` : types, what they consist of and what
  introduces them;
* `Pat`, `FieldPat` : patterns;
* `Expr`, `Arm`, `FieldValue`, `Stmt` : expressions and statements;
* `Item` : items, with `Signature`, `Predicate`, `Fields`, `Variant` and `UseTree`.

Names, lifetimes and literals keep their written form. An expression inside a type, a pattern or an
attribute is kept as its tokens, and so is an item inside a block; they have been read once, so that
they can be read again. `unwritable` forms are read but have no layout.
-/

namespace TypedRoutes.Syntax

/-! ## Attributes and invocations -/

/-- A path of bare names. -/
structure PlainPath where
  leading : Bool
  names : List String
  deriving Inhabited

/-- What stands behind the path of an attribute. -/
inductive AttrContent
  | bare
  | group (d : Delim) (inner : List Token)
  | value (expr : List Token)
  deriving Inhabited

/-- An attribute, inner or outer. -/
structure Attr where
  isInner : Bool
  path : PlainPath
  content : AttrContent
  deriving Inhabited

/-- The call of a code template: its path, its delimiters and the tokens between them. -/
structure Invocation where
  path : PlainPath
  delim : Delim
  tokens : List Token
  deriving Inhabited

/-- The convention of a foreign function, perhaps by name. -/
structure Abi where
  name : Option String
  deriving Inhabited

/-! ## Types -/

/-- The open end of a function pointer's inputs. An empty name stands for none. -/
structure OpenInput where
  attrs : List Attr
  name : String
  deriving Inhabited

mutual

inductive Ty
  | path (p : Path)
  | reference (lifetime : Option String) (isMut : Bool) (target : Ty)
  | pointer (isMut : Bool) (target : Ty)
  | slice (item : Ty)
  | array (item : Ty) (length : List Token)
  | tuple (items : List Ty)
  | paren (inner : Ty)
  | function (binder : Option (List GenericParam)) (isUnsafe : Bool) (abi : Option Abi)
      (inputs : List PointerInput) (rest : Option OpenInput) (output : Option Ty)
  | never
  | infer
  | existential (bounds : List Bound)
  | object (bounds : List Bound)
  | invocation (call : Invocation)
  | unwritable (tokens : List Token)

/-- An input of a function pointer. An empty name stands for none. -/
inductive PointerInput
  | mk (attrs : List Attr) (name : String) (ty : Ty)

/-- A path. A qualified one has a type in front; the first `position` segments name its trait. -/
inductive Path
  | mk (qself : Option Ty) (position : Nat) (leading : Bool) (segments : List Segment)

/-- One name of a path with its generic arguments, in angle brackets or like a function's. -/
inductive Segment
  | plain (name : String)
  | angle (name : String) (args : List GenericArg)
  | paren (name : String) (inputs : List Ty) (output : Option Ty)

inductive GenericArg
  | lifetime (name : String)
  | type (ty : Ty)
  | value (expr : List Token)
  | assocType (name : String) (generics : List GenericArg) (ty : Ty)
  | assocValue (name : String) (generics : List GenericArg) (expr : List Token)
  | bounded (name : String) (generics : List GenericArg) (bounds : List Bound)

inductive Bound
  | lifetime (name : String)
  | trait (parenthesized relaxed : Bool) (binder : Option (List GenericParam)) (p : Path)
  | capture (names : List String)
  | unwritable (tokens : List Token)

/-- A parameter of something generic. A value without default has an empty one. -/
inductive GenericParam
  | lifetime (attrs : List Attr) (name : String) (bounds : List String)
  | type (attrs : List Attr) (name : String) (bounds : List Bound) (fallback : Option Ty)
  | value (attrs : List Attr) (name : String) (ty : Ty) (fallback : List Token)

end

/-- The generic parameters that a bound, a function pointer or a closure binds. -/
abbrev Binder := Option (List GenericParam)

instance : Inhabited Ty := ⟨.infer⟩
instance : Inhabited Path := ⟨.mk none 0 false []⟩
instance : Inhabited Bound := ⟨.lifetime ""⟩

/-! ## Patterns -/

mutual

inductive Pat
  | wild
  | rest
  | ident (isRef isMut : Bool) (name : String) (sub : Option Pat)
  | literal (negative : Bool) (text : String)
  | path (p : Path)
  | constBlock (expr : List Token)
  | invocation (call : Invocation)
  | range (start : Option Pat) (closed : Bool) (stop : Option Pat)
  | tuple (items : List Pat) (trailingComma : Bool)
  | tupleRecord (p : Path) (items : List Pat)
  /-- A record. Two dots behind its fields may carry attributes. -/
  | record (p : Path) (fields : List FieldPat) (rest : Option (List Attr))
  | reference (isMut : Bool) (inner : Pat)
  | slice (items : List Pat)
  | alternatives (cases : List Pat)
  | paren (inner : Pat)
  | typed (inner : Pat) (ty : Ty)
  | attributed (attrs : List Attr) (inner : Pat)
  | unwritable

/-- A field of a record pattern; without a member name the pattern binds the field itself. -/
inductive FieldPat
  | mk (attrs : List Attr) (member : Option String) (pat : Pat)

end

instance : Inhabited Pat := ⟨.wild⟩

/-! ## Expressions -/

mutual

inductive Expr
  | literal (text : String)
  | path (p : Path)
  | invocation (call : Invocation)
  | array (items : List Expr)
  | repeated (item length : Expr)
  | tuple (items : List Expr)
  | paren (inner : Expr)
  /-- A record, perhaps with a base behind its fields. -/
  | record (p : Path) (fields : List FieldValue) (base : Option Expr)
  | call (callee : Expr) (args : List Expr)
  | methodCall (receiver : Expr) (method : String) (turbofish : Option (List GenericArg))
      (args : List Expr)
  | field (base : Expr) (member : String)
  | index (base position : Expr)
  | propagate (base : Expr)
  | await (base : Expr)
  | unary (op : Char) (operand : Expr)
  | reference (isMut : Bool) (operand : Expr)
  | address (isMut : Bool) (operand : Expr)
  | binary (left : Expr) (op : String) (right : Expr)
  | assign (left right : Expr)
  | cast (operand : Expr) (ty : Ty)
  | range (start : Option Expr) (closed : Bool) (stop : Option Expr)
  | block (label : Option String) (body : List Stmt)
  /-- A block behind the words `unsafe`, `const`, `try` or `async`. -/
  | keywordBlock (keywords : List String) (body : List Stmt)
  | cond (test : Expr) (thenBody : List Stmt) (elseBranch : Option Expr)
  | whileLoop (label : Option String) (test : Expr) (body : List Stmt)
  | endless (label : Option String) (body : List Stmt)
  | forLoop (label : Option String) (pat : Pat) (source : Expr) (body : List Stmt)
  | select (scrutinee : Expr) (innerAttrs : List Attr) (arms : List Arm)
  | closure (binder : Binder) (qualifiers : List String) (inputs : List Pat)
      (output : Option Ty) (body : Expr)
  | bind (pat : Pat) (value : Expr)
  /-- One of the words that leave a block, a loop or a function. -/
  | jump (keyword : String) (label : Option String) (operand : Option Expr)
  | infer
  | attributed (attrs : List Attr) (e : Expr)
  | unwritable (tokens : List Token)

/-- A field of a record; without a value it takes the variable of its name. -/
inductive FieldValue
  | mk (attrs : List Attr) (member : String) (value : Option Expr)

inductive Arm
  | mk (attrs : List Attr) (pat : Pat) (guard : Option Expr) (body : Expr)

inductive Stmt
  | bind (attrs : List Attr) (pat : Pat) (value : Option Expr) (otherwise : List Stmt)
      (hasOtherwise : Bool)
  | item (tokens : List Token)
  | expr (e : Expr) (semi : Bool)
  | invocation (attrs : List Attr) (call : Invocation) (semi : Bool)
  | empty
  | innerAttr (attr : Attr)

end

instance : Inhabited Expr := ⟨.infer⟩
instance : Inhabited Stmt := ⟨.empty⟩

/-! ## Parts of items -/

inductive Visibility
  | inherited
  | exported
  | within (path : PlainPath)
  deriving Inhabited

/-- A condition on what is generic. -/
inductive Predicate
  | lifetime (name : String) (bounds : List String)
  | type (binder : Binder) (ty : Ty) (bounds : List Bound)

inductive FnInput
  | receiver (attrs : List Attr) (isRef : Bool) (lifetime : Option String) (isMut : Bool)
      (ty : Option Ty)
  | typed (attrs : List Attr) (pat : Pat) (ty : Ty)
  /-- The open end of the inputs. -/
  | rest (attrs : List Attr) (pat : Option Pat)

/-- Everything of a function in front of its body. -/
structure Signature where
  isConst : Bool
  isAsync : Bool
  isUnsafe : Bool
  abi : Option Abi
  name : String
  generics : List GenericParam
  inputs : List FnInput
  output : Option Ty
  conditions : List Predicate

/-- A field; one without name stands in parentheses. -/
structure Field where
  attrs : List Attr
  visibility : Visibility
  name : Option String
  ty : Ty

inductive Fields
  | none
  | named (fields : List Field)
  | unnamed (fields : List Field)

structure Variant where
  attrs : List Attr
  name : String
  fields : Fields
  value : Option Expr

inductive UseTree
  | path (name : String) (tree : UseTree)
  | name (name : String)
  | rename (name newName : String)
  | glob
  | group (trees : List UseTree)

instance : Inhabited UseTree := ⟨.glob⟩

/-! ## Items -/

/-- An item, also as a member of another one. -/
inductive Item
  /-- A function, or the declaration of one when it has no body. -/
  | function (attrs : List Attr) (visibility : Visibility) (isDefault : Bool)
      (signature : Signature) (body : Option (List Stmt))
  | constant (attrs : List Attr) (visibility : Visibility) (isDefault : Bool) (name : String)
      (ty : Ty) (value : Option Expr)
  | static (attrs : List Attr) (visibility : Visibility) (isMut : Bool) (name : String) (ty : Ty)
      (value : Option Expr)
  | typeAlias (attrs : List Attr) (visibility : Visibility) (name : String)
      (generics : List GenericParam) (conditions : List Predicate) (ty : Ty)
  /-- A type that belongs to a trait or to an implementation of one. -/
  | memberType (attrs : List Attr) (visibility : Visibility) (isDefault : Bool) (name : String)
      (generics : List GenericParam) (bounds : List Bound) (ty : Option Ty)
      (conditions : List Predicate)
  /-- A type of foreign code. -/
  | foreignType (attrs : List Attr) (visibility : Visibility) (name : String)
      (generics : List GenericParam)
  /-- A structure or union, by its word. -/
  | record (attrs : List Attr) (visibility : Visibility) (keyword name : String)
      (generics : List GenericParam) (conditions : List Predicate) (fields : Fields)
  | enumeration (attrs : List Attr) (visibility : Visibility) (name : String)
      (generics : List GenericParam) (conditions : List Predicate) (variants : List Variant)
  | implementation (attrs : List Attr) (qualifiers : List String) (generics : List GenericParam)
      (negative : Bool) (behaviour : Option Path) (self : Ty) (conditions : List Predicate)
      (items : List Item)
  | trait (attrs : List Attr) (visibility : Visibility) (qualifiers : List String) (name : String)
      (generics : List GenericParam) (supertraits : List Bound) (conditions : List Predicate)
      (items : List Item)
  | traitAlias (attrs : List Attr) (visibility : Visibility) (name : String)
      (generics : List GenericParam) (bounds : List Bound) (conditions : List Predicate)
  | module (attrs : List Attr) (visibility : Visibility) (isUnsafe : Bool) (name : String)
      (items : List Item) (hasBody : Bool)
  | foreign (attrs : List Attr) (isUnsafe : Bool) (abi : Abi) (items : List Item)
  | library (attrs : List Attr) (visibility : Visibility) (name : String) (newName : Option String)
  | use (attrs : List Attr) (visibility : Visibility) (leading : Bool) (tree : UseTree)
  | invocation (attrs : List Attr) (call : Invocation)
  /-- The definition of a template, or a call that is given a name. -/
  | template (attrs : List Attr) (name : String) (call : Invocation)
  | innerAttr (attr : Attr)
  | unwritable

instance : Inhabited Item := ⟨.unwritable⟩

end TypedRoutes.Syntax
