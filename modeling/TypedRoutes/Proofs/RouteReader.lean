import Mathlib.Data.List.Basic
import TypedRoutes.Emission.Getter
import TypedRoutes.Proofs.Quoted
import TypedRoutes.Proofs.Reading

/-!
# Reading expressions that build routes

* `Built` : the route that an expression builds at run time;
* `readFrom` : the routes that a list of expressions builds, read token by token;
* `Builder.built` : the route that a builder stands for;
* `readFrom_code`, `readFrom_routeCodes` : the code of a builder is read as what the builder stands for.
-/

namespace TypedRoutes

namespace Syntax

mutual

/-- Whether two tokens are equal. -/
def Token.decEq : (a b : Token) → Decidable (a = b)
  | .ident a, b => match b with
    | .ident b => decidable_of_iff (a = b) (by simp)
    | .lifetime _ | .literal _ | .punct _ _ | .group _ _ => isFalse nofun
  | .lifetime a, b => match b with
    | .lifetime b => decidable_of_iff (a = b) (by simp)
    | .ident _ | .literal _ | .punct _ _ | .group _ _ => isFalse nofun
  | .literal a, b => match b with
    | .literal b => decidable_of_iff (a = b) (by simp)
    | .ident _ | .lifetime _ | .punct _ _ | .group _ _ => isFalse nofun
  | .punct c joint, b => match b with
    | .punct c' joint' => decidable_of_iff (c = c' ∧ joint = joint') (by simp)
    | .ident _ | .lifetime _ | .literal _ | .group _ _ => isFalse nofun
  | .group d inner, b => match b with
    | .group d' inner' =>
      have := Token.decEqAll inner inner'
      decidable_of_iff (d = d' ∧ inner = inner') (by simp)
    | .ident _ | .lifetime _ | .literal _ | .punct _ _ => isFalse nofun

def Token.decEqAll : (as bs : List Token) → Decidable (as = bs)
  | [], [] => isTrue rfl
  | [], _ :: _ | _ :: _, [] => isFalse nofun
  | a :: as, b :: bs =>
    have := Token.decEq a b
    have := Token.decEqAll as bs
    decidable_of_iff (a = b ∧ as = bs) (by simp)

end

instance : DecidableEq Token := Token.decEq

end Syntax

namespace Emission

open Syntax Code

/-! ## Routes -/

/-- A route as an expression builds it. Its factory and the keys of navigators are code. -/
inductive Built
  | go (path : String) (factory : Code) (name? : Option String) (parentKey? : Option Code)
    (routes : List Built)
  | shell (factory : Code) (key? parentKey? : Option Code) (routes : List Built)

namespace Built

/-- A shell takes no name. -/
def setName (name : String) : Built → Option Built
  | go path factory _ parentKey? routes => some (go path factory (some name) parentKey? routes)
  | shell _ _ _ _ => none

/-- Only a shell takes the key of a navigator of its own. -/
def setKey (key : Code) : Built → Option Built
  | go _ _ _ _ _ => none
  | shell factory _ parentKey? routes => some (shell factory (some key) parentKey? routes)

def setParentKey (key : Code) : Built → Built
  | go path factory name? _ routes => go path factory name? (some key) routes
  | shell factory key? _ routes => shell factory key? (some key) routes

def setRoutes (routes : List Built) : Built → Built
  | go path factory name? parentKey? _ => go path factory name? parentKey? routes
  | shell factory key? parentKey? _ => shell factory key? parentKey? routes

/-- What a call makes of a route, but for the calls that take routes or end the expression. -/
def call (route : Built) (method : String) (args : List Token) : Option Built :=
  if method = "name" then
    match args with
    | [.literal text] => (Literal.textValue? text).bind fun name => route.setName name
    | _ => none
  else if method = "navigator_key" then route.setKey args
  else if method = "parent_navigator_key" then some (route.setParentKey args)
  else none

theorem call_name (route : Built) (name : String) : route.call "name" (str name) = route.setName name := by
  unfold call str
  rw [if_pos rfl]
  dsimp only
  rw [Literal.textValue?_encode]
  rfl

end Built

/-! ## The reader -/

/-- The route that a call of a constructor makes, if `callee` is one of the two. -/
def constructed? (tg : Target) (callee : Code) : Token → Option Built
  | .group .paren args =>
    if callee = tg.name ["GoRoute", "new"] then
      match args with
      | .literal text :: .punct ',' _ :: factory =>
        (Literal.textValue? text).map fun path => .go path factory none none []
      | _ => none
    else if callee = tg.name ["ShellRoute", "new"] then some (.shell args none none [])
    else none
  | _ => none

theorem constructed?_go (tg : Target) (route : String) (factory : Code) :
    constructed? tg (tg.name ["GoRoute", "new"])
        (.group .paren (str route ++ .punct ',' false :: factory)) =
      some (.go route factory none none []) := by
  unfold constructed? str
  dsimp only [List.singleton_append]
  rw [if_pos rfl]
  exact congrArg (Option.map _) (Literal.textValue?_encode route)

theorem constructed?_shell (tg : Target) (factory : Code) :
    constructed? tg (tg.name ["ShellRoute", "new"]) (.group .paren factory) =
      some (.shell factory none none []) := by
  have hne : tg.name ["ShellRoute", "new"] ≠ tg.name ["GoRoute", "new"] := by
    simp [Target.name, member, word, Tokens.word]
  unfold constructed?
  dsimp only
  rw [if_neg hne, if_pos rfl]

/-- The items of a vector. -/
def vecItems? (args : List Token) : Option (List Token) :=
  match args.getLast? with
  | some (.group .bracket items) =>
    if args = invoke (path ["std", "vec"]) (Tokens.brackets items) then some items else none
  | _ => none

/-- Where the reader is in an expression. -/
inductive Stage
  /-- Before the call of a constructor, of whose name some tokens have been read. -/
  | callee (read : Code)
  /-- Behind the constructor or a call. -/
  | calls (route : Built)
  /-- Behind the call that ends an expression. -/
  | behind

theorem countAll_vecItems {args items : List Token} (h : vecItems? args = some items) :
    Token.countAll items < Token.countAll args := by
  unfold vecItems? at h
  split at h
  · split at h
    · next hargs =>
      cases h
      rw [hargs, invoke, countAll_append, Tokens.brackets]
      simp only [Token.countAll, Token.count]
      omega
    · cases h
  · cases h

/-- The routes that expressions with commas between them build. `done` holds those read so far, last
first. -/
def readFrom (tg : Target) (done : List Built) (stage : Stage) (ts : List Token) :
    Option (List Built) :=
  match stage, ts with
  | .callee [], [] => some done.reverse
  | .callee read, t :: rest =>
    match constructed? tg read t with
    | some route => readFrom tg done (.calls route) rest
    | none => readFrom tg done (.callee (read ++ [t])) rest
  | .calls route, .punct '.' _ :: .ident method :: .group .paren args :: rest =>
    if method = "into" then
      if args.isEmpty then readFrom tg (route :: done) .behind rest else none
    else if method = "routes" then
      match h : vecItems? args with
      | some items => do
        have := countAll_vecItems h
        readFrom tg done (.calls (route.setRoutes (← readFrom tg [] (.callee []) items))) rest
      | none => none
    else do readFrom tg done (.calls (← route.call method args)) rest
  | .behind, [] => some done.reverse
  | .behind, .punct ',' _ :: rest => readFrom tg done (.callee []) rest
  | _, _ => none
  termination_by Token.countAll ts
  decreasing_by
    all_goals simp only [Token.countAll, Token.count] at *
    all_goals first | omega | exact Nat.lt_add_of_pos_left (count_pos t)

section Reader

variable {tg : Target}

theorem length_name (names : List String) :
    (tg.name names).length = tg.runtime.length + 3 * names.length := by
  have hfold : ∀ start : Code, (names.foldl member start).length = start.length + 3 * names.length := by
    intro start
    induction names generalizing start with
    | nil => rfl
    | cons n names ih =>
      rw [List.foldl_cons, ih]
      have hmember : (member start n).length = start.length + 3 := by
        unfold member
        rw [List.length_append, List.length_append]
        rfl
      rw [hmember, List.length_cons]
      omega
  exact hfold tg.runtime

/-- No constructor is called before its whole name is read. -/
theorem constructed?_eq_none {callee : Code} (h : callee.length < tg.runtime.length + 6) (t : Token) :
    constructed? tg callee t = none := by
  have hne : ∀ n, callee ≠ tg.name [n, "new"] := by
    intro n heq
    have hlength : callee.length = tg.runtime.length + 3 * [n, "new"].length := by
      rw [heq, length_name]
    simp only [List.length_cons, List.length_nil] at hlength
    omega
  unfold constructed?
  split
  · rw [if_neg (hne "GoRoute"), if_neg (hne "ShellRoute")]
  · rfl

theorem readFrom_callee {done : List Built} {read ts : Code}
    (h : read.length + ts.length ≤ tg.runtime.length + 6) (rest : List Token) :
    readFrom tg done (.callee read) (ts ++ rest) = readFrom tg done (.callee (read ++ ts)) rest := by
  induction ts generalizing read with
  | nil => rw [List.nil_append, List.append_nil]
  | cons t ts ih =>
    rw [List.length_cons] at h
    rw [List.cons_append, readFrom, constructed?_eq_none (by omega)]
    dsimp only
    rw [ih (by rw [List.length_append, List.length_singleton]; omega), List.append_assoc,
      List.singleton_append]

/-- The name of a constructor is read as such, and so is its call. -/
theorem readFrom_constructor {done : List Built} {n : String} {args : List Token} {route : Built}
    (h : constructed? tg (tg.name [n, "new"]) (.group .paren args) = some route) (rest : List Token) :
    readFrom tg done (.callee []) (tg.name [n, "new"] ++ .group .paren args :: rest) =
      readFrom tg done (.calls route) rest := by
  rw [readFrom_callee (by rw [length_name]; exact Nat.le_of_eq (Nat.zero_add _)), List.nil_append,
    readFrom, h]

theorem method_append (receiver : Code) (name : String) (args : List Code) (rest : List Token) :
    method receiver name args ++ rest =
      receiver ++ .punct '.' false :: .ident name ::
        .group .paren (Tokens.commaSeparated args) :: rest := by
  unfold method call tuple Tokens.parens
  rw [List.append_assoc, List.append_assoc, List.append_assoc]
  rfl

theorem readFrom_call {done : List Built} {route route' : Built} {name : String} {args : List Token}
    (hinto : name ≠ "into") (hroutes : name ≠ "routes") (h : route.call name args = some route')
    (rest : List Token) :
    readFrom tg done (.calls route) (.punct '.' false :: .ident name :: .group .paren args :: rest) =
      readFrom tg done (.calls route') rest := by
  rw [readFrom, if_neg hinto, if_neg hroutes, h]
  rfl

theorem readFrom_into (done : List Built) (route : Built) (rest : List Token) :
    readFrom tg done (.calls route) (.punct '.' false :: .ident "into" :: .group .paren [] :: rest) =
      readFrom tg (route :: done) .behind rest := by
  rw [readFrom, if_pos rfl, if_pos List.isEmpty_nil]

theorem vecItems?_invoke (items : List Token) :
    vecItems? (invoke (path ["std", "vec"]) (Tokens.brackets items)) = some items := by
  have hlast : (invoke (path ["std", "vec"]) (Tokens.brackets items)).getLast? =
      some (.group .bracket items) := by
    unfold invoke Tokens.brackets
    rw [List.getLast?_concat]
  unfold vecItems?
  rw [hlast]
  dsimp only
  rw [if_pos rfl]

theorem readFrom_routes {done : List Built} {route : Built} {items : List Token} {routes : List Built}
    (h : readFrom tg [] (.callee []) items = some routes) (rest : List Token) :
    readFrom tg done (.calls route) (.punct '.' false :: .ident "routes" ::
        .group .paren (invoke (path ["std", "vec"]) (Tokens.brackets items)) :: rest) =
      readFrom tg done (.calls (route.setRoutes routes)) rest := by
  rw [readFrom, if_neg (by decide), if_pos rfl]
  split
  · next items' hitems =>
    obtain rfl := Option.some.inj ((vecItems?_invoke items).symm.trans hitems)
    rw [h]
    rfl
  · next hnone =>
    rw [vecItems?_invoke] at hnone
    cases hnone

end Reader

/-! ## Builders -/

namespace Builder

mutual

/-- The route that a builder stands for. -/
def built : Builder → Option Built
  | go path type => some (.go path (member type decodeName) none none [])
  | shell type => some (.shell (member type decodeName) none none [])
  | name route n => (built route).bind (·.setName n)
  | navigatorKey route key => (built route).bind (·.setKey key)
  | parentNavigatorKey route key => (built route).map (·.setParentKey key)
  | routes route children => do return (← built route).setRoutes (← builtAll children)

def builtAll : List Builder → Option (List Built)
  | [] => some []
  | b :: rest => do return (← built b) :: (← builtAll rest)

end

end Builder

section Code

variable {tg : Target}

/-- A call with one argument behind an expression that is read as a route. -/
theorem readFrom_method {receiver arg : Code} {name : String} {route route' : Built}
    {done : List Built} (hinto : name ≠ "into") (hroutes : name ≠ "routes")
    (h : route.call name arg = some route') {rest : List Token}
    (hreceiver : ∀ rest, readFrom tg done (.callee []) (receiver ++ rest) =
      readFrom tg done (.calls route) rest) :
    readFrom tg done (.callee []) (method receiver name [arg] ++ rest) =
      readFrom tg done (.calls route') rest := by
  rw [method_append, commaSeparated_singleton, hreceiver, readFrom_call hinto hroutes h]

mutual

/-- The code of a builder is read as the route that the builder stands for. -/
theorem readFrom_code : ∀ (b : Builder) {route : Built}, b.built = some route →
    ∀ (done : List Built) (rest : List Token),
      readFrom tg done (.callee []) (b.code tg ++ rest) = readFrom tg done (.calls route) rest
  | .go path type, route, h, done, rest => by
    obtain rfl := Option.some.inj h
    rw [Builder.code, call, List.append_assoc]
    refine readFrom_constructor ?_ rest
    rw [commaSeparated_cons_cons, commaSeparated_singleton, constructed?_go]
  | .shell type, route, h, done, rest => by
    obtain rfl := Option.some.inj h
    rw [Builder.code, call, List.append_assoc]
    refine readFrom_constructor ?_ rest
    rw [commaSeparated_singleton, constructed?_shell]
  | .name b n, route, h, done, rest => by
    obtain ⟨inner, hinner, hset⟩ := Option.bind_eq_some_iff.1 h
    have hcall : inner.call "name" (str n) = some route := (inner.call_name n).trans hset
    exact readFrom_method (by decide) (by decide) hcall (readFrom_code b hinner done)
  | .navigatorKey b key, route, h, done, rest => by
    obtain ⟨inner, hinner, hset⟩ := Option.bind_eq_some_iff.1 h
    have hcall : inner.call "navigator_key" key = some route := hset
    exact readFrom_method (by decide) (by decide) hcall (readFrom_code b hinner done)
  | .parentNavigatorKey b key, route, h, done, rest => by
    obtain ⟨inner, hinner, hset⟩ := Option.map_eq_some_iff.1 h
    have hcall : inner.call "parent_navigator_key" key = some route := congrArg some hset
    exact readFrom_method (by decide) (by decide) hcall (readFrom_code b hinner done)
  | .routes b children, route, h, done, rest => by
    obtain ⟨inner, hinner, h⟩ := Option.bind_eq_some_iff.1 h
    obtain ⟨routes, hroutes, h⟩ := Option.bind_eq_some_iff.1 h
    obtain rfl := Option.some.inj h
    have hitems := readFrom_routeCodes children hroutes []
    rw [Builder.code, method_append, commaSeparated_singleton, readFrom_code b hinner]
    exact readFrom_routes hitems rest

/-- The code of builders, with commas between them, is read as the routes that they stand for. -/
theorem readFrom_routeCodes : ∀ (bs : List Builder) {routes : List Built},
    Builder.builtAll bs = some routes → ∀ done : List Built,
      readFrom tg done (.callee []) (Tokens.commaSeparated (Builder.routeCodes tg bs)) =
        some (done.reverse ++ routes)
  | [], routes, h, done => by
    obtain rfl := Option.some.inj h
    rw [List.append_nil]
    exact readFrom.eq_def ..
  | b :: bs, routes, h, done => by
    obtain ⟨route, hroute, h⟩ := Option.bind_eq_some_iff.1 h
    obtain ⟨others, hothers, h⟩ := Option.bind_eq_some_iff.1 h
    obtain rfl := Option.some.inj h
    have hhead : ∀ rest, readFrom tg done (.callee []) (method (b.code tg) "into" [] ++ rest) =
        readFrom tg (route :: done) .behind rest := by
      intro rest
      rw [method_append, readFrom_code b hroute]
      exact readFrom_into done route rest
    rw [Builder.routeCodes]
    cases bs with
    | nil =>
      obtain rfl := Option.some.inj hothers
      rw [Builder.routeCodes, commaSeparated_singleton, ← List.append_nil (method _ _ _), hhead,
        readFrom, List.reverse_cons]
    | cons b' bs =>
      have hrest := readFrom_routeCodes (b' :: bs) hothers (route :: done)
      rw [Builder.routeCodes] at hrest ⊢
      rw [commaSeparated_cons_cons, hhead, readFrom, hrest, List.reverse_cons, List.append_assoc,
        List.singleton_append]

end

end Code

end Emission

end TypedRoutes
