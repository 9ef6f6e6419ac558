import TypedRoutes.Proofs.BlockAhead

/-!
# Types in front of a block

* `Grammar.Carries` : the readers of types, bounds and generic parameters carry, on every level of
  the grammar.

A type or path ends in front of a block as it ends where nothing follows. Whether a generic argument
or parameter does depends on the closing bracket behind it.
-/

set_option synthInstance.maxSize 20000

namespace TypedRoutes.Syntax

open Parse

/-- The readers of types and bounds carry. A generic parameter stands in front of more. -/
class Grammar.Carries (g : Grammar) : Prop where
  ty (more plus : Bool) : Parse.Carries more (g.ty plus)
  bound (more : Bool) (rules : BoundRules) : Parse.Carries more (g.bound rules)
  param : Parse.Carries true g.param

attribute [instance] Grammar.Carries.ty Grammar.Carries.bound Grammar.Carries.param

namespace Grammar

variable {more : Bool} {g : Grammar} [Grammar.Carries g]

omit [Grammar.Carries g] in
instance (isInner : Bool) : Parse.Carries more (g.attr isInner) := by
  unfold attr
  dsimp only
  infer_instance

omit [Grammar.Carries g] in
instance (isInner : Bool) : Consumes (g.attr isInner) := by
  unfold attr
  dsimp only
  infer_instance

omit [Grammar.Carries g] in
instance : Parse.Carries more g.outerAttrs := by
  unfold outerAttrs
  infer_instance

omit [Grammar.Carries g] in
instance : Parse.Carries more g.constArg := by
  unfold constArg
  infer_instance

instance : Steady true endsAngle := by
  unfold endsAngle
  infer_instance

instance {c : List Token → Bool} [Steady more c] : Parse.Carries more (g.plainBounds c) := by
  unfold plainBounds
  infer_instance

instance : Parse.Carries true g.readParam := by
  unfold readParam lifetimeBounds
  dsimp only
  infer_instance

instance : Parse.Carries more g.binder? := by
  unfold binder?
  have hparams : Parse.Carries more (do
      let x ← commaUntil (startsOp ">") g.param
      op ">"
      return x.1) :=
    .closed inferInstance inferInstance fun _ => rfl
  infer_instance

instance : Steady true genericArg.startsValue := by
  unfold genericArg.startsValue
  infer_instance

instance : Parse.Carries true g.genericArg := by
  unfold genericArg
  refine @Carries.bind _ _ _ _ _ inferInstance fun _ => ?_
  split
  · infer_instance
  · refine @Carries.bind _ _ _ _ _ inferInstance fun _ => ?_
    split
    · infer_instance
    · refine @Carries.bind _ _ _ _ _ inferInstance fun ty => ?_
      cases ty.assocName? <;> infer_instance

instance : Parse.Carries more g.angleArgs := by
  unfold angleArgs
  have hargs : Parse.Carries more (do
      let x ← commaUntil (startsOp ">") g.genericArg
      op ">"
      return x.1) :=
    .closed inferInstance inferInstance fun _ => rfl
  infer_instance

instance (inExpr : Bool) : Parse.Carries more (g.segment inExpr) := by
  unfold segment
  dsimp only
  infer_instance

instance (inExpr : Bool) : Parse.Carries more (g.barePath inExpr) := by
  unfold barePath
  infer_instance

instance (inExpr : Bool) : Parse.Carries more (g.qualifiedPath inExpr) := by
  unfold qualifiedPath
  refine @Carries.bind _ _ _ _ _ inferInstance fun isQualified => ?_
  split
  · refine @Carries.bind _ _ _ _ _ inferInstance fun self =>
      @Carries.bind _ _ _ _ _ inferInstance fun ofTrait => ?_
    rcases ofTrait with _ | ⟨_, _, _, _⟩ <;> infer_instance
  · infer_instance

instance : Parse.Carries more g.exprPath := by
  unfold exprPath
  infer_instance

instance : Steady more startsCall := by
  unfold startsCall
  infer_instance

instance (p : Path) : Parse.Carries more (callOf? p) := by
  unfold callOf?
  cases p.plain? <;> infer_instance

instance (plus : Bool) : Parse.Carries more (g.output? plus) := by
  unfold output?
  infer_instance

instance : Parse.Carries more g.boundPath := by
  unfold boundPath
  refine @Carries.bind _ _ _ _ _ inferInstance fun p => ?_
  cases p
  refine @Carries.bind _ _ _ _ _ inferInstance fun follows => ?_
  split <;> infer_instance

instance (rules : BoundRules) : Parse.Carries more (g.traitBound rules) := by
  unfold traitBound
  dsimp only
  infer_instance

omit [Grammar.Carries g] in
instance : Parse.Carries more captured := by
  unfold captured
  refine @Carries.bind _ _ _ _ _ inferInstance fun _ =>
    @Carries.bind _ _ _ _ _ inferInstance fun _ => .closed ?_ inferInstance fun _ => rfl
  have hname {p : Parse String} (h : Single p) :
      Parse.Carries true (commaUntil (startsOp ">") p) := inferInstance
  refine hname ⟨rfl, fun t rest => ?_⟩
  cases t with
  | ident t => by_cases ht : isIdentifier t = true ∨ t = "Self" <;> simp [ht]
  | _ => rfl

instance (rules : BoundRules) : Parse.Carries more (g.readBound rules) := by
  unfold readBound
  refine Follows.carries fun inner behind k => .look fun ts hk => ?_
  have hbound (parenthesized : Bool) (bound : Option (Bool × Binder × Path)) :
      Follows more inner behind (ts.length + 1)
        (match bound with
          | some (relaxed, binder, p) => pure (Bound.trait parenthesized relaxed binder p)
          | none => do return .unwritable (ts.take (ts.length - (← remaining))))
        (match bound with
          | some (relaxed, binder, p) => pure (Bound.trait parenthesized relaxed binder p)
          | none => do return .unwritable ((ts ++ Token.group .brace inner :: behind).take
            ((ts ++ Token.group .brace inner :: behind).length - (← remaining)))) := by
    cases bound with
    | some bound => exact .of_carries
    | none => exact .taken _
  simp only [startsLifetime_append, startsWord_append, startsGroup_append (d := .paren) (by decide)]
  refine .ite .of_carries (.ite .of_carries ?_)
  exact .ite (.bind .of_carries fun _ => hbound _ _) (.bind .of_carries fun _ => hbound _ _)

instance (rules : BoundRules) : Steady more (startsBound rules) := by
  unfold startsBound
  infer_instance

instance (rules : BoundRules) (plus : Bool) : Parse.Carries more (g.typeBounds rules plus) := by
  unfold typeBounds
  dsimp only
  infer_instance

instance (plus : Bool) : Parse.Carries more (g.objectBounds plus) := by
  unfold objectBounds
  infer_instance

instance : Parse.Carries more g.furtherBounds := by
  unfold furtherBounds
  infer_instance

instance : Parse.Carries more abi? := by
  unfold abi?
  have : Steady more abi?.startsText :=
    ⟨fun {_ _ ts} _ => by rcases ts with _ | ⟨_ | _ | _ | _ | _, rest⟩ <;> rfl⟩
  infer_instance

instance (binder : Binder) : Parse.Carries more (g.fnType binder) := by
  unfold fnType
  infer_instance

instance (plus : Bool) : Parse.Carries more (g.parenTy plus) := by
  unfold parenTy
  have hlook {c : List Token → Bool} (h : ∀ t rest rest', c (t :: rest) = c (t :: rest')) :
      Steady true c := by
    constructor
    intro inner behind ts hts
    cases ts with
    | nil => exact absurd rfl (hts rfl)
    | cons t rest => exact h t _ _
  refine .opened (hlook fun t _ _ => by cases t <;> rfl) (fun relaxed => ?_)
    (fun relaxed => by cases relaxed <;> rfl)
  split
  · refine @Carries.bind _ _ _ _ _ inferInstance fun bound? => ?_
    cases bound? <;> infer_instance
  · refine .opened (hlook fun t _ _ => by cases t <;> rfl) (fun isWhole => ?_) fun _ => rfl
    refine @Carries.bind _ _ _ _ _ inferInstance fun ty => ?_
    cases ty.asBound? <;> infer_instance

instance (binder : Binder) (plus : Bool) : Parse.Carries more (g.pathTy binder plus) := by
  unfold pathTy
  refine @Carries.bind _ _ _ _ _ inferInstance fun p => ?_
  cases p
  dsimp only
  split
  · infer_instance
  · refine @Carries.bind _ _ _ _ _ inferInstance fun call? => ?_
    cases call? <;> infer_instance

instance (plus : Bool) : Parse.Carries more (g.readTy plus) := by
  unfold readTy
  refine Follows.carries fun inner behind k => .look fun start _ => .bind .of_carries fun binder =>
    .look fun ts hts => ?_
  have hparen : startsGroup .paren (ts ++ .group .brace inner :: behind) = startsGroup .paren ts :=
    startsGroup_append (by decide)
  have hbracket : startsGroup .bracket (ts ++ .group .brace inner :: behind) = startsGroup .bracket ts :=
    startsGroup_append (by decide)
  simp only [startsLifetime_append, startsWord_append, startsIdent_append, startsOp_append, hparen,
    hbracket]
  refine .ite .of_carries <| .ite .of_carries <| .ite .of_carries <| .ite .of_carries <|
    .ite .of_carries <| .bind .of_carries fun isDyn => .ite (.bind .of_carries fun isStar =>
      .bind .of_carries fun bounds => .ite ?_ .of_carries) .of_carries
  exact (Follows.taken Ty.unwritable).mono hts

instance : Grammar.Carries g.next where
  ty more plus := inferInstanceAs (Parse.Carries more (g.readTy plus))
  bound more rules := inferInstanceAs (Parse.Carries more (g.readBound rules))
  param := inferInstanceAs (Parse.Carries true g.readParam)

instance : Grammar.Carries .empty where
  ty _ _ := .fail
  bound _ _ := .fail
  param := .fail

omit [Grammar.Carries g] in
instance (n : Nat) : Grammar.Carries (grammar n) := by
  induction n with
  | zero => exact inferInstanceAs (Grammar.Carries .empty)
  | succ n ih => exact inferInstanceAs (Grammar.Carries (grammar n).next)

end Grammar

end TypedRoutes.Syntax
