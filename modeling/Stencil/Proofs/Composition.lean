import Stencil.Evaluation

/-!
# Relations that evaluations respect

Walking a tree and running code put evaluations together in the same few ways: a result, one
evaluation after another, a checkpoint, and three that reach beyond the tree, namely following a
path, calling a formatter and making a lambda. A relation that each of these respects
holds between whole evaluations that differ in their scopes or in how lambdas are invoked. So what
has to be said about all nodes of a tree and of code is an induction made once
(`Respects.walk`, `Respects.run`).

Between evaluations in one scope less is to be shown: it is enough that the relation is kept by the
steps that evaluations consist of, and by the invocations from that scope (`Elementary.respects`).

Formatters may fail, and go on after a failure of a lambda. The errors that evaluations can come to
are those with a property `E`.
-/

namespace Stencil

/-- A relation between evaluations that is kept when they are put one after the other. -/
structure Compatible (E : EvalError → Prop) (R : (α : Type) → EvalM α → EvalM α → Prop) :
    Prop where
  pure : ∀ {α : Type} (a : α), R α (Pure.pure a) (Pure.pure a)
  bind : ∀ {α β : Type} {x y : EvalM α} {f g : α → EvalM β},
    R α x y → (∀ a, R β (f a) (g a)) → R β (x >>= f) (y >>= g)
  checkpoint : R Unit EvalM.checkpoint EvalM.checkpoint
  throw : ∀ {α : Type} (e : EvalError), E e → R α (MonadExcept.throw e) (MonadExcept.throw e)
  handle : ∀ {α β : Type} {x y : EvalM α} {f g : α → EvalM β} {f' g' : EvalError → EvalM β},
    R α x y → (∀ a, R β (f a) (g a)) → (∀ e, E e → R β (f' e) (g' e)) →
      R β (EvalM.handle x f f') (EvalM.handle y g g')
  cancelled : E .cancelled

/-- The relation is kept by all that evaluations do in one scope and in another. -/
structure Respects (E : EvalError → Prop) (R : (α : Type) → EvalM α → EvalM α → Prop)
    (invoke invoke' : Invoke) (scope scope' : Scope) : Prop extends Compatible E R where
  resolve : ∀ start parts c,
    R Context (EvalM.resolve scope start parts c) (EvalM.resolve scope' start parts c)
  callFormatter : ∀ site name target arguments,
    R Context (EvalM.callFormatter invoke scope site name target arguments)
      (EvalM.callFormatter invoke' scope' site name target arguments)
  makeLambda : ∀ parameters body c,
    R Context (EvalM.makeLambda parameters body c) (EvalM.makeLambda parameters body c)

/-- The relation is kept by each step that an evaluation consists of. -/
structure Elementary (E : EvalError → Prop) (R : (α : Type) → EvalM α → EvalM α → Prop) :
    Prop extends Compatible E R where
  record : ∀ e : Event, R Unit (EvalM.record e) (EvalM.record e)
  cancel : R Unit EvalM.cancel EvalM.cancel
  freshLambda : R Nat EvalM.freshLambda EvalM.freshLambda
  resolveAt : ∀ site registry matching name v arguments, R (Option Resolution)
    (EvalM.resolveAt site registry matching name v arguments)
    (EvalM.resolveAt site registry matching name v arguments)

theorem Compatible.guarded {E : EvalError → Prop} {R : (α : Type) → EvalM α → EvalM α → Prop}
    (h : Compatible E R) {α : Type} {x y : EvalM α} (hxy : R α x y) :
    R α (EvalM.guarded x) (EvalM.guarded y) :=
  h.bind h.checkpoint fun _ => hxy

namespace Elementary

variable {E : EvalError → Prop} {R : (α : Type) → EvalM α → EvalM α → Prop} (h : Elementary E R)

include h

/-- A routine is run alike if the lambdas it asks for are invoked alike. -/
theorem runRoutine {invoke invoke' : Lambda → List Value → EvalM Value}
    (hinvoke : ∀ l arguments, R Value (invoke l arguments) (invoke' l arguments)) {α : Type}
    (x : Routine α) {seen : List EvalError} (hseen : ∀ e ∈ seen, E e) :
    R α (x.run invoke seen) (x.run invoke' seen) := by
  induction x generalizing seen with
  | done a => exact h.pure a
  | fail e =>
    refine h.throw _ ?_
    split
    · next hmem => exact hseen e hmem
    · exact h.cancelled
  | ask l arguments next rescue ih ihrescue =>
    exact h.handle (hinvoke l arguments) (fun v => ih v hseen) fun e he =>
      ihrescue e (List.forall_mem_cons.mpr ⟨he, hseen⟩)
  | cancel next ih => exact h.bind h.cancel fun _ => ih hseen
  | pause next ih => exact h.guarded (ih hseen)

theorem recordAll (events : List Event) :
    R Unit (EvalM.recordAll events) (EvalM.recordAll events) := by
  induction events with
  | nil => exact h.pure ()
  | cons e rest ih => exact h.bind (h.record e) fun _ => ih

theorem cancelIf (b : Bool) : R Unit (EvalM.cancelIf b) (EvalM.cancelIf b) := by
  cases b with
  | true => exact h.cancel
  | false => exact h.pure ()

theorem reach (scope : Scope) (start : PathStart) (parts : Path) (c : Context) :
    R Context (EvalM.reach scope start parts c) (EvalM.reach scope start parts c) := by
  unfold EvalM.reach
  dsimp only
  split
  · exact h.bind (h.record _) fun _ => h.pure _
  · exact h.pure _

theorem resolve (scope : Scope) (start : PathStart) (parts : Path) (c : Context) :
    R Context (EvalM.resolve scope start parts c) (EvalM.resolve scope start parts c) := by
  refine h.bind (h.recordAll _) fun _ => h.bind (h.reach scope start parts c) fun target => ?_
  exact h.bind (h.cancelIf _) fun _ => h.pure target

variable (invoke invoke' : Invoke) {scope : Scope}
  (hinvoke : ∀ l arguments, R Value (invoke scope l arguments) (invoke' scope l arguments))

include hinvoke

theorem execute (r : Resolution) (v : Value) (arguments : List Supplied) :
    R Value (EvalM.execute invoke scope r v arguments)
      (EvalM.execute invoke' scope r v arguments) := by
  unfold EvalM.execute
  refine h.bind (h.record _) fun _ => h.bind (h.cancelIf _) fun _ => ?_
  cases r.signature.action with
  | compute f => exact h.pure _
  | wait f =>
    have hnone : ∀ e ∈ [], E e := by simp
    exact h.guarded (h.runRoutine hinvoke (f _) hnone)

theorem callFormatter (site : Nat) (name : String) (target : Context)
    (arguments : List Supplied) :
    R Context (EvalM.callFormatter invoke scope site name target arguments)
      (EvalM.callFormatter invoke' scope site name target arguments) := by
  unfold EvalM.callFormatter
  refine h.bind (h.resolveAt _ _ _ _ _ _) fun made => ?_
  cases made with
  | some r => exact h.bind (h.execute invoke invoke' hinvoke r _ _) fun _ => h.pure _
  | none => exact h.bind (h.record _) fun _ => h.bind (h.cancelIf _) fun _ => h.pure _

/-- In one scope, invocations and the steps of evaluations are all that matters. -/
theorem respects : Respects E R invoke invoke' scope scope where
  toCompatible := h.toCompatible
  resolve := h.resolve scope
  callFormatter := h.callFormatter invoke invoke' hinvoke
  makeLambda _ _ _ := h.bind h.freshLambda fun _ => h.pure _

end Elementary

namespace Respects

variable {E : EvalError → Prop} {R : (α : Type) → EvalM α → EvalM α → Prop}
  {invoke invoke' : Invoke} {scope scope' : Scope}

mutual

/-- By induction over the tree. -/
theorem walkFrom (h : Respects E R invoke invoke' scope scope') : ∀ (e : Expr) (start : PathStart)
    (c : Context), R Context (e.walkFrom invoke scope start c) (e.walkFrom invoke' scope' start c)
  | .path _ parts, start, c => h.resolve start parts c
  | .call _ site parts name args, start, c => by
    unfold Expr.walkFrom
    split
    · exact h.walkFirst args c.nearestNatural
    · refine h.bind (h.resolve start parts c) fun target => ?_
      refine h.bind (h.walkArguments args c.nearestNatural) fun supplied => ?_
      exact h.callFormatter site name target supplied
  | .string _ _ _, _, _ => h.pure _
  | .number _ _ _, _, _ => h.pure _
  | .list _ .chain items, _, c => h.walkLinks items .scope c
  | .list _ .bracket items, _, c => h.walkLast items c _
  | .list _ .arguments items, _, c => h.bind (h.walkEach items c) fun _ => h.pure _
  | .unary _ site op operand, _, c =>
    h.bind (h.guarded (h.walkFrom operand .scope c)) fun target =>
      h.callFormatter site op.formatterName target []
  | .binary _ site op left right, _, c =>
    h.bind (h.guarded (h.walkFrom left .scope c)) fun target =>
      h.bind (h.guarded (h.walkFrom right .scope c)) fun other =>
        h.callFormatter site op.formatterName target [⟨none, other.value⟩]
  | .lambda _ parameters body, _, c => h.makeLambda parameters.parameterNames (.tree body) c

theorem walkLinks (h : Respects E R invoke invoke' scope scope') : ∀ (items : List Expr)
    (start : PathStart) (c : Context),
    R Context (Expr.walkLinks invoke scope start items c)
      (Expr.walkLinks invoke' scope' start items c)
  | [], _, c => h.pure c
  | e :: rest, start, c => by
    have hlink := h.bind (h.walkFrom e start c) fun next => h.walkLinks rest .member next
    unfold Expr.walkLinks
    split
    · exact hlink
    · exact h.guarded hlink

theorem walkLast (h : Respects E R invoke invoke' scope scope') : ∀ (items : List Expr)
    (c last : Context),
    R Context (Expr.walkLast invoke scope items c last) (Expr.walkLast invoke' scope' items c last)
  | [], _, last => h.pure last
  | e :: rest, c, _ =>
    h.bind (h.guarded (h.walkFrom e .scope c)) fun last => h.walkLast rest c last

theorem walkEach (h : Respects E R invoke invoke' scope scope') : ∀ (items : List Expr)
    (c : Context),
    R (List Value) (Expr.walkEach invoke scope items c) (Expr.walkEach invoke' scope' items c)
  | [], _ => h.pure []
  | e :: rest, c =>
    h.bind (h.guarded (h.walkFrom e .scope c)) fun _ => h.bind (h.walkEach rest c) fun _ => h.pure _

theorem walkFirst (h : Respects E R invoke invoke' scope scope') : ∀ (args : List Argument)
    (c : Context),
    R Context (Argument.walkFirst invoke scope args c) (Argument.walkFirst invoke' scope' args c)
  | [], c => h.pure c
  | ⟨_, _, e⟩ :: _, c => h.guarded (h.walkFrom e .scope c)

theorem walkArguments (h : Respects E R invoke invoke' scope scope') : ∀ (args : List Argument)
    (c : Context),
    R (List Supplied) (Argument.walkEach invoke scope args c)
      (Argument.walkEach invoke' scope' args c)
  | [], _ => h.pure []
  | ⟨_, _, e⟩ :: rest, c =>
    h.bind (h.guarded (h.walkFrom e .scope c)) fun _ =>
      h.bind (h.walkArguments rest c) fun _ => h.pure _

end

mutual

/-- By induction over the code. -/
theorem enter (h : Respects E R invoke invoke' scope scope') : ∀ (code : Code) (c : Context),
    R Context (code.enter invoke scope c) (code.enter invoke' scope' c)
  | .constant _, _ => h.pure _
  | .stay, c => h.pure c
  | .resolve start parts, c => h.resolve start parts c
  | .group inner, c => h.guarded (h.enter inner c.nearestNatural)
  | .call site start parts name args, c =>
    h.bind (h.resolve start parts c) fun target =>
      h.bind (h.runArguments args c.nearestNatural) fun supplied =>
        h.callFormatter site name target supplied
  | .chain links, c => h.runLinks links c
  | .sequence items, c => h.runLast items c _
  | .collect items, c => h.bind (h.runEach items c) fun _ => h.pure _
  | .unary site op operand, c =>
    h.bind (h.guarded (h.enter operand c)) fun target =>
      h.callFormatter site op.formatterName target []
  | .binary site op left right, c =>
    h.bind (h.guarded (h.enter left c)) fun target =>
      h.bind (h.guarded (h.enter right c)) fun other =>
        h.callFormatter site op.formatterName target [⟨none, other.value⟩]
  | .lambda parameters body, c => h.makeLambda parameters (.code body) c

theorem runLinks (h : Respects E R invoke invoke' scope scope') : ∀ (links : List Code)
    (c : Context),
    R Context (Code.runLinks invoke scope links c) (Code.runLinks invoke' scope' links c)
  | [], c => h.pure c
  | link :: rest, c => h.bind (h.guarded (h.enter link c)) fun next => h.runLinks rest next

theorem runLast (h : Respects E R invoke invoke' scope scope') : ∀ (items : List Code)
    (c last : Context),
    R Context (Code.runLast invoke scope items c last) (Code.runLast invoke' scope' items c last)
  | [], _, last => h.pure last
  | item :: rest, c, _ => h.bind (h.guarded (h.enter item c)) fun last => h.runLast rest c last

theorem runEach (h : Respects E R invoke invoke' scope scope') : ∀ (items : List Code)
    (c : Context),
    R (List Value) (Code.runEach invoke scope items c) (Code.runEach invoke' scope' items c)
  | [], _ => h.pure []
  | item :: rest, c =>
    h.bind (h.guarded (h.enter item c)) fun _ => h.bind (h.runEach rest c) fun _ => h.pure _

theorem runArguments (h : Respects E R invoke invoke' scope scope') : ∀ (args : List CodeArgument)
    (c : Context),
    R (List Supplied) (CodeArgument.runEach invoke scope args c)
      (CodeArgument.runEach invoke' scope' args c)
  | [], _ => h.pure []
  | .constant _ _ :: rest, c => h.bind (h.runArguments rest c) fun _ => h.pure _
  | .computed _ code :: rest, c =>
    h.bind (h.guarded (h.enter code c)) fun _ => h.bind (h.runArguments rest c) fun _ => h.pure _

end

variable (h : Respects E R invoke invoke' scope scope')

include h

theorem walk (e : Expr) (c : Context) :
    R Context (e.walk invoke scope c) (e.walk invoke' scope' c) :=
  h.guarded (h.walkFrom e .scope c)

theorem run (code : Code) (c : Context) :
    R Context (code.run invoke scope c) (code.run invoke' scope' c) :=
  h.guarded (h.enter code c)

end Respects

/-! ## Bodies of lambdas -/

/-- The evaluation of the body of a lambda. -/
def LambdaBody.evaluate (invoke : Invoke) (scope : Scope) (c : Context) :
    LambdaBody → EvalM Context
  | .tree e => e.walk invoke scope c
  | .code compiled => compiled.run invoke scope c

/-- Whichever form the body of a lambda has. -/
theorem Respects.evaluate {E : EvalError → Prop} {R : (α : Type) → EvalM α → EvalM α → Prop}
    {invoke invoke' : Invoke} {scope scope' : Scope} (h : Respects E R invoke invoke' scope scope')
    (body : LambdaBody) (c : Context) :
    R Context (body.evaluate invoke scope c) (body.evaluate invoke' scope' c) := by
  cases body with
  | tree e => exact h.walk e c
  | code code => exact h.run code c

theorem invokeWithin_succ (levels : Nat) (scope : Scope) (l : Lambda) (arguments : List Value) :
    invokeWithin (levels + 1) scope l arguments = do
      let inner ← invokeWithin.liftExcept scope.descend
      let result ← l.body.evaluate (invokeWithin levels) (inner.bindAll l.parameters arguments)
        l.captured
      return result.value := by
  obtain ⟨id, parameters, body, captured⟩ := l
  cases body <;> rfl

/-- By induction on the levels that are left: the relation is kept by invocations. -/
theorem Elementary.invokeWithin {E : EvalError → Prop} {R : (α : Type) → EvalM α → EvalM α → Prop}
    (h : Elementary E R) (hoverflow : ∀ depth limit, E (.tooDeep depth limit)) (levels : Nat)
    (scope : Scope) (l : Lambda) (arguments : List Value) :
    R Value (invokeWithin levels scope l arguments) (invokeWithin levels scope l arguments) := by
  induction levels generalizing scope l arguments with
  | zero => exact h.throw _ (hoverflow _ _)
  | succ levels ih =>
    rw [invokeWithin_succ]
    refine h.bind ?_ fun inner => h.bind ((h.respects _ _ (ih _)).evaluate _ _) fun _ => h.pure _
    unfold Scope.descend
    split
    · exact h.pure _
    · exact h.throw _ (hoverflow _ _)

end Stencil
