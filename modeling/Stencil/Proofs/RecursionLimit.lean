import Stencil.Proofs.Composition
import Stencil.Proofs.Scopes

/-!
# The recursion limit

The body of a lambda is a value and no part of the expression that invokes it, so nothing in a tree
bounds an evaluation: a lambda can apply itself. What ends it is the limit. `invokeOnce` is one
invocation that leaves the invocations in the body of the lambda to another way of invoking, and
`invokeUnfolded` unfolds this any number of times. Unfolded without end, it would be an evaluator
that knows of no levels at all.

Every invocation moves on to a scope one level deeper (`descend_eq_ok`), so an evaluation that has
more unfoldings than levels left never asks for what is below them (`invokeUnfolded_eq`). On the way
each scope that an invocation comes from or moves on to is shown to an observer. One that minds no
scope within the limit changes nothing, so there is none beyond.

Main statement: `evaluation_limited`.
-/

namespace Stencil

/-! ## Invocations one by one -/

/-- Invokes a lambda, and leaves it to `again` to invoke lambdas in its body. The observer sees the
scope that the lambda is invoked from and the scope that its body is evaluated in. -/
def invokeOnce (see : Scope → EvalM Unit) (again : Invoke) : Invoke :=
  fun scope l arguments => do
    see scope
    let entered ← invokeWithin.liftExcept scope.descend
    let inner := entered.bindAll l.parameters arguments
    see inner
    let result ← l.body.evaluate again inner l.captured
    return result.value

/-- Invokes lambdas in lambdas so many times over, and below that as given. -/
def invokeUnfolded (see : Scope → EvalM Unit) (below : Invoke) : Nat → Invoke
  | 0 => below
  | times + 1 => invokeOnce see (invokeUnfolded see below times)

/-- Sees nothing to act upon. -/
def unseen : Scope → EvalM Unit :=
  fun _ => pure ()

/-- The failure of an invocation that the limit of the options forbids. -/
def Options.overflow (o : Options) : EvalError :=
  .tooDeep (o.limit + 1) o.limit

/-! ## Scopes within the limit -/

/-- The scope has the options, and is not deeper than they allow. -/
structure Scope.Within (o : Options) (s : Scope) : Prop where
  options : s.options = o
  depth : s.depth ≤ s.options.limit

namespace Scope

/-- A scope with a level left lets a lambda run one level deeper, with the same options. -/
theorem descend_eq_ok {s : Scope} (h : s.depth < s.options.limit) :
    s.descend = .ok { s.push with depth := s.depth + 1 } :=
  if_pos h

/-- The deepest scopes let no lambda run. -/
theorem descend_eq_error {s : Scope} (h : s.depth = s.options.limit) :
    s.descend = .error s.options.overflow := by
  unfold descend
  rw [if_neg (by omega), h]
  rfl

/-- The scope that the body of a lambda is evaluated in is within the limit, with a level less. -/
theorem Within.descend {o : Options} {s inner : Scope} (h : s.Within o) {levels : Nat}
    (hlevels : s.levels = levels + 1) (hinner : s.descend = .ok inner) (parameters : List String)
    (arguments : List Value) :
    (inner.bindAll parameters arguments).Within o ∧
      (inner.bindAll parameters arguments).levels = levels := by
  obtain ⟨rfl, -⟩ := h
  have hleft : s.options.limit - s.depth = levels + 1 := hlevels
  rw [descend_eq_ok (by omega)] at hinner
  cases hinner
  refine ⟨⟨bindAll_options _ _ _, ?_⟩, ?_⟩
  · rw [bindAll_depth, bindAll_options]
    show s.depth + 1 ≤ s.options.limit
    omega
  · unfold Scope.levels
    rw [bindAll_options, bindAll_depth]
    show s.options.limit - (s.depth + 1) = levels
    omega

end Scope

/-! ## As many unfoldings as levels -/

/-- Lambdas are invoked alike from a scope. -/
def SameFrom (scope : Scope) (invoke invoke' : Invoke) : Prop :=
  ∀ l arguments, invoke scope l arguments = invoke' scope l arguments

theorem elementary_eq : Elementary (fun _ => True) fun _ x y => x = y where
  pure _ := rfl
  bind := by
    rintro _ _ x _ f g rfl hfg
    exact congrArg (x >>= ·) (funext hfg)
  checkpoint := rfl
  throw _ _ := rfl
  handle := by
    rintro _ _ x _ f g f' g' rfl hfg hrescue
    rw [funext hfg, funext fun e => hrescue e trivial]
  cancelled := trivial
  record _ := rfl
  cancel := rfl
  freshLambda := rfl
  resolveAt _ _ _ _ _ _ := rfl

/-- Only the scope of an evaluation invokes lambdas. -/
theorem LambdaBody.evaluate_congr {scope : Scope} {invoke invoke' : Invoke}
    (h : SameFrom scope invoke invoke') (body : LambdaBody) (c : Context) :
    body.evaluate invoke scope c = body.evaluate invoke' scope c :=
  (elementary_eq.respects invoke invoke' h).evaluate body c

/-- By induction on the levels that are left: with more unfoldings than these, and also with as many
if no lambda can be invoked below, a lambda is invoked as the limit has it. An observer who minds no
scope within the limit makes no difference. -/
theorem invokeUnfolded_eq {o : Options} {see : Scope → EvalM Unit}
    (hsee : ∀ s : Scope, s.Within o → see s = pure ()) {below : Invoke} {times : Nat}
    {scope : Scope}
    (hscope : scope.Within o) (htimes : scope.levels ≤ times)
    (hbelow : times = scope.levels → ∀ s : Scope, s.options = o → s.depth = o.limit →
      ∀ l arguments, below s l arguments = throw o.overflow) :
    SameFrom scope (invokeUnfolded see below times) (invokeWithin scope.levels) := by
  intro l arguments
  generalize hlevels : scope.levels = levels at htimes hbelow ⊢
  induction levels generalizing scope times l arguments with
  | zero =>
    have hdeepest : scope.depth = scope.options.limit := by
      have hleft : scope.options.limit - scope.depth = 0 := hlevels
      have := hscope.depth
      omega
    have hrefused : invokeWithin 0 scope l arguments = throw scope.options.overflow := by
      unfold invokeWithin
      rw [hdeepest]
      rfl
    rw [hrefused]
    cases times with
    | zero =>
      have hbelow := hbelow rfl scope hscope.options
      rw [← hscope.options] at hbelow
      exact hbelow hdeepest l arguments
    | succ times =>
      show invokeOnce see (invokeUnfolded see below times) scope l arguments = _
      unfold invokeOnce
      rw [hsee scope hscope, Scope.descend_eq_error hdeepest]
      rfl
  | succ levels ih =>
    obtain ⟨times, rfl⟩ : ∃ n, times = n + 1 := ⟨times - 1, by omega⟩
    rw [invokeWithin_succ]
    show invokeOnce see (invokeUnfolded see below times) scope l arguments = _
    unfold invokeOnce
    rw [hsee scope hscope, pure_bind]
    cases hdescend : scope.descend with
    | error e => rfl
    | ok entered =>
      obtain ⟨hinner, hless⟩ :=
        hscope.descend hlevels hdescend l.parameters arguments
      have hbody : SameFrom (entered.bindAll l.parameters arguments)
          (invokeUnfolded see below times) (invokeWithin levels) := fun l arguments =>
        ih hinner l arguments hless (by omega) fun hlast => hbelow (by omega)
      simp only [invokeWithin.liftExcept, pure_bind, hsee _ hinner,
        LambdaBody.evaluate_congr hbody]

/-! ## Failures -/

/-- However the evaluation begins, it fails only with such errors. -/
def FailsOnly (E : EvalError → Prop) {α : Type} (x : EvalM α) : Prop :=
  ∀ s e, (x.outcome s).1 = .error e → E e

/-- Not because a lambda was to run too deep. -/
def EvalError.IsNoOverflow (e : EvalError) : Prop :=
  ∀ depth limit, e ≠ .tooDeep depth limit

namespace FailsOnly

variable {E : EvalError → Prop} {α β : Type}

theorem pure (a : α) : FailsOnly E (Pure.pure a) := by
  rintro _ _ ⟨⟩

theorem bind {x : EvalM α} (hx : FailsOnly E x) {f : α → EvalM β} (hf : ∀ a, FailsOnly E (f a)) :
    FailsOnly E (x >>= f) := by
  intro s e h
  rw [EvalM.outcome_bind] at h
  cases hresult : x.outcome s with
  | mk result t =>
    rw [hresult] at h
    cases result with
    | error _ =>
      cases h
      exact hx s e (by rw [hresult])
    | ok a => exact hf a t e h

theorem throw {e : EvalError} (he : E e) : FailsOnly E (MonadExcept.throw e : EvalM α) := by
  rintro _ _ ⟨⟩
  exact he

/-- Where failures are handled, only what is done then can fail. -/
theorem handle {x : EvalM α} (hx : FailsOnly E x) {f : α → EvalM β} (hf : ∀ a, FailsOnly E (f a))
    {rescue : EvalError → EvalM β} (hrescue : ∀ e, E e → FailsOnly E (rescue e)) :
    FailsOnly E (EvalM.handle x f rescue) := by
  intro s e h
  rw [EvalM.outcome_handle] at h
  cases hresult : x.outcome s with
  | mk result t =>
    rw [hresult] at h
    cases result with
    | error e' => exact hrescue e' (hx s e' (by rw [hresult])) t e h
    | ok a => exact hf a t e h

theorem checkpoint (hcancelled : E .cancelled) : FailsOnly E EvalM.checkpoint := by
  intro s e h
  rw [EvalM.outcome_checkpoint] at h
  split at h
  · cases h
    exact hcancelled
  · cases h

/-- Of the steps of an evaluation only checkpoints fail, and formatters that fail because a lambda
did, or give up. -/
theorem elementary (hcancelled : E .cancelled) : Elementary E fun _ x _ => FailsOnly E x where
  pure := pure
  bind hx hf := hx.bind hf
  checkpoint := checkpoint hcancelled
  throw _ := throw
  handle hx hf hrescue := hx.handle hf hrescue
  cancelled := hcancelled
  record _ := by rintro _ _ ⟨⟩
  cancel := by rintro _ _ ⟨⟩
  freshLambda := by rintro _ _ ⟨⟩
  resolveAt _ _ _ _ _ _ := by rintro _ _ ⟨⟩

/-- Whatever else an evaluation fails with, the lambdas that it invokes do. -/
theorem respects (hcancelled : E .cancelled) {scope : Scope} {invoke : Invoke}
    (hinvoke : ∀ l arguments, FailsOnly E (invoke scope l arguments)) :
    Respects E (fun _ x _ => FailsOnly E x) invoke invoke scope scope :=
  (elementary hcancelled).respects invoke invoke hinvoke

end FailsOnly

/-- By induction on the levels that are left: if the invocations from the deepest scopes fail only
with such errors, so do all others. -/
theorem invokeUnfolded_failsOnly {E : EvalError → Prop} (hcancelled : E .cancelled) {o : Options}
    {below : Invoke} (hbelow : ∀ s : Scope, s.options = o → s.depth = o.limit →
      ∀ l arguments, FailsOnly E (below s l arguments)) {scope : Scope} (hscope : scope.Within o)
    (l : Lambda) (arguments : List Value) :
    FailsOnly E (invokeUnfolded unseen below scope.levels scope l arguments) := by
  generalize hlevels : scope.levels = levels
  induction levels generalizing scope l arguments with
  | zero =>
    refine hbelow scope hscope.options ?_ l arguments
    have hleft : scope.options.limit - scope.depth = 0 := hlevels
    have hdepth := hscope.depth
    rw [hscope.options] at hleft hdepth
    omega
  | succ levels ih =>
    show FailsOnly E (invokeOnce unseen (invokeUnfolded unseen below levels) scope l arguments)
    have hroom : scope.depth < scope.options.limit := by
      have hleft : scope.options.limit - scope.depth = levels + 1 := hlevels
      omega
    obtain ⟨hinner, hless⟩ :=
      hscope.descend hlevels (Scope.descend_eq_ok hroom) l.parameters arguments
    unfold invokeOnce
    rw [Scope.descend_eq_ok hroom]
    have hrespects := FailsOnly.respects hcancelled fun l arguments => ih hinner l arguments hless
    exact (hrespects.evaluate l.body l.captured).bind fun _ => .pure _

/-! ## What the limit means -/

/-- What the limit means for an evaluation in a scope. The evaluation can be done with any way to
invoke lambdas; `actual` is how it is done. -/
structure Limited {α : Type} (scope : Scope) (evaluation : Invoke → EvalM α) (actual : EvalM α) :
    Prop where
  /-- The evaluation ends: if lambdas can be invoked in lambdas more often than there are levels,
  what is below does not matter. Nor does an observer who minds only scopes beyond the limit. -/
  ends : ∀ (see : Scope → EvalM Unit) (below : Invoke) (times : Nat),
    (∀ s : Scope, s.Within scope.options → see s = pure ()) → scope.levels < times →
      evaluation (invokeUnfolded see below times) = actual
  /-- An overflow tells the limit, and a depth just beyond it. -/
  overflows : ∀ s depth limit, (actual.outcome s).1 = .error (.tooDeep depth limit) →
    depth = scope.options.limit + 1 ∧ limit = scope.options.limit
  /-- Below as many invocations as there are levels, lambdas are invoked from the deepest scopes
  only, and overflow there. -/
  deepest : ∀ below : Invoke,
    (∀ s : Scope, s.options = scope.options → s.depth = scope.options.limit →
      ∀ l arguments, below s l arguments = throw scope.options.overflow) →
    evaluation (invokeUnfolded unseen below scope.levels) = actual
  /-- Were it not for these, there would be no overflow. -/
  otherwise : ∀ below : Invoke,
    (∀ s : Scope, s.options = scope.options → s.depth = scope.options.limit →
      ∀ l arguments, FailsOnly EvalError.IsNoOverflow (below s l arguments)) →
    FailsOnly EvalError.IsNoOverflow (evaluation (invokeUnfolded unseen below scope.levels))

/-- An evaluation that invokes lambdas only from its scope, and fails only if they do, is
limited. -/
theorem Limited.intro {α : Type} {scope : Scope} (h : scope.depth ≤ scope.options.limit)
    {evaluation : Invoke → EvalM α}
    (hsame : ∀ invoke invoke', SameFrom scope invoke invoke' →
      evaluation invoke = evaluation invoke')
    (hfails : ∀ (E : EvalError → Prop) (invoke : Invoke), E .cancelled →
      (∀ l arguments, FailsOnly E (invoke scope l arguments)) → FailsOnly E (evaluation invoke)) :
    Limited scope evaluation (evaluation (invokeWithin scope.levels)) := by
  have hscope : scope.Within scope.options := ⟨rfl, h⟩
  have hdeepest : ∀ below : Invoke,
      (∀ s : Scope, s.options = scope.options → s.depth = scope.options.limit →
        ∀ l arguments, below s l arguments = throw scope.options.overflow) →
      evaluation (invokeUnfolded unseen below scope.levels) =
        evaluation (invokeWithin scope.levels) := fun below hbelow =>
    hsame _ _ (invokeUnfolded_eq (fun _ _ => rfl) hscope (Nat.le_refl _) fun _ => hbelow)
  refine ⟨fun see below times hsee htimes => ?_, fun s depth limit hs => ?_, hdeepest,
    fun below hbelow => ?_⟩
  · exact hsame _ _ (invokeUnfolded_eq hsee hscope (by omega) fun heq => by omega)
  -- The failures of the evaluation are those of the deepest scopes.
  · let refuse : Invoke := fun _ _ _ => throw scope.options.overflow
    let E : EvalError → Prop := fun e => e = .cancelled ∨ e = scope.options.overflow
    have hrefuse : ∀ s l arguments, FailsOnly E (refuse s l arguments) := by
      rintro _ _ _ _ _ ⟨⟩
      exact .inr rfl
    have hactual : FailsOnly E (evaluation (invokeWithin scope.levels)) := by
      rw [← hdeepest refuse fun _ _ _ _ _ => rfl]
      exact hfails E _ (.inl rfl)
        (invokeUnfolded_failsOnly (.inl rfl) (fun s _ _ => hrefuse s) hscope)
    rcases hactual s _ hs with heq | heq
    · cases heq
    · cases heq
      exact ⟨rfl, rfl⟩
  · have hcancelled : EvalError.IsNoOverflow .cancelled := by
      rintro _ _ ⟨⟩
    exact hfails _ _ hcancelled (invokeUnfolded_failsOnly hcancelled hbelow hscope)

/-- The limit ends all evaluations in a scope that it allows, of trees, of code and of lambdas, and
whatever lambdas they find in data and variables. -/
theorem evaluation_limited (scope : Scope) (h : scope.depth ≤ scope.options.limit) :
    (∀ (e : Expr) (c : Context),
      Limited scope (fun again => e.walk again scope c) (e.evaluate scope c)) ∧
    (∀ (code : Code) (c : Context),
      Limited scope (fun again => code.run again scope c) (code.evaluate scope c)) ∧
    ∀ (l : Lambda) (arguments : List Value),
      Limited scope (fun again => again scope l arguments) (invoke scope l arguments) := by
  refine ⟨fun e c => ?_, fun code c => ?_, fun l arguments => ?_⟩
  · exact .intro h (fun _ _ hsame => (elementary_eq.respects _ _ hsame).walk e c)
      fun _ _ hcancelled hinvoke => (FailsOnly.respects hcancelled hinvoke).walk e c
  · exact .intro h (fun _ _ hsame => (elementary_eq.respects _ _ hsame).run code c)
      fun _ _ hcancelled hinvoke => (FailsOnly.respects hcancelled hinvoke).run code c
  · exact .intro h (fun _ _ hsame => hsame l arguments) fun _ _ _ hinvoke => hinvoke l arguments

/-- Applies a variable to each element: `Select(name)`. -/
def applyToEach (name : String) : Expr :=
  .call .nowhere 0 [] "Select" [⟨none, .nowhere, .path .nowhere [.member name]⟩]

/-- An array with one element. -/
def oneElement : Context :=
  .ofValue (.array [.null])

/-- A scope in which one lambda can run, with a lambda that applies itself. -/
def selfApplying : Scope :=
  (Scope.ofOptions (.ofConfig { maxDepth := 1 })).set "f"
    (.lambda ⟨0, ["x"], .tree (applyToEach "f"), oneElement⟩)

/-- A lambda that applies itself runs once, and overflows when it comes to itself. -/
theorem evaluation_limited_selfApplying :
    Limited selfApplying (fun again => (applyToEach "f").walk again selfApplying oneElement)
        ((applyToEach "f").evaluate selfApplying oneElement) ∧
      (((applyToEach "f").evaluate selfApplying oneElement).outcome .fresh).1 =
        .error (.tooDeep 2 1) :=
  ⟨(evaluation_limited selfApplying (by decide)).1 (applyToEach "f") oneElement, rfl⟩

end Stencil
