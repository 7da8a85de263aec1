import Stencil.Evaluation.Call

/-!
# Outcomes of evaluations

What an evaluation comes to is its result together with the state that it leaves. `Relates Q R x y`:
from states related by `Q`, the evaluations `x` and `y` both fail with the same error or both give
results related by `R`, and leave states related by `Q`. This is kept when evaluations are put
together (`Relates.bind`).
-/

namespace Stencil

/-! ## Outcomes -/

namespace EvalM

variable {α β : Type}

/-- The result of an evaluation from a state, and the state that it leaves. -/
def outcome (x : EvalM α) (s : RunState) : Except EvalError α × RunState :=
  x.run.run s

theorem outcome_pure (a : α) (s : RunState) : outcome (pure a) s = (.ok a, s) := rfl

theorem outcome_bind (x : EvalM α) (f : α → EvalM β) (s : RunState) :
    outcome (x >>= f) s =
      match outcome x s with
      | (.ok a, s) => outcome (f a) s
      | (.error e, s) => (.error e, s) := by
  show ExceptT.bindCont f (x s).1 (x s).2 = _
  unfold outcome
  rcases hx : x s with ⟨_ | a, s'⟩
  · simp only [hx, ExceptT.run, StateT.run]
    rfl
  · simp only [hx, ExceptT.run, StateT.run]
    rfl

theorem outcome_handle (x : EvalM α) (next : α → EvalM β) (rescue : EvalError → EvalM β)
    (s : RunState) :
    outcome (handle x next rescue) s =
      match outcome x s with
      | (.ok a, s) => outcome (next a) s
      | (.error e, s) => outcome (rescue e) s := by
  unfold outcome handle
  rw [ExceptT.run_mk, StateT.run_bind]
  rcases x.run.run s with ⟨_ | a, t⟩ <;> rfl

/-- Without more ado failures are passed on. -/
theorem bind_eq_handle (x : EvalM α) (f : α → EvalM β) : x >>= f = handle x f throw := by
  funext s
  show outcome (x >>= f) s = outcome (handle x f throw) s
  rw [outcome_bind, outcome_handle]
  rcases outcome x s with ⟨_ | a, t⟩ <;> rfl

theorem outcome_checkpoint (s : RunState) :
    outcome checkpoint s = (if s.cancelled then .error .cancelled else .ok (), s) := by
  obtain ⟨memories, cancelled, events, next⟩ := s
  cases cancelled <;> rfl

/-- As long as an evaluation was not given up, looking whether it was changes nothing. -/
theorem outcome_guarded {x : EvalM α} {s : RunState} (h : s.cancelled = false) :
    outcome (guarded x) s = outcome x s := by
  simp only [guarded, outcome_bind, outcome_checkpoint, h, Bool.false_eq_true, if_false]

/-- Once an evaluation was given up, nothing more is done. -/
theorem outcome_guarded_cancelled {x : EvalM α} {s : RunState} (h : s.cancelled = true) :
    outcome (guarded x) s = (.error .cancelled, s) := by
  simp only [guarded, outcome_bind, outcome_checkpoint, h, if_true]

theorem outcome_resolveAt (site : Nat) (r : Registry) (matching : NameMatching) (name : String)
    (v : Value) (arguments : List Supplied) (s : RunState) :
    outcome (resolveAt site r matching name v arguments) s =
      let answer := r.consult (s.memories.at site) matching name v arguments
      (.ok answer.resolution, { s with memories := s.memories.set site answer.memory }) := rfl

end EvalM

theorem Memories.at_set (ms : Memories) (site other : Nat) (m : Memory) :
    (ms.set site m).at other = if site = other then m.or (ms.at site) else ms.at other := by
  cases m with
  | none =>
    show ms.at other = _
    split
    · next heq => rw [heq, Option.none_or]
    · rfl
  | some r =>
    show List.lookup other (Keyed.set site r ms) = _
    rw [Keyed.lookup_set]
    simp only [beq_iff_eq, Option.some_or]
    rfl

/-- What holds of the choices that sites remembered and of those that a site is given holds of what
the sites remember then. -/
theorem Memories.forall_set {P : Nat → Resolution → Prop} {ms : Memories}
    (h : ∀ site, ∀ r ∈ ms.at site, P site r) {site : Nat} {m : Memory} (hm : ∀ r ∈ m, P site r) :
    ∀ other, ∀ r ∈ (ms.set site m).at other, P other r := by
  intro other r hr
  rw [Memories.at_set] at hr
  split at hr
  · next heq =>
    subst heq
    rcases Option.or_eq_some_iff.mp hr with hr | ⟨-, hr⟩
    · exact hm r hr
    · exact h site r hr
  · exact h other r hr

/-! ## Related evaluations -/

/-- The same error, or related results. -/
inductive ResultAgree {α β : Type} (R : α → β → Prop) :
    Except EvalError α → Except EvalError β → Prop
  | ok {a : α} {b : β} (h : R a b) : ResultAgree R (.ok a) (.ok b)
  | error (e : EvalError) : ResultAgree R (.error e) (.error e)

/-- From related states the evaluations come to related results and to related states. -/
def Relates (Q : RunState → RunState → Prop) {α β : Type} (R : α → β → Prop) (x : EvalM α)
    (y : EvalM β) : Prop :=
  ∀ s s', Q s s' → ResultAgree R (x.outcome s).1 (y.outcome s').1 ∧
    Q (x.outcome s).2 (y.outcome s').2

namespace Relates

variable {Q : RunState → RunState → Prop} {α β γ δ : Type} {R : α → β → Prop} {R' : γ → δ → Prop}

theorem pure {a : α} {b : β} (h : R a b) : Relates Q R (Pure.pure a) (Pure.pure b) :=
  fun _ _ hs => ⟨.ok h, hs⟩

theorem throw (e : EvalError) :
    Relates Q R (MonadExcept.throw e : EvalM α) (MonadExcept.throw e : EvalM β) :=
  fun _ _ hs => ⟨.error e, hs⟩

theorem imp {S : α → β → Prop} {x : EvalM α} {y : EvalM β} (h : Relates Q R x y)
    (hRS : ∀ a b, R a b → S a b) : Relates Q S x y := by
  intro s s' hs
  obtain ⟨hresult, hstate⟩ := h s s' hs
  refine ⟨?_, hstate⟩
  generalize (x.outcome s).1 = r at hresult
  generalize (y.outcome s').1 = r' at hresult
  cases hresult with
  | ok hab => exact .ok (hRS _ _ hab)
  | error e => exact .error e

theorem bind {x : EvalM α} {y : EvalM β} (hxy : Relates Q R x y) {f : α → EvalM γ}
    {g : β → EvalM δ} (hfg : ∀ a b, R a b → Relates Q R' (f a) (g b)) :
    Relates Q R' (x >>= f) (y >>= g) := by
  intro s s' hs
  obtain ⟨hresult, hstate⟩ := hxy s s' hs
  rw [EvalM.outcome_bind, EvalM.outcome_bind]
  rcases hx : x.outcome s with ⟨r, t⟩
  rcases hy : y.outcome s' with ⟨r', t'⟩
  rw [hx, hy] at hresult hstate
  cases hresult with
  | ok hab => exact hfg _ _ hab t t' hstate
  | error e => exact ⟨.error e, hstate⟩

/-- Both go on with their results, or with the error that they fail with. -/
theorem handle {x : EvalM α} {y : EvalM β} (hxy : Relates Q R x y) {f : α → EvalM γ}
    {g : β → EvalM δ} (hfg : ∀ a b, R a b → Relates Q R' (f a) (g b)) {f' : EvalError → EvalM γ}
    {g' : EvalError → EvalM δ} (hrescue : ∀ e, Relates Q R' (f' e) (g' e)) :
    Relates Q R' (EvalM.handle x f f') (EvalM.handle y g g') := by
  intro s s' hs
  obtain ⟨hresult, hstate⟩ := hxy s s' hs
  rw [EvalM.outcome_handle, EvalM.outcome_handle]
  rcases hx : x.outcome s with ⟨r, t⟩
  rcases hy : y.outcome s' with ⟨r', t'⟩
  rw [hx, hy] at hresult hstate
  cases hresult with
  | ok hab => exact hfg _ _ hab t t' hstate
  | error e => exact hrescue e t t' hstate

end Relates

end Stencil
