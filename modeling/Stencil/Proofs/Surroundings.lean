import Stencil.Proofs.Outcome

/-!
# Surroundings of a context

Arguments of calls, lambdas and the selectors `~` and `../` look from a context to what is around
it. A computed value stands in the place of the context that it was computed from: what is around
it is the same, but at the top there is nothing around it, and then it is taken for the top itself.

`Yields P x` says that all results of an evaluation have a property. What a call gives stands in the
place of its target (`Yields.callFormatter`), so what is around the result is known before the
formatter is run.
-/

namespace Stencil

namespace Context

variable (c : Context) (key : String) (v : Value)

theorem root_eq_self {c : Context} (h : c.parent = none) : c.root = c := by
  obtain ⟨value, key, isNatural, parent⟩ := c
  cases h
  rfl

/-- Only at the top a computed value takes the place of the root. -/
theorem root_synthetic {c : Context} (h : c.parent ≠ none) : (c.synthetic v).root = c.root := by
  obtain ⟨value, key, isNatural, parent⟩ := c
  cases parent with
  | none => exact absurd rfl h
  | some p => rfl

theorem parent_root : ∀ c : Context, c.root.parent = none
  | ⟨_, _, _, none⟩ => rfl
  | ⟨_, _, _, some p⟩ => parent_root p

theorem root_parent {c p : Context} (h : c.parent = some p) : p.root = c.root := by
  obtain ⟨value, key, isNatural, parent⟩ := c
  cases h
  rfl

@[simp] theorem root_root : c.root.root = c.root :=
  root_eq_self (parent_root c)

@[simp] theorem root_nearestNatural : ∀ c : Context, c.nearestNatural.root = c.root
  | ⟨_, _, true, _⟩ => rfl
  | ⟨_, _, false, none⟩ => rfl
  | ⟨_, _, false, some p⟩ => root_nearestNatural p

@[simp] theorem root_enclosing : c.enclosing.root = c.root := by
  unfold enclosing
  cases h : c.nearestNatural.parent with
  | none => exact root_nearestNatural c
  | some p => exact (root_parent h).trans (root_nearestNatural c)

end Context

/-- A part that leads to something directly in where it starts, be it there or not. -/
def Part.leadsInto (p : Part) : Bool :=
  p.kind == .member || p.kind == .entries

/-! ## Results -/

/-- All results of the evaluation have the property, whatever state it begins in. -/
def Yields {α : Type} (P : α → Prop) (x : EvalM α) : Prop :=
  ∀ s a t, x.outcome s = (.ok a, t) → P a

namespace Yields

variable {α β : Type} {P : α → Prop} {Q : β → Prop}

theorem pure {a : α} (h : P a) : Yields P (Pure.pure a) := by
  rintro _ _ _ ⟨⟩
  exact h

theorem mono {P' : α → Prop} {x : EvalM α} (h : Yields P x) (himp : ∀ a, P a → P' a) :
    Yields P' x :=
  fun s a t hx => himp a (h s a t hx)

theorem trivial (x : EvalM α) : Yields (fun _ => True) x :=
  fun _ _ _ _ => True.intro

theorem bind {x : EvalM α} (hx : Yields P x) {f : α → EvalM β} (hf : ∀ a, P a → Yields Q (f a)) :
    Yields Q (x >>= f) := by
  intro s b t h
  rw [EvalM.outcome_bind] at h
  cases hresult : x.outcome s with
  | mk result s' =>
    rw [hresult] at h
    cases result with
    | error e => cases h
    | ok a => exact hf a (hx s a s' hresult) s' b t h

/-- What the first evaluation gives does not matter. -/
theorem after {x : EvalM α} {f : α → EvalM β} (hf : ∀ a, Yields Q (f a)) : Yields Q (x >>= f) :=
  (trivial x).bind fun a _ => hf a

theorem guarded {x : EvalM α} (h : Yields P x) : Yields P (EvalM.guarded x) :=
  after fun _ => h

theorem reach (scope : Scope) (start : PathStart) (parts : Path) (c : Context) :
    Yields (· = (Path.reach scope start parts c).context) (EvalM.reach scope start parts c) := by
  unfold EvalM.reach
  dsimp only
  split
  · exact after fun _ => pure rfl
  · exact pure rfl

theorem resolve (scope : Scope) (start : PathStart) (parts : Path) (c : Context) :
    Yields (· = (Path.reach scope start parts c).context) (EvalM.resolve scope start parts c) :=
  after fun _ => (reach scope start parts c).bind fun _ htarget => after fun _ => pure htarget

/-- What a call gives stands in the place of its target. -/
theorem callFormatter (invoke : Invoke) (scope : Scope) (site : Nat) (name : String)
    (target : Context) (arguments : List Supplied) :
    Yields (fun x => ∃ v, x = target.synthetic v)
      (EvalM.callFormatter invoke scope site name target arguments) := by
  refine after fun made => ?_
  cases made with
  | some r => exact after fun v => pure ⟨v, rfl⟩
  | none => exact after fun _ => after fun _ => pure ⟨.null, rfl⟩

/-- Evaluations that go on alike from all results come to the same. -/
theorem bind_congr {x : EvalM α} {f g : α → EvalM β} (h : Yields (fun a => f a = g a) x) :
    x >>= f = x >>= g := by
  funext s
  show (x >>= f).outcome s = (x >>= g).outcome s
  rw [EvalM.outcome_bind, EvalM.outcome_bind]
  cases hresult : x.outcome s with
  | mk result t =>
    cases result with
    | error e => rfl
    | ok a => exact congrArg (EvalM.outcome · t) (h s a t hresult)

end Yields

end Stencil
