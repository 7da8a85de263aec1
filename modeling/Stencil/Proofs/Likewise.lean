import Stencil.Proofs.Calls

/-!
# Evaluations that do alike

`L.Likewise R x y`: from states that are alike, the evaluations `x` and `y` fail with the same error
or give results related by `R`, and leave states that are alike. States that are alike remember the
same choices, for a choice does not depend on bodies of lambdas.

Whatever an evaluation does to the state is done alike: choosing formatters under options that
respect the likeness (`Likewise.resolveAt`), recording events, giving up and numbering lambdas.
-/

namespace Stencil

namespace Likeness

variable {L : Likeness}

/-! ## States -/

/-- States of evaluations that did alike so far. -/
structure AlikeState (L : Likeness) (s s' : RunState) : Prop where
  memories : s.memories = s'.memories
  /-- Only formatters that respect the likeness were chosen. -/
  respects : ∀ site, ∀ r ∈ s.memories.at site, r.Respects L
  cancelled : s.cancelled = s'.cancelled
  events : List.Forall₂ L.AlikeEvent s.events s'.events
  nextLambda : s.nextLambda = s'.nextLambda

theorem AlikeState.unresolved {s s' : RunState} (h : L.AlikeState s s') :
    s.unresolved = s'.unresolved := by
  have hevents := List.rel_reverse h.events
  unfold RunState.unresolved
  generalize s.events.reverse = es at hevents
  generalize s'.events.reverse = es' at hevents
  induction hevents with
  | nil => rfl
  | cons he _ ih => cases he <;> simp only [List.filterMap_cons, ih]

/-- From states that are alike the evaluations come to related results and to states that are
alike. -/
def Likewise (L : Likeness) {α β : Type} (R : α → β → Prop) (x : EvalM α) (y : EvalM β) : Prop :=
  Relates L.AlikeState R x y

namespace Likewise

variable {α β γ δ : Type} {R : α → β → Prop} {R' : γ → δ → Prop}

theorem checkpoint : L.Likewise (· = ·) EvalM.checkpoint EvalM.checkpoint := by
  intro s s' hs
  rw [EvalM.outcome_checkpoint, EvalM.outcome_checkpoint, hs.cancelled]
  refine ⟨?_, hs⟩
  split
  · exact .error _
  · exact .ok rfl

theorem record {e e' : Event} (he : L.AlikeEvent e e') :
    L.Likewise (· = ·) (EvalM.record e) (EvalM.record e') :=
  fun _ _ hs => ⟨.ok rfl, { hs with events := .cons he hs.events }⟩

theorem cancel : L.Likewise (· = ·) EvalM.cancel EvalM.cancel :=
  fun _ _ hs => ⟨.ok rfl, { hs with cancelled := rfl }⟩

theorem freshLambda (hid : ∀ i, L.AlikeId i i) :
    L.Likewise L.AlikeId EvalM.freshLambda EvalM.freshLambda :=
  fun _ _ hs => ⟨.ok (hs.nextLambda ▸ hid _),
    { hs with nextLambda := congrArg (· + 1) hs.nextLambda }⟩

/-- Calls that are alike get the same answer, and the same is remembered. -/
theorem resolveAt {r : Registry} (hr : r.Respects L) (site : Nat) (matching : NameMatching)
    (name : String) {v w : Value} (hv : L.Alike v w) {as bs : List Supplied}
    (has : List.Forall₂ L.AlikeSupplied as bs) :
    L.Likewise (fun x y => x = y ∧ ∀ made ∈ x, made.Respects L)
      (EvalM.resolveAt site r matching name v as) (EvalM.resolveAt site r matching name w bs) := by
  intro s s' hs
  obtain ⟨hanswer, hmemory⟩ := Registry.consult_forall matching name w bs (hs.respects site)
    fun _ => Registry.resolve_respects hr
  rw [EvalM.outcome_resolveAt, EvalM.outcome_resolveAt, r.consult_alike _ matching name hv has,
    ← hs.memories]
  exact ⟨.ok ⟨rfl, hanswer⟩,
    { hs with memories := rfl, respects := Memories.forall_set hs.respects hmemory }⟩

end Likewise

/-! ## Calls -/

theorem keeps_alikeState (hid : ∀ i, L.AlikeId i i) : L.Keeps L.AlikeState :=
  ⟨Likewise.checkpoint, fun u => Likewise.record (.unresolved u),
    fun s _ _ hv _ _ has => Likewise.record (.invoked s hv has), Likewise.cancel,
    Likewise.freshLambda hid⟩

end Likeness

end Stencil
