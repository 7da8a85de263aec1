import Stencil.Proofs.Calls
import Stencil.Proofs.EarlyChoices

/-!
# Evaluations that go together

Walking a tree and running its code do the same until the evaluation is given up. Then they may end
at different places, as they have their checkpoints in different places.

`Together S given R x y` compares evaluations from states that agree. Either they come to the same,
with results related by `R` and states that agree, or one of them stops short while the other one
goes on from there (`StopsShort`). What stops short was given up by someone after whom evaluations
may go on (`Event.GoesOn`).

There is one rule for each way in which evaluations are put together. When one of two evaluations
has stopped, nothing is known of what the other one goes on with, but it only adds to what happened
(`OnlyAdds`).
-/

namespace Stencil

/-! ## Events stay -/

/-- What happened before an evaluation stays among the events. -/
class OnlyAdds {α : Type} (x : EvalM α) : Prop where
  adds : ∀ s, s.events <:+ (x.outcome s).2.events

namespace OnlyAdds

variable {α β : Type}

instance pure (a : α) : OnlyAdds (Pure.pure a) :=
  ⟨fun _ => List.suffix_refl _⟩

instance throw (e : EvalError) : OnlyAdds (MonadExcept.throw e : EvalM α) :=
  ⟨fun _ => List.suffix_refl _⟩

instance bind (x : EvalM α) [OnlyAdds x] (f : α → EvalM β) [∀ a, OnlyAdds (f a)] :
    OnlyAdds (x >>= f) where
  adds s := by
    have hfirst := adds (x := x) s
    rw [EvalM.outcome_bind]
    rcases hx : x.outcome s with ⟨_ | a, t⟩ <;> rw [hx] at hfirst
    · exact hfirst
    · exact hfirst.trans (adds (x := f a) t)

/-- Whatever comes after an evaluation only adds events. -/
theorem suffix_handle (x : EvalM α) (f : α → EvalM β) [∀ a, OnlyAdds (f a)]
    (rescue : EvalError → EvalM β) [∀ e, OnlyAdds (rescue e)] (s : RunState) :
    (x.outcome s).2.events <:+ ((EvalM.handle x f rescue).outcome s).2.events := by
  rw [EvalM.outcome_handle]
  rcases x.outcome s with ⟨e | a, t⟩
  · exact adds t
  · exact adds t

instance handle (x : EvalM α) [OnlyAdds x] (f : α → EvalM β) [∀ a, OnlyAdds (f a)]
    (rescue : EvalError → EvalM β) [∀ e, OnlyAdds (rescue e)] :
    OnlyAdds (EvalM.handle x f rescue) :=
  ⟨fun s => (adds s).trans (suffix_handle x f rescue s)⟩

/-- All steps of evaluations only add events. -/
theorem elementary : Elementary (fun _ => True) fun _ x _ => OnlyAdds x where
  pure := pure
  bind {_ _ x _ f _} hx hf := bind x f
  checkpoint := ⟨fun s => by simp only [EvalM.outcome_checkpoint, List.suffix_refl]⟩
  throw e _ := throw e
  handle {_ _ x _ f _ f' _} hx hf hrescue :=
    have : ∀ e, OnlyAdds (f' e) := fun e => hrescue e trivial
    handle x f f'
  cancelled := trivial
  record _ := ⟨fun _ => List.suffix_cons _ _⟩
  cancel := ⟨fun _ => List.suffix_refl _⟩
  freshLambda := ⟨fun _ => List.suffix_refl _⟩
  resolveAt _ _ _ _ _ _ := ⟨fun _ => List.suffix_refl _⟩

instance checkpoint : OnlyAdds EvalM.checkpoint :=
  elementary.checkpoint

instance record (e : Event) : OnlyAdds (EvalM.record e) :=
  elementary.record e

instance recordAll (events : List Event) : OnlyAdds (EvalM.recordAll events) :=
  elementary.recordAll events

instance cancel : OnlyAdds EvalM.cancel :=
  elementary.cancel

instance cancelIf (b : Bool) : OnlyAdds (EvalM.cancelIf b) :=
  elementary.cancelIf b

instance freshLambda : OnlyAdds EvalM.freshLambda :=
  elementary.freshLambda

instance resolveAt (site : Nat) (registry : Registry) (matching : NameMatching) (name : String)
    (v : Value) (arguments : List Supplied) :
    OnlyAdds (EvalM.resolveAt site registry matching name v arguments) :=
  elementary.resolveAt _ _ _ _ _ _

instance guardedIf (b : Bool) (x : EvalM α) [h : OnlyAdds x] :
    OnlyAdds (EvalM.guardedIf b x) := by
  cases b with
  | true => exact elementary.guarded (y := x) h
  | false => exact h

instance guarded (x : EvalM α) [OnlyAdds x] : OnlyAdds (EvalM.guarded x) :=
  guardedIf true x

instance invokeWithin (levels : Nat) (scope : Scope) (l : Lambda) (arguments : List Value) :
    OnlyAdds (invokeWithin levels scope l arguments) :=
  elementary.invokeWithin (fun _ _ => trivial) levels scope l arguments

section

variable (levels : Nat) (scope : Scope)

/-- Whatever lambdas are invoked on the way, evaluations in a scope only add events. -/
theorem respects : Respects (fun _ => True) (fun _ x _ => OnlyAdds x) (Stencil.invokeWithin levels)
    (Stencil.invokeWithin levels) scope scope :=
  elementary.respects _ _ fun l arguments => invokeWithin levels scope l arguments

instance runRoutine (x : Routine α) (seen : List EvalError) :
    OnlyAdds (x.run (Stencil.invokeWithin levels scope) seen) :=
  @Elementary.runRoutine _ _ elementary _ (Stencil.invokeWithin levels scope)
    (invokeWithin levels scope) _ x _ fun _ _ => trivial

instance resolve (start : PathStart) (parts : Path) (c : Context) :
    OnlyAdds (EvalM.resolve scope start parts c) :=
  elementary.resolve scope start parts c

instance execute (r : Resolution) (v : Value) (arguments : List Supplied) :
    OnlyAdds (EvalM.execute (Stencil.invokeWithin levels) scope r v arguments) :=
  elementary.execute _ (Stencil.invokeWithin levels)
    (fun l arguments => invokeWithin levels scope l arguments) r v arguments

instance callFormatter (site : Nat) (name : String) (target : Context)
    (arguments : List Supplied) :
    OnlyAdds (EvalM.callFormatter (Stencil.invokeWithin levels) scope site name target arguments) :=
  (respects levels scope).callFormatter site name target arguments

end

instance makeLambda (parameters : List String) (body : LambdaBody) (c : Context) :
    OnlyAdds (EvalM.makeLambda parameters body c) :=
  bind EvalM.freshLambda _

end OnlyAdds

/-! ## States that agree -/

/-- What an event says, with code in place of all trees. -/
def Event.compiled : Event → Event
  | .unresolved u => .unresolved u
  | .invoked s v arguments => .invoked s v.compiled (arguments.map Value.compiled)
  | .rooted c => .rooted c.compiled

theorem Likeness.AlikeEvent.compiled_eq {names : Nat → String} {e e' : Event}
    (h : (agreement names).AlikeEvent e e') : e.compiled = e'.compiled := by
  cases h with
  | unresolved u => rfl
  | invoked s hv has =>
    have hall : List.map Value.compiled _ = List.map Value.compiled _ :=
      List.forall₂_eq_eq_eq ▸ List.forall₂_map_left_iff.mpr
        (List.forall₂_map_right_iff.mpr (has.imp fun _ _ hvw => Likeness.Alike.compiled_eq hvw))
    rw [Event.compiled, Event.compiled, hv.compiled_eq, hall]
  | rooted h => rw [Event.compiled, Event.compiled, h.compiled_eq]

namespace Setting

variable (S : Setting)

/-- After one of the events the evaluation may have gone on although it was given up. -/
def GoneOn (events : List Event) : Prop :=
  ∃ e ∈ events, e.GoesOn S.options

variable {S}

theorem GoneOn.mono {events events' : List Event} (h : S.GoneOn events)
    (hsuffix : events <:+ events') : S.GoneOn events' := by
  obtain ⟨e, he, hgoes⟩ := h
  exact ⟨e, hsuffix.subset he, hgoes⟩

/-- Where nobody gives up, nobody can have gone on. -/
theorem GoneOn.passOn {events : List Event} (h : S.GoneOn events) : S.options.PassOn := by
  obtain ⟨e, -, hgoes⟩ := h
  exact S.orderly.resolve_right fun hsteady => hsteady.not_goesOn e hgoes

end Setting

/-- States of evaluations that did the same so far. -/
structure RunState.Agree (S : Setting) (s s' : RunState) : Prop where
  cancelled : s.cancelled = s'.cancelled
  nextLambda : s.nextLambda = s'.nextLambda
  events : s.events.map Event.compiled = s'.events.map Event.compiled
  memories : ∀ site, S.MemoryAgree site (s.memories.at site) (s'.memories.at site)

/-- Two sites that remember something else from now on, unless it is nothing, still agree. -/
theorem RunState.Agree.remember {S : Setting} {s s' : RunState} (h : RunState.Agree S s s')
    {site : Nat} {m m' : Memory} (hm : S.MemoryAgree site m m')
    (hkeeps : m = none → s.memories.at site = none)
    (hkeeps' : m' = none → s'.memories.at site = none) :
    RunState.Agree S { s with memories := s.memories.set site m }
      { s' with memories := s'.memories.set site m' } := by
  refine { h with memories := fun other => ?_ }
  simp only [Memories.at_set]
  split
  · next heq =>
    subst heq
    cases m <;> cases m' <;>
      simpa only [Option.none_or, Option.some_or, hkeeps, hkeeps', reduceCtorEq] using hm
  · exact h.memories other

/-- If the evaluation was given up, it may have gone on since. -/
def RunState.Explained (S : Setting) (s : RunState) : Prop :=
  s.cancelled = true → S.GoneOn s.events

/-- The first evaluation was given up, by someone after whom it may have gone on, and did nothing
that the second one did not do as well. -/
structure StopsShort (o : Options) {α β : Type} (x : Except EvalError α × RunState)
    (y : Except EvalError β × RunState) : Prop where
  result : x.1 = .error .cancelled
  goneOn : ∃ e ∈ x.2.events, e.GoesOn o
  events : x.2.events.map Event.compiled <:+ y.2.events.map Event.compiled

/-- The first one still stops short when the second one goes on. -/
theorem StopsShort.trans {o : Options} {α β γ δ : Type} {x : Except EvalError α × RunState}
    {y : Except EvalError β × RunState} {z : Except EvalError γ × RunState} (h : StopsShort o x y)
    (hevents : y.2.events <:+ z.2.events) :
    StopsShort o ((.error .cancelled : Except EvalError δ), x.2) z :=
  ⟨rfl, h.goneOn, h.events.trans (hevents.map _)⟩

/-- The outcomes are the same, or one of them stops short. A failure because the evaluation was
given up needs no explanation where it is passed on. -/
inductive ComeTogether (S : Setting) {α β : Type} (R : α → β → Prop)
    (x : Except EvalError α × RunState) (y : Except EvalError β × RunState) : Prop
  | same (hresult : ResultAgree R x.1 y.1) (hstate : RunState.Agree S x.2 y.2)
    (hexplained : x.1 = .error .cancelled ∧ S.options.PassOn ∨
      x.2.Explained S ∧ y.2.Explained S)
  | left (h : StopsShort S.options x y)
  | right (h : StopsShort S.options y x)

/-- From states that agree the evaluations come to the same, or one of them stops short. If `given`
is true, someone has to have given up before who may do so on the way. -/
def Together (S : Setting) (given : Prop) {α β : Type} (R : α → β → Prop) (x : EvalM α)
    (y : EvalM β) : Prop :=
  ∀ s s', RunState.Agree S s s' → s.Explained S → s'.Explained S →
    (given → S.GoneOn s.events ∧ S.GoneOn s'.events) →
      ComeTogether S R (x.outcome s) (y.outcome s')

/-- The scopes agree, and lambdas that agree are invoked alike from them. -/
structure ScopesTogether (S : Setting) (levels : Nat) (s s' : Scope) : Prop
    extends (agreement S.names).AlikeUnder S.options s s' where
  invoke : ∀ l k, (agreement S.names).AlikeLambda l k → ∀ vs ws,
    List.Forall₂ (agreement S.names).Alike vs ws →
      Together S False (agreement S.names).Alike (invokeWithin levels s l vs)
        (invokeWithin levels s' k ws)

namespace Together

variable {S : Setting} {given : Prop} {α β γ δ : Type} {R : α → β → Prop} {R' : γ → δ → Prop}

theorem mono {given' : Prop} {x : EvalM α} {y : EvalM β} (h : Together S given R x y)
    (himp : given → given') : Together S given' R x y :=
  fun s s' hs hexp hexp' hgiven => h s s' hs hexp hexp' fun h => hgiven (himp h)

/-! ## Putting evaluations together -/

theorem pure {a : α} {b : β} (h : R a b) : Together S given R (Pure.pure a) (Pure.pure b) :=
  fun _ _ hs hexp hexp' _ => .same (.ok h) hs (.inr ⟨hexp, hexp'⟩)

theorem throw (e : EvalError) :
    Together S given R (MonadExcept.throw e : EvalM α) (MonadExcept.throw e : EvalM β) :=
  fun _ _ hs hexp hexp' _ => .same (.error e) hs (.inr ⟨hexp, hexp'⟩)

/-- Where a failure because the evaluation was given up is passed on, nothing is done after it. -/
theorem outcome_handle_cancelled {x : EvalM α} {s : RunState}
    (hx : (x.outcome s).1 = .error .cancelled) (f : α → EvalM γ) {f' : EvalError → EvalM γ}
    (hf' : f' .cancelled = MonadExcept.throw .cancelled) :
    (EvalM.handle x f f').outcome s = (.error .cancelled, (x.outcome s).2) := by
  rw [EvalM.outcome_handle]
  rcases hresult : x.outcome s with ⟨r, t⟩
  rw [hresult] at hx
  obtain rfl : r = .error .cancelled := hx
  show (f' .cancelled).outcome t = _
  rw [hf']
  rfl

/-- Both go on with their results, or with the error that they fail with. That the evaluation was
given up is passed on, if formatters pass it on. -/
theorem handle {x : EvalM α} {y : EvalM β} [OnlyAdds x] [OnlyAdds y]
    (hxy : Together S given R x y) {f : α → EvalM γ} {g : β → EvalM δ} [∀ a, OnlyAdds (f a)]
    [∀ b, OnlyAdds (g b)] (hfg : ∀ a b, R a b → Together S given R' (f a) (g b))
    {f' : EvalError → EvalM γ} {g' : EvalError → EvalM δ} [∀ e, OnlyAdds (f' e)]
    [∀ e, OnlyAdds (g' e)] (hrescue : ∀ e, Together S given R' (f' e) (g' e))
    (hpass : S.options.PassOn → f' .cancelled = MonadExcept.throw .cancelled ∧
      g' .cancelled = MonadExcept.throw .cancelled) :
    Together S given R' (EvalM.handle x f f') (EvalM.handle y g g') := by
  intro s s' hs hexp hexp' hgiven
  have hgiven' : given → S.GoneOn (x.outcome s).2.events ∧ S.GoneOn (y.outcome s').2.events :=
    fun h => ⟨(hgiven h).1.mono (OnlyAdds.adds s), (hgiven h).2.mono (OnlyAdds.adds s')⟩
  cases hxy s s' hs hexp hexp' hgiven with
  | same hresult hstate hexplained =>
    rw [EvalM.outcome_handle, EvalM.outcome_handle]
    rcases hx : x.outcome s with ⟨r, t⟩
    rcases hy : y.outcome s' with ⟨r', t'⟩
    rw [hx, hy] at hresult hstate hexplained hgiven'
    cases hresult with
    | ok hab =>
      obtain ⟨hexp, hexp'⟩ := hexplained.resolve_left (by rintro ⟨⟨⟩, -⟩)
      exact hfg _ _ hab t t' hstate hexp hexp' hgiven'
    | error e =>
      rcases hexplained with ⟨hcancelled, hpasses⟩ | ⟨hexp, hexp'⟩
      · cases hcancelled
        obtain ⟨hf', hg'⟩ := hpass hpasses
        simp only [hf', hg']
        exact .same (.error .cancelled) hstate (.inl ⟨rfl, hpasses⟩)
      · exact hrescue e t t' hstate hexp hexp' hgiven'
  | left h =>
    rw [outcome_handle_cancelled h.result f (hpass (Setting.GoneOn.passOn h.goneOn)).1]
    exact .left (h.trans (OnlyAdds.suffix_handle y g g' s'))
  | right h =>
    rw [outcome_handle_cancelled h.result g (hpass (Setting.GoneOn.passOn h.goneOn)).2]
    exact .right (h.trans (OnlyAdds.suffix_handle x f f' s))

/-- One after the other: failures are passed on. -/
theorem bind {x : EvalM α} {y : EvalM β} [OnlyAdds x] [OnlyAdds y]
    (hxy : Together S given R x y) {f : α → EvalM γ} {g : β → EvalM δ} [∀ a, OnlyAdds (f a)]
    [∀ b, OnlyAdds (g b)] (hfg : ∀ a b, R a b → Together S given R' (f a) (g b)) :
    Together S given R' (x >>= f) (y >>= g) := by
  rw [EvalM.bind_eq_handle, EvalM.bind_eq_handle]
  exact handle hxy hfg (fun e => throw e) fun _ => ⟨rfl, rfl⟩

/-- Both go on with what they found, or without anything. -/
theorem bindOption {x : EvalM (Option α)} {y : EvalM (Option β)} [OnlyAdds x] [OnlyAdds y]
    (hxy : Together S given (Option.Rel R) x y) {f : Option α → EvalM γ} {g : Option β → EvalM δ}
    [OnlyAdds (f none)] [∀ a, OnlyAdds (f (some a))] [OnlyAdds (g none)]
    [∀ b, OnlyAdds (g (some b))] (hnone : Together S given R' (f none) (g none))
    (hsome : ∀ a b, R a b → Together S given R' (f (some a)) (g (some b))) :
    Together S given R' (x >>= f) (y >>= g) := by
  have hf : ∀ r, OnlyAdds (f r) := by
    rintro (_ | a) <;> infer_instance
  have hg : ∀ r, OnlyAdds (g r) := by
    rintro (_ | b) <;> infer_instance
  refine bind hxy fun r r' hr => ?_
  cases hr with
  | some hab => exact hsome _ _ hab
  | none => exact hnone

/-- Whether the evaluations look for whether they were given up makes no difference, but that one of
them may stop where the other one goes on. -/
theorem guardedIf {x : EvalM α} {y : EvalM β} [OnlyAdds x] [OnlyAdds y]
    (hxy : Together S given R x y) (b b' : Bool) :
    Together S given R (EvalM.guardedIf b x) (EvalM.guardedIf b' y) := by
  intro s s' hs hexp hexp' hgiven
  rw [EvalM.outcome_guardedIf, EvalM.outcome_guardedIf, ← hs.cancelled]
  cases hcancelled : s.cancelled with
  | false =>
    simp only [Bool.and_false]
    exact hxy s s' hs hexp hexp' hgiven
  | true =>
    have hevents := hs.events
    cases b <;> cases b'
    · exact hxy s s' hs hexp hexp' hgiven
    · exact .right ⟨rfl, hexp' (hs.cancelled ▸ hcancelled),
        hevents ▸ (OnlyAdds.adds (x := x) s).map _⟩
    · exact .left ⟨rfl, hexp hcancelled, hevents ▸ (OnlyAdds.adds (x := y) s').map _⟩
    · exact .same (.error .cancelled) hs (.inr ⟨hexp, hexp'⟩)

theorem guarded {x : EvalM α} {y : EvalM β} [OnlyAdds x] [OnlyAdds y]
    (hxy : Together S given R x y) : Together S given R (EvalM.guarded x) (EvalM.guarded y) :=
  hxy.guardedIf true true

/-! ## Steps -/

/-- After the same event. If the evaluation can go on after it, whoever gives up then may do so. -/
theorem record {x : EvalM α} {y : EvalM β} {e e' : Event} (he : e.compiled = e'.compiled)
    {goesOn : Prop} (hgoes : goesOn → e.GoesOn S.options ∧ e'.GoesOn S.options)
    (hxy : Together S (goesOn ∨ given) R x y) :
    Together S given R (do EvalM.record e; x) (do EvalM.record e'; y) := by
  intro s s' hs hexp hexp' hgiven
  have hsuffix := List.suffix_cons e s.events
  have hsuffix' := List.suffix_cons e' s'.events
  refine hxy { s with events := e :: s.events } { s' with events := e' :: s'.events }
    { hs with events := by simp only [List.map_cons, he, hs.events] }
    (fun h => (hexp h).mono hsuffix) (fun h => (hexp' h).mono hsuffix') ?_
  rintro (h | h)
  · exact ⟨⟨e, List.mem_cons_self, (hgoes h).1⟩, ⟨e', List.mem_cons_self, (hgoes h).2⟩⟩
  · exact ⟨(hgiven h).1.mono hsuffix, (hgiven h).2.mono hsuffix'⟩

theorem recordAll {events events' : List Event}
    (h : List.Forall₂ (agreement S.names).AlikeEvent events events') :
    Together S given (· = ·) (EvalM.recordAll events) (EvalM.recordAll events') := by
  induction h with
  | nil => exact .pure rfl
  | cons he _ ih => exact record he.compiled_eq (fun h : False => h.elim) (ih.mono .inr)

/-- Giving up where someone gives up after whom evaluations may go on. -/
theorem cancel (h : given) : Together S given (· = ·) EvalM.cancel EvalM.cancel :=
  fun _ _ hs _ _ hgiven => .same (.ok rfl) { hs with cancelled := rfl }
    (.inr ⟨fun _ => (hgiven h).1, fun _ => (hgiven h).2⟩)

theorem cancelIf {b : Bool} (h : b = true → given) :
    Together S given (· = ·) (EvalM.cancelIf b) (EvalM.cancelIf b) := by
  cases b with
  | true => exact cancel (h rfl)
  | false => exact .pure rfl

/-- Where nothing is done after giving up, nothing has to be known of who gives up. -/
theorem cancel_guarded {x : EvalM α} {y : EvalM β} (hpass : S.options.PassOn) :
    Together S given R (do EvalM.cancel; EvalM.guarded x) (do EvalM.cancel; EvalM.guarded y) :=
  fun _ _ hs _ _ _ => .same (.error .cancelled) { hs with cancelled := rfl } (.inl ⟨rfl, hpass⟩)

theorem freshLambda : Together S given (· = ·) EvalM.freshLambda EvalM.freshLambda :=
  fun _ _ hs hexp hexp' _ => .same (.ok hs.nextLambda)
    { hs with nextLambda := congrArg (· + 1) hs.nextLambda } (.inr ⟨hexp, hexp'⟩)

/-- Calls that agree mean the same overload, at a site of the formatter. -/
theorem resolveAt (site : Nat) {v w : Value} (hv : (agreement S.names).Alike v w)
    {as bs : List Supplied} (has : List.Forall₂ (agreement S.names).AlikeSupplied as bs) :
    Together S given (Option.Rel fun r r' => r = r' ∧ S.Chosen r)
      (EvalM.resolveAt site S.options.registry S.options.matching (S.names site) v as)
      (EvalM.resolveAt site S.options.registry S.options.matching (S.names site) w bs) := by
  intro s s' hs hexp hexp' _
  obtain ⟨hresolution, hchosen, hmemory⟩ := Setting.consult_agree (hs.memories site) hv has
  refine .same (.ok ?_)
    (hs.remember hmemory Registry.eq_none_of_memory Registry.eq_none_of_memory)
    (.inr ⟨hexp, hexp'⟩)
  rw [← hresolution]
  generalize Consultation.resolution _ = choice at hchosen ⊢
  cases choice with
  | none => exact .none
  | some made => exact .some ⟨rfl, hchosen made rfl⟩

/-- Lambdas agree that are made of one expression. -/
theorem makeLambda {c d : Context} (parameters : List String) {b b' : LambdaBody}
    (hb : b.Agree S.names b') (h : (agreement S.names).AlikeContext c d) :
    Together S given (agreement S.names).AlikeContext (EvalM.makeLambda parameters b c)
      (EvalM.makeLambda parameters b' d) := by
  refine .bind freshLambda fun i j hij => .pure (h.synthetic (Likeness.alike_lambda ?_))
  exact Lambda.alikeBy_iff.mpr ⟨⟨hij, rfl, hb⟩, Likeness.alikeContext_nearestNatural h⟩

end Together

/-! ## Paths and calls -/

namespace ScopesTogether

open Together

variable {S : Setting} {given : Prop} {α β : Type} {R : α → β → Prop} {levels : Nat} {s s' : Scope}
  {c d : Context} (hs : ScopesTogether S levels s s')

include hs

/-- Paths lead to the same, or end at the same member that is not there. -/
theorem resolve (start : PathStart) (parts : Path) (h : (agreement S.names).AlikeContext c d) :
    Together S given (agreement S.names).AlikeContext (EvalM.resolve s start parts c)
      (EvalM.resolve s' start parts d) := by
  obtain ⟨hcontext, hmissing⟩ := hs.alike.follow parts parts start h
  have hroots := List.forall₂_map_left_iff.mpr (List.forall₂_map_right_iff.mpr
    ((hs.alike.roots start parts h).imp fun _ _ hxy => Likeness.AlikeEvent.rooted hxy))
  unfold EvalM.resolve EvalM.reach Path.reach
  simp only [hmissing, hs.alike.options, hs.options]
  cases (Path.follow parts s' start parts d).missing with
  | none => exact .bind (recordAll hroots) fun _ _ _ => .pure hcontext
  | some u =>
    simp only [bind_assoc, pure_bind, Option.any_some]
    have htold : S.options.stopsOn u = true →
        (Event.unresolved u).GoesOn S.options ∧ (Event.unresolved u).GoesOn S.options :=
      fun h => ⟨.told h, .told h⟩
    exact .bind (recordAll hroots) fun _ _ _ =>
      record rfl htold (.bind (cancelIf .inl) fun _ _ _ => .pure hcontext)

/-- Routines that agree are run alike. That one of them gives up has to have been given. -/
theorem runRoutine {x : Routine α} {y : Routine β} (h : (agreement S.names).AlikeRoutine R x y)
    (hgives : x.MayGiveUp ∧ y.MayGiveUp → given)
    (hpass : S.options.PassOn → x.PassesOn ∧ y.PassesOn) (seen : List EvalError) :
    Together S given R (x.run (invokeWithin levels s) seen)
      (y.run (invokeWithin levels s') seen) := by
  induction h generalizing seen with
  | done h => exact .pure h
  | fail e => exact .throw _
  | ask hl hvs _ _ ih ihrescue =>
    refine .handle ((hs.invoke _ _ hl _ _ hvs).mono False.elim) (fun v w hvw => ?_) (fun e => ?_)
      fun h => ?_
    · exact ih v w hvw (fun ⟨hx, hy⟩ => hgives ⟨.next v hx, .next w hy⟩)
        (fun h => ⟨(hpass h).1.2.1 v, (hpass h).2.2.1 w⟩) seen
    · exact ihrescue e (fun ⟨hx, hy⟩ => hgives ⟨.rescue e hx, .rescue e hy⟩)
        (fun h => ⟨(hpass h).1.2.2 e, (hpass h).2.2.2 e⟩) (e :: seen)
    · obtain ⟨⟨hx, -⟩, ⟨hy, -⟩⟩ := hpass h
      rw [hx, hy]
      exact ⟨congrArg MonadExcept.throw (ite_self _), congrArg MonadExcept.throw (ite_self _)⟩
  | cancel _ ih =>
    exact .bind (cancel (hgives ⟨.here _, .here _⟩)) fun _ _ _ =>
      ih (fun _ => hgives ⟨.here _, .here _⟩) hpass seen
  | pause _ ih =>
    exact .guarded (ih (fun ⟨hx, hy⟩ => hgives ⟨.pause hx, .pause hy⟩) hpass seen)

/-- What an overload does in calls that agree. That the evaluation goes on although the overload
gives it up has to have been given. -/
theorem runSignature {σ : Signature} (hσ : σ ∈ S.options.registry.signatures)
    (hrespects : σ.Respects (agreement S.names)) {call call' : Call}
    (hcall : (agreement S.names).AlikeCall call call')
    (hgives : σ.GoesOn call ∧ σ.GoesOn call' → given) :
    Together S given (agreement S.names).Alike
      (do
        EvalM.cancelIf (σ.cancels call)
        match σ.action with
        | .compute f => return f call
        | .wait f => EvalM.guarded ((f call).run (invokeWithin levels s) []))
      (do
        EvalM.cancelIf (σ.cancels call')
        match σ.action with
        | .compute f => return f call'
        | .wait f => EvalM.guarded ((f call').run (invokeWithin levels s') [])) := by
  have haction := hrespects.action
  have hpass : S.options.PassOn → σ.PassesOn call ∧ σ.PassesOn call' :=
    fun h => ⟨h σ hσ call, h σ hσ call'⟩
  rw [← hrespects.cancels _ _ hcall]
  unfold Signature.GoesOn at hgives
  unfold Signature.PassesOn at hpass
  cases hkind : σ.action with
  | compute f =>
    rw [hkind] at haction hgives
    have hcancels := hrespects.cancels _ _ hcall
    exact .bind (cancelIf fun h => hgives ⟨h, hcancels ▸ h⟩) fun _ _ _ =>
      .pure (haction _ _ hcall)
  | wait f =>
    rw [hkind] at haction hgives hpass
    cases hcancels : σ.cancels call with
    | true =>
      -- The result is not waited for.
      refine cancel_guarded (S.orderly.resolve_right fun hsteady => ?_)
      rw [hsteady.stays σ hσ] at hcancels
      cases hcancels
    | false => exact .guarded (hs.runRoutine (haction _ _ hcall) hgives hpass [])

/-- A chosen overload does the same in calls that agree. -/
theorem execute {r : Resolution} (hr : S.Chosen r) {v w : Value}
    (hv : (agreement S.names).Alike v w) {as bs : List Supplied}
    (has : List.Forall₂ (agreement S.names).AlikeSupplied as bs) :
    Together S given (agreement S.names).Alike (EvalM.execute (invokeWithin levels) s r v as)
      (EvalM.execute (invokeWithin levels) s' r w bs) := by
  have hvalue := Conversion.apply_alike hr.respects.valueConversion hv
  have hbound : List.Forall₂ (agreement S.names).Alike (r.bindings.map (Binding.value as))
      (r.bindings.map (Binding.value bs)) :=
    List.forall₂_map_left_iff.mpr (List.forall₂_map_right_iff.mpr
      (List.forall₂_same.mpr fun b hb => Binding.value_alike (hr.respects.bindings b hb) has))
  let call : Call := ⟨r.valueConversion.apply v, r.bindings.map (Binding.value as), r.types,
    S.options.culture, s.depth, S.options.isFalsey⟩
  let call' : Call := ⟨r.valueConversion.apply w, r.bindings.map (Binding.value bs), r.types,
    S.options.culture, s'.depth, S.options.isFalsey⟩
  have hcall : (agreement S.names).AlikeCall call call' :=
    ⟨hvalue, hbound, rfl, rfl, hs.alike.depth, S.respects.isFalsey⟩
  unfold EvalM.execute Resolution.bind
  rw [hs.alike.options, hs.options]
  have hran : r.signature.GoesOn call ∧ r.signature.GoesOn call' →
      (Event.invoked r.signature call.value call.arguments).GoesOn S.options ∧
        (Event.invoked r.signature call'.value call'.arguments).GoesOn S.options :=
    fun h => ⟨.ran hr.registered h.1, .ran hr.registered h.2⟩
  refine record (Likeness.AlikeEvent.compiled_eq (.invoked _ hvalue hbound)) hran ?_
  exact hs.runSignature hr.registered hr.respects.signature hcall .inl

/-- A call of a formatter at a site of its own. -/
theorem callFormatter (site : Nat) (h : (agreement S.names).AlikeContext c d)
    {as bs : List Supplied} (has : List.Forall₂ (agreement S.names).AlikeSupplied as bs) :
    Together S given (agreement S.names).AlikeContext
      (EvalM.callFormatter (invokeWithin levels) s site (S.names site) c as)
      (EvalM.callFormatter (invokeWithin levels) s' site (S.names site) d bs) := by
  unfold EvalM.callFormatter
  rw [hs.alike.options, hs.options]
  rw [h.value.type_eq, has.length_eq]
  have htold : ∀ u, S.options.stopsOn u = true →
      (Event.unresolved u).GoesOn S.options ∧ (Event.unresolved u).GoesOn S.options :=
    fun u h => ⟨.told h, .told h⟩
  refine bindOption (resolveAt site h.value has) ?_ ?_
  · exact record rfl (htold _) (.bind (cancelIf .inl) fun _ _ _ =>
      .pure (h.synthetic Likeness.alike_null))
  · rintro r _ ⟨rfl, hr⟩
    exact .bind (hs.execute hr h.value has) fun _ _ hv => .pure (h.synthetic hv)

end ScopesTogether

end Stencil
