import Stencil.Proofs.Scopes

/-!
# Calls that are alike

Two evaluations are compared by a relation of their states. `L.Keeps Q` says of a relation what it
takes to be kept by evaluations that do alike: the same checkpoints are passed, both give up, events
that are alike are recorded, and lambdas get numbers that are alike. Then it is kept when paths are
followed, formatters called and lambdas made in scopes and contexts that are alike. What a site
remembers is left open: of a call it has to be known that both evaluations choose the same overload
(`Keeps.callFormatter`). It is also left open where root selectors lead (`Keeps.resolve`).
-/

namespace Stencil

namespace Likeness

/-- The same event, but for lambdas. -/
inductive AlikeEvent (L : Likeness) : Event → Event → Prop
  | unresolved (u : Unresolved) : AlikeEvent L (.unresolved u) (.unresolved u)
  | invoked (s : Signature) {v w : Value} {as bs : List Value} (hv : L.Alike v w)
    (has : List.Forall₂ L.Alike as bs) : AlikeEvent L (.invoked s v as) (.invoked s w bs)
  | rooted {c d : Context} (h : L.AlikeContext c d) : AlikeEvent L (.rooted c) (.rooted d)

/-- Evaluations that do alike keep the relation, but for what sites remember and where root
selectors lead. -/
structure Keeps (L : Likeness) (Q : RunState → RunState → Prop) : Prop where
  checkpoint : Relates Q (· = ·) EvalM.checkpoint EvalM.checkpoint
  unresolved : ∀ u : Unresolved,
    Relates Q (· = ·) (EvalM.record (.unresolved u)) (EvalM.record (.unresolved u))
  invoked : ∀ (s : Signature) {v w : Value}, L.Alike v w → ∀ {vs ws : List Value},
    List.Forall₂ L.Alike vs ws →
      Relates Q (· = ·) (EvalM.record (.invoked s v vs)) (EvalM.record (.invoked s w ws))
  cancel : Relates Q (· = ·) EvalM.cancel EvalM.cancel
  freshLambda : Relates Q L.AlikeId EvalM.freshLambda EvalM.freshLambda

namespace Keeps

variable {L : Likeness} {Q : RunState → RunState → Prop} (hQ : L.Keeps Q)

include hQ

theorem guarded {α β : Type} {R : α → β → Prop} {x : EvalM α} {y : EvalM β}
    (h : Relates Q R x y) : Relates Q R (EvalM.guarded x) (EvalM.guarded y) :=
  .bind hQ.checkpoint fun _ _ _ => h

theorem cancelIf (b : Bool) : Relates Q (· = ·) (EvalM.cancelIf b) (EvalM.cancelIf b) := by
  cases b with
  | true => exact hQ.cancel
  | false => exact .pure rfl

theorem runRoutine {invoke invoke' : Lambda → List Value → EvalM Value}
    (hinvoke : ∀ l k, L.AlikeLambda l k → ∀ vs ws, List.Forall₂ L.Alike vs ws →
      Relates Q L.Alike (invoke l vs) (invoke' k ws))
    {α β : Type} {R : α → β → Prop} {x : Routine α} {y : Routine β} (h : L.AlikeRoutine R x y)
    (seen : List EvalError) : Relates Q R (x.run invoke seen) (y.run invoke' seen) := by
  induction h generalizing seen with
  | done h => exact .pure h
  | fail e => exact .throw _
  | ask hl hvs _ _ ih ihrescue =>
    exact .handle (hinvoke _ _ hl _ _ hvs) (fun v w hvw => ih v w hvw seen) fun e =>
      ihrescue e (e :: seen)
  | cancel _ ih => exact .bind hQ.cancel fun _ _ _ => ih seen
  | pause _ ih => exact hQ.guarded (ih seen)

variable {c d : Context} {s s' : Scope} (hs : L.AlikeScope s s')

theorem makeLambda {parameters : List String} {b b' : LambdaBody}
    (hmake : ∀ i j, L.AlikeId i j → L.AlikeLambda ⟨i, parameters, b, c.nearestNatural⟩
      ⟨j, parameters, b', d.nearestNatural⟩) (h : L.AlikeContext c d) :
    Relates Q L.AlikeContext (EvalM.makeLambda parameters b c)
      (EvalM.makeLambda parameters b' d) :=
  .bind hQ.freshLambda fun i j hij => .pure (h.synthetic (alike_lambda (hmake i j hij)))

include hs

theorem reach (start : PathStart) (parts : Path) (h : L.AlikeContext c d) :
    Relates Q L.AlikeContext (EvalM.reach s start parts c) (EvalM.reach s' start parts d) := by
  obtain ⟨hcontext, hmissing⟩ := hs.follow parts parts start h
  unfold EvalM.reach Path.reach
  simp only [hmissing]
  cases (Path.follow parts s' start parts d).missing with
  | none => exact .pure hcontext
  | some u => exact .bind (hQ.unresolved u) fun _ _ _ => .pure hcontext

theorem resolve (start : PathStart) (parts : Path) (h : L.AlikeContext c d)
    (hroots : Relates Q (· = ·)
      (EvalM.recordAll ((Path.roots s start parts c).map .rooted))
      (EvalM.recordAll ((Path.roots s' start parts d).map .rooted))) :
    Relates Q L.AlikeContext (EvalM.resolve s start parts c) (EvalM.resolve s' start parts d) := by
  have hmissing := (hs.follow parts parts start h).2
  unfold EvalM.resolve
  refine .bind hroots fun _ _ _ => ?_
  refine .bind (hQ.reach hs start parts h) fun _ _ htarget => ?_
  simp only [Path.reach, hmissing, hs.options]
  exact .bind (hQ.cancelIf _) fun _ _ _ => .pure htarget

variable {invoke invoke' : Invoke} (hinvoke : ∀ l k, L.AlikeLambda l k → ∀ vs ws,
  List.Forall₂ L.Alike vs ws → Relates Q L.Alike (invoke s l vs) (invoke' s' k ws))

include hinvoke

/-- An overload does alike in calls that are alike. -/
theorem execute {r : Resolution} (hr : r.Respects L) {v w : Value} (hv : L.Alike v w)
    {as bs : List Supplied} (has : List.Forall₂ L.AlikeSupplied as bs) :
    Relates Q L.Alike (EvalM.execute invoke s r v as) (EvalM.execute invoke' s' r w bs) := by
  have hvalue := Conversion.apply_alike hr.valueConversion hv
  have hbound : List.Forall₂ L.Alike (r.bindings.map (Binding.value as))
      (r.bindings.map (Binding.value bs)) :=
    List.forall₂_map_left_iff.mpr (List.forall₂_map_right_iff.mpr
      (List.forall₂_same.mpr fun b hb => Binding.value_alike (hr.bindings b hb) has))
  have hcall : L.AlikeCall
      ⟨r.valueConversion.apply v, r.bindings.map (Binding.value as), r.types,
        s'.options.culture, s.depth, s'.options.isFalsey⟩
      ⟨r.valueConversion.apply w, r.bindings.map (Binding.value bs), r.types,
        s'.options.culture, s'.depth, s'.options.isFalsey⟩ :=
    ⟨hvalue, hbound, rfl, rfl, hs.depth, hs.respects.isFalsey⟩
  unfold EvalM.execute Resolution.bind
  rw [hs.options]
  refine .bind (hQ.invoked _ hvalue hbound) fun _ _ _ => ?_
  simp only [hr.signature.cancels _ _ hcall]
  refine .bind (hQ.cancelIf _) fun _ _ _ => ?_
  have haction := hr.signature.action
  cases haction' : r.signature.action with
  | compute f =>
    rw [haction'] at haction
    exact .pure (haction _ _ hcall)
  | wait f =>
    rw [haction'] at haction
    exact hQ.guarded (hQ.runRoutine hinvoke (haction _ _ hcall) [])

theorem callFormatter {site site' : Nat} {name : String} (h : L.AlikeContext c d)
    {as bs : List Supplied} (has : List.Forall₂ L.AlikeSupplied as bs)
    (hresolve : Relates Q (fun x y => x = y ∧ ∀ made ∈ x, made.Respects L)
      (EvalM.resolveAt site s'.options.registry s'.options.matching name c.value as)
      (EvalM.resolveAt site' s'.options.registry s'.options.matching name d.value bs)) :
    Relates Q L.AlikeContext (EvalM.callFormatter invoke s site name c as)
      (EvalM.callFormatter invoke' s' site' name d bs) := by
  unfold EvalM.callFormatter
  rw [hs.options]
  refine .bind hresolve ?_
  rintro r _ ⟨rfl, hr⟩
  cases r with
  | some r =>
    exact .bind (hQ.execute hs hinvoke (hr r rfl) h.value has) fun _ _ hv =>
      .pure (h.synthetic hv)
  | none =>
    rw [h.value.type_eq, has.length_eq]
    exact .bind (hQ.unresolved _) fun _ _ _ =>
      .bind (hQ.cancelIf _) fun _ _ _ => .pure (h.synthetic alike_null)

end Keeps

end Likeness

end Stencil
