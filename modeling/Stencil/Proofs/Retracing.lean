import Stencil.Proofs.Calls
import Stencil.Proofs.Composition
import Stencil.Proofs.SiteMaps

/-!
# Evaluating moved code

Code and the same code at other sites do alike, if sites that are related give alike calls the same
answer. `L.Carries rel o Q` says what this takes of a likeness `L` of values and a relation `Q` of
states: lambdas are alike if their numbers are alike and their bodies moved, and a call at a site
keeps the relation.

One induction over code and one over trees show what evaluations in scopes and on contexts that are
alike come to, where lambdas are invoked alike (`Carries.enter`, `Carries.walkFrom`); induction on
the levels that are left shows that they are (`Carries.invokeWithin`).
-/

namespace Stencil

namespace Likeness

/-- Calls at related sites keep the relation of states, and so do the other steps of evaluations,
under the options `o`. -/
structure Carries (L : Likeness) (rel : Nat → Nat → Prop) (o : Options)
    (Q : RunState → RunState → Prop) : Prop extends L.Keeps Q where
  lambdas : ∀ {l k}, L.AlikeLambda l k ↔ L.AlikeId l.id k.id ∧ l.parameters = k.parameters ∧
    l.body.Moved rel k.body ∧ L.AlikeContext l.captured k.captured
  rooted : ∀ {c d}, L.AlikeContext c d →
    Relates Q (· = ·) (EvalM.record (.rooted c)) (EvalM.record (.rooted d))
  resolveAt : ∀ {site site'}, rel site site' → ∀ (name : String) {v w : Value}, L.Alike v w →
    ∀ {as bs : List Supplied}, List.Forall₂ L.AlikeSupplied as bs →
      Relates Q (fun x y => x = y ∧ ∀ made ∈ x, made.Respects L)
        (EvalM.resolveAt site o.registry o.matching name v as)
        (EvalM.resolveAt site' o.registry o.matching name w bs)

/-- Lambdas that are alike are invoked alike, and keep the relation of states. -/
def Invokes (L : Likeness) (o : Options) (Q : RunState → RunState → Prop)
    (invoke invoke' : Invoke) : Prop :=
  ∀ s s', L.AlikeUnder o s s' → ∀ l k, L.AlikeLambda l k → ∀ vs ws, List.Forall₂ L.Alike vs ws →
    Relates Q L.Alike (invoke s l vs) (invoke' s' k ws)

/-- A level deeper the scopes are still alike, or neither goes deeper. -/
theorem AlikeUnder.relates_descend {L : Likeness} {o : Options} {s s' : Scope}
    (h : L.AlikeUnder o s s') {Q : RunState → RunState → Prop} :
    Relates Q (L.AlikeUnder o) (invokeWithin.liftExcept s.descend)
      (invokeWithin.liftExcept s'.descend) := by
  have hinner := h.descend
  generalize s.descend = r at hinner
  generalize s'.descend = r' at hinner
  cases hinner with
  | ok hinner => exact .pure hinner
  | error e => exact .throw e

namespace Carries

variable {L : Likeness} {rel : Nat → Nat → Prop} {o : Options} {Q : RunState → RunState → Prop}
  {invoke invoke' : Invoke} {s s' : Scope}

theorem makeLambda (hQ : L.Carries rel o Q) (parameters : List String) {b b' : LambdaBody}
    (hb : b.Moved rel b') {c d : Context} (h : L.AlikeContext c d) :
    Relates Q L.AlikeContext (EvalM.makeLambda parameters b c)
      (EvalM.makeLambda parameters b' d) :=
  hQ.toKeeps.makeLambda
    (fun _ _ hid => hQ.lambdas.mpr ⟨hid, rfl, hb, alikeContext_nearestNatural h⟩) h

theorem recordRoots (hQ : L.Carries rel o Q) {roots roots' : List Context}
    (h : List.Forall₂ L.AlikeContext roots roots') :
    Relates Q (· = ·) (EvalM.recordAll (roots.map .rooted))
      (EvalM.recordAll (roots'.map .rooted)) := by
  induction h with
  | nil => exact .pure rfl
  | cons hroot _ ih => exact .bind (hQ.rooted hroot) fun _ _ _ => ih

theorem resolve (hQ : L.Carries rel o Q) (hs : L.AlikeUnder o s s') (start : PathStart)
    (parts : Path) {c d : Context} (h : L.AlikeContext c d) :
    Relates Q L.AlikeContext (EvalM.resolve s start parts c) (EvalM.resolve s' start parts d) :=
  hQ.toKeeps.resolve hs.alike start parts h (hQ.recordRoots (hs.alike.roots start parts h))

theorem callFormatter (hQ : L.Carries rel o Q) (hinvoke : L.Invokes o Q invoke invoke')
    (hs : L.AlikeUnder o s s') {site site' : Nat} (hsite : rel site site') (name : String)
    {c d : Context} (h : L.AlikeContext c d) {as bs : List Supplied}
    (has : List.Forall₂ L.AlikeSupplied as bs) :
    Relates Q L.AlikeContext (EvalM.callFormatter invoke s site name c as)
      (EvalM.callFormatter invoke' s' site' name d bs) := by
  have hresolve := hQ.resolveAt hsite name h.value has
  rw [← hs.options] at hresolve
  exact hQ.toKeeps.callFormatter hs.alike (hinvoke s s' hs) h has hresolve

mutual

/-- By induction over the code. -/
theorem enter (hQ : L.Carries rel o Q) (hinvoke : L.Invokes o Q invoke invoke')
    (hs : L.AlikeUnder o s s') : ∀ {code code' : Code}, code.Moved rel code' →
    ∀ {c d : Context}, L.AlikeContext c d →
      Relates Q L.AlikeContext (code.enter invoke s c) (code'.enter invoke' s' d)
  | .constant value, _, h, _, _, hcd => by
    cases h
    exact .pure (hcd.synthetic (alike_literal value))
  | .stay, _, h, _, _, hcd => by
    cases h
    exact .pure hcd
  | .resolve start parts, _, h, _, _, hcd => by
    cases h
    exact hQ.resolve hs start parts hcd
  | .group inner, _, h, _, _, hcd => by
    cases h with
    | group h => exact hQ.guarded (enter hQ hinvoke hs h (alikeContext_nearestNatural hcd))
  | .call site start parts name args, _, h, _, _, hcd => by
    cases h with
    | call hsite _ _ _ hargs =>
      refine .bind (hQ.resolve hs start parts hcd) fun _ _ htarget => ?_
      refine .bind (runArguments hQ hinvoke hs hargs (alikeContext_nearestNatural hcd))
        fun _ _ hsupplied => ?_
      exact hQ.callFormatter hinvoke hs hsite name htarget hsupplied
  | .chain links, _, h, _, _, hcd => by
    cases h with
    | chain h => exact runLinks hQ hinvoke hs h hcd
  | .sequence items, _, h, _, _, hcd => by
    cases h with
    | sequence h => exact runLast hQ hinvoke hs h hcd (hcd.synthetic alike_null)
  | .collect items, _, h, _, _, hcd => by
    cases h with
    | collect h =>
      exact .bind (runEach hQ hinvoke hs h hcd) fun _ _ hvs =>
        .pure (hcd.synthetic (alike_array hvs))
  | .unary site op operand, _, h, _, _, hcd => by
    cases h with
    | unary hsite _ h =>
      refine .bind (hQ.guarded (enter hQ hinvoke hs h hcd)) fun _ _ htarget => ?_
      exact hQ.callFormatter hinvoke hs hsite _ htarget .nil
  | .binary site op left right, _, h, _, _, hcd => by
    cases h with
    | binary hsite _ hleft hright =>
      refine .bind (hQ.guarded (enter hQ hinvoke hs hleft hcd)) fun _ _ htarget => ?_
      refine .bind (hQ.guarded (enter hQ hinvoke hs hright hcd)) fun _ _ hother => ?_
      exact hQ.callFormatter hinvoke hs hsite _ htarget (.cons ⟨rfl, hother.value⟩ .nil)
  | .lambda parameters body, _, h, _, _, hcd => by
    cases h with
    | lambda _ h => exact hQ.makeLambda parameters (.code h) hcd
termination_by structural code => code

theorem runLinks (hQ : L.Carries rel o Q) (hinvoke : L.Invokes o Q invoke invoke')
    (hs : L.AlikeUnder o s s') : ∀ {links links' : List Code},
    List.Forall₂ (Code.Moved rel) links links' → ∀ {c d : Context}, L.AlikeContext c d →
      Relates Q L.AlikeContext (Code.runLinks invoke s links c) (Code.runLinks invoke' s' links' d)
  | [], _, .nil, _, _, hcd => .pure hcd
  | _ :: _, _, .cons h hrest, _, _, hcd =>
    .bind (hQ.guarded (enter hQ hinvoke hs h hcd)) fun _ _ hnext =>
      runLinks hQ hinvoke hs hrest hnext
termination_by structural links => links

theorem runLast (hQ : L.Carries rel o Q) (hinvoke : L.Invokes o Q invoke invoke')
    (hs : L.AlikeUnder o s s') : ∀ {items items' : List Code},
    List.Forall₂ (Code.Moved rel) items items' → ∀ {c d last last' : Context},
    L.AlikeContext c d → L.AlikeContext last last' →
      Relates Q L.AlikeContext (Code.runLast invoke s items c last)
        (Code.runLast invoke' s' items' d last')
  | [], _, .nil, _, _, _, _, _, hlast => .pure hlast
  | _ :: _, _, .cons h hrest, _, _, _, _, hcd, _ =>
    .bind (hQ.guarded (enter hQ hinvoke hs h hcd)) fun _ _ hlast =>
      runLast hQ hinvoke hs hrest hcd hlast
termination_by structural items => items

theorem runEach (hQ : L.Carries rel o Q) (hinvoke : L.Invokes o Q invoke invoke')
    (hs : L.AlikeUnder o s s') : ∀ {items items' : List Code},
    List.Forall₂ (Code.Moved rel) items items' → ∀ {c d : Context}, L.AlikeContext c d →
      Relates Q (List.Forall₂ L.Alike) (Code.runEach invoke s items c)
        (Code.runEach invoke' s' items' d)
  | [], _, .nil, _, _, _ => .pure .nil
  | _ :: _, _, .cons h hrest, _, _, hcd =>
    .bind (hQ.guarded (enter hQ hinvoke hs h hcd)) fun _ _ hresult =>
      .bind (runEach hQ hinvoke hs hrest hcd) fun _ _ hvs => .pure (.cons hresult.value hvs)
termination_by structural items => items

theorem runArguments (hQ : L.Carries rel o Q) (hinvoke : L.Invokes o Q invoke invoke')
    (hs : L.AlikeUnder o s s') : ∀ {args args' : List CodeArgument},
    List.Forall₂ (CodeArgument.Moved rel) args args' → ∀ {c d : Context}, L.AlikeContext c d →
      Relates Q (List.Forall₂ L.AlikeSupplied) (CodeArgument.runEach invoke s args c)
        (CodeArgument.runEach invoke' s' args' d)
  | [], _, .nil, _, _, _ => .pure .nil
  | .constant name value :: _, _, .cons h hrest, _, _, hcd => by
    cases h
    exact .bind (runArguments hQ hinvoke hs hrest hcd) fun _ _ hsupplied =>
      .pure (.cons ⟨rfl, alike_literal value⟩ hsupplied)
  | .computed name code :: _, _, .cons h hrest, _, _, hcd => by
    cases h with
    | computed _ h =>
      exact .bind (hQ.guarded (enter hQ hinvoke hs h hcd)) fun _ _ hresult =>
        .bind (runArguments hQ hinvoke hs hrest hcd) fun _ _ hsupplied =>
          .pure (.cons ⟨rfl, hresult.value⟩ hsupplied)
termination_by structural args => args

end

mutual

/-- By induction over the tree. -/
theorem walkFrom (hQ : L.Carries rel o Q) (hinvoke : L.Invokes o Q invoke invoke')
    (hs : L.AlikeUnder o s s') : ∀ {e e' : Expr}, e.Moved rel e' → ∀ (start : PathStart)
    {c d : Context}, L.AlikeContext c d →
      Relates Q L.AlikeContext (e.walkFrom invoke s start c) (e'.walkFrom invoke' s' start d)
  | .path _ parts, _, h, start, _, _, hcd => by
    cases h
    exact hQ.resolve hs start parts hcd
  | .call _ site parts name args, _, h, start, _, _, hcd => by
    cases h with
    | @call _ _ _ _ hsite _ _ _ args' hargs =>
      have hnatural := alikeContext_nearestNatural hcd
      have hbracket : isBracketCall name args = isBracketCall name args' := by
        rw [isBracketCall, isBracketCall, hargs.length_eq]
      unfold Expr.walkFrom
      rw [hbracket]
      split
      · exact walkFirst hQ hinvoke hs hargs hnatural
      · refine .bind (hQ.resolve hs start parts hcd) fun _ _ htarget => ?_
        refine .bind (walkArguments hQ hinvoke hs hargs hnatural) fun _ _ hsupplied => ?_
        exact hQ.callFormatter hinvoke hs hsite name htarget hsupplied
  | .string _ _ fragments, _, h, _, _, _, hcd => by
    cases h with
    | string _ hvalue =>
      rw [Expr.walkFrom, Expr.walkFrom, hvalue]
      exact .pure (hcd.synthetic (alike_string _))
  | .number _ _ value, _, h, _, _, _, hcd => by
    cases h
    exact .pure (hcd.synthetic (alike_literal (.number value)))
  | .list _ .chain items, _, h, _, _, _, hcd => by
    cases h with
    | list _ h => exact walkLinks hQ hinvoke hs h .scope hcd
  | .list _ .bracket items, _, h, _, _, _, hcd => by
    cases h with
    | list _ h => exact walkLast hQ hinvoke hs h hcd (hcd.synthetic alike_null)
  | .list _ .arguments items, _, h, _, _, _, hcd => by
    cases h with
    | list _ h =>
      exact .bind (walkEach hQ hinvoke hs h hcd) fun _ _ hvs =>
        .pure (hcd.synthetic (alike_array hvs))
  | .unary _ site op operand, _, h, _, _, _, hcd => by
    cases h with
    | unary hsite _ h =>
      refine .bind (hQ.guarded (walkFrom hQ hinvoke hs h .scope hcd)) fun _ _ htarget => ?_
      exact hQ.callFormatter hinvoke hs hsite _ htarget .nil
  | .binary _ site op left right, _, h, _, _, _, hcd => by
    cases h with
    | binary hsite _ hleft hright =>
      refine .bind (hQ.guarded (walkFrom hQ hinvoke hs hleft .scope hcd)) fun _ _ htarget => ?_
      refine .bind (hQ.guarded (walkFrom hQ hinvoke hs hright .scope hcd)) fun _ _ hother => ?_
      exact hQ.callFormatter hinvoke hs hsite _ htarget (.cons ⟨rfl, hother.value⟩ .nil)
  | .lambda _ parameters body, _, h, _, _, _, hcd => by
    cases h with
    | @lambda _ _ _ parameters' _ _ hparameters hbody =>
      have hnames : parameters.parameterNames = parameters'.parameterNames := by
        rw [← Expr.parameterNames_plain parameters, hparameters, Expr.parameterNames_plain]
      unfold Expr.walkFrom
      rw [hnames]
      exact hQ.makeLambda _ (.tree hbody) hcd
termination_by structural e => e

theorem walkLinks (hQ : L.Carries rel o Q) (hinvoke : L.Invokes o Q invoke invoke')
    (hs : L.AlikeUnder o s s') : ∀ {items items' : List Expr},
    List.Forall₂ (Expr.Moved rel) items items' → ∀ (start : PathStart) {c d : Context},
    L.AlikeContext c d →
      Relates Q L.AlikeContext (Expr.walkLinks invoke s start items c)
        (Expr.walkLinks invoke' s' start items' d)
  | [], _, .nil, _, _, _, hcd => .pure hcd
  | e :: _, _, .cons (b := e') h hrest, start, _, _, hcd => by
    have hpath : e.isPath = e'.isPath := by cases h <;> rfl
    have hlinks := Relates.bind (walkFrom hQ hinvoke hs h start hcd) fun _ _ hnext =>
      walkLinks hQ hinvoke hs hrest .member hnext
    unfold Expr.walkLinks
    rw [hpath]
    -- both are guarded or neither is
    split
    · exact hlinks
    · exact .bind hQ.checkpoint fun _ _ _ => hlinks
termination_by structural items => items

theorem walkLast (hQ : L.Carries rel o Q) (hinvoke : L.Invokes o Q invoke invoke')
    (hs : L.AlikeUnder o s s') : ∀ {items items' : List Expr},
    List.Forall₂ (Expr.Moved rel) items items' → ∀ {c d last last' : Context},
    L.AlikeContext c d → L.AlikeContext last last' →
      Relates Q L.AlikeContext (Expr.walkLast invoke s items c last)
        (Expr.walkLast invoke' s' items' d last')
  | [], _, .nil, _, _, _, _, _, hlast => .pure hlast
  | _ :: _, _, .cons h hrest, _, _, _, _, hcd, _ =>
    .bind (hQ.guarded (walkFrom hQ hinvoke hs h .scope hcd)) fun _ _ hlast =>
      walkLast hQ hinvoke hs hrest hcd hlast
termination_by structural items => items

theorem walkEach (hQ : L.Carries rel o Q) (hinvoke : L.Invokes o Q invoke invoke')
    (hs : L.AlikeUnder o s s') : ∀ {items items' : List Expr},
    List.Forall₂ (Expr.Moved rel) items items' → ∀ {c d : Context}, L.AlikeContext c d →
      Relates Q (List.Forall₂ L.Alike) (Expr.walkEach invoke s items c)
        (Expr.walkEach invoke' s' items' d)
  | [], _, .nil, _, _, _ => .pure .nil
  | _ :: _, _, .cons h hrest, _, _, hcd =>
    .bind (hQ.guarded (walkFrom hQ hinvoke hs h .scope hcd)) fun _ _ hresult =>
      .bind (walkEach hQ hinvoke hs hrest hcd) fun _ _ hvs => .pure (.cons hresult.value hvs)
termination_by structural items => items

theorem walkFirst (hQ : L.Carries rel o Q) (hinvoke : L.Invokes o Q invoke invoke')
    (hs : L.AlikeUnder o s s') : ∀ {args args' : List Argument},
    List.Forall₂ (Argument.Moved rel) args args' → ∀ {c d : Context}, L.AlikeContext c d →
      Relates Q L.AlikeContext (Argument.walkFirst invoke s args c)
        (Argument.walkFirst invoke' s' args' d)
  | [], _, .nil, _, _, hcd => .pure hcd
  | ⟨_, _, _⟩ :: _, _, .cons h _, _, _, hcd => by
    cases h with
    | mk _ h => exact hQ.guarded (walkFrom hQ hinvoke hs h .scope hcd)
termination_by structural args => args

theorem walkArguments (hQ : L.Carries rel o Q) (hinvoke : L.Invokes o Q invoke invoke')
    (hs : L.AlikeUnder o s s') : ∀ {args args' : List Argument},
    List.Forall₂ (Argument.Moved rel) args args' → ∀ {c d : Context}, L.AlikeContext c d →
      Relates Q (List.Forall₂ L.AlikeSupplied) (Argument.walkEach invoke s args c)
        (Argument.walkEach invoke' s' args' d)
  | [], _, .nil, _, _, _ => .pure .nil
  | ⟨_, _, _⟩ :: _, _, .cons h hrest, _, _, hcd => by
    cases h with
    | mk _ h =>
      exact .bind (hQ.guarded (walkFrom hQ hinvoke hs h .scope hcd)) fun _ _ hresult =>
        .bind (walkArguments hQ hinvoke hs hrest hcd) fun _ _ hsupplied =>
          .pure (.cons ⟨rfl, hresult.value⟩ hsupplied)
termination_by structural args => args

end

theorem evaluate (hQ : L.Carries rel o Q) (hinvoke : L.Invokes o Q invoke invoke')
    (hs : L.AlikeUnder o s s') {c d : Context} (hcd : L.AlikeContext c d) {b b' : LambdaBody}
    (hb : b.Moved rel b') :
    Relates Q L.AlikeContext (b.evaluate invoke s c) (b'.evaluate invoke' s' d) := by
  cases hb with
  | tree h => exact hQ.guarded (walkFrom hQ hinvoke hs h .scope hcd)
  | code h => exact hQ.guarded (enter hQ hinvoke hs h hcd)

/-- By induction on the levels: lambdas that are alike are invoked alike. -/
theorem invokeWithin (hQ : L.Carries rel o Q) (levels : Nat) :
    L.Invokes o Q (invokeWithin levels) (invokeWithin levels) := by
  induction levels with
  | zero =>
    intro s s' hs _ _ _ _ _ _
    unfold Stencil.invokeWithin
    rw [hs.alike.depth, hs.alike.options]
    exact .throw _
  | succ levels ih =>
    intro s s' hs l k hl vs ws hvs
    obtain ⟨-, hparameters, hbody, hcaptured⟩ := hQ.lambdas.mp hl
    rw [invokeWithin_succ, invokeWithin_succ, hparameters]
    refine .bind hs.relates_descend fun inner inner' hinner => ?_
    have hbound := hinner.bindAll k.parameters hvs
    exact .bind (hQ.evaluate ih hbound hcaptured hbody) fun _ _ hab =>
      .pure hab.value

end Carries

end Likeness

end Stencil
