import Stencil.Proofs.Lambdas
import Stencil.Proofs.Likewise
import Stencil.Proofs.Retracing
import Stencil.Proofs.Standing

/-!
# Where root selectors lead in an evaluation

An evaluation records where each root selector leads that it comes to (`Event.rooted`).
`Expr.RootsIn P start e c` follows an expression on a context through its operands, arguments, items
and links and into the bodies of lambdas, which remember where they were made, and says that root
selectors lead only to contexts with the property `P`, whatever formatters give and in whatever
scope. The links of a chain are followed on all that the links before can come to.

This is what evaluations record, in either form (`Expr.rootsIn_evalFrom`), as long as lambdas that
were there before are such as well: values are alike here if this holds of all lambdas in them. So
formatters that do not look into lambdas invoke no others.

Main statement: `Expr.roots_evaluate`.
-/

namespace Stencil

/-! ## Root selectors of an expression -/

/-- The root selectors of the path lead to contexts with the property, in all scopes. -/
def Path.RootsIn (P : Context → Prop) (start : PathStart) (parts : Path) (c : Context) : Prop :=
  ∀ scope : Scope, ∀ x ∈ Path.roots scope start parts c, P x

theorem Path.rootsIn_nil {P : Context → Prop} (start : PathStart) (c : Context) :
    Path.RootsIn P start [] c := by
  rintro _ _ ⟨⟩

theorem Path.rootsIn_cons {P : Context → Prop} {start : PathStart} {p : Part} {rest : Path}
    {c : Context} (h : ∀ (scope : Scope) (d : Context), p.step? scope start c = some d →
      (p.kind = .root → P d) ∧ Path.RootsIn P .member rest d) :
    Path.RootsIn P start (p :: rest) c := by
  intro scope
  unfold Path.roots
  split
  · next d hstep =>
    obtain ⟨hd, hrest⟩ := h scope d hstep
    dsimp only
    split
    · next hkind => exact List.forall_mem_cons.mpr ⟨hd (eq_of_beq hkind), hrest scope⟩
    · exact hrest scope
  · rintro _ ⟨⟩

section

variable (P : Context → Prop)

mutual

/-- Wherever the evaluation of the expression on the context comes to a root selector, it leads to a
context with the property. -/
def Expr.RootsIn (start : PathStart) : Expr → Context → Prop
  | .path _ parts, c => Path.RootsIn P start parts c
  | .call _ _ parts name args, c =>
    (isBracketCall name args = false → Path.RootsIn P start parts c) ∧
      Argument.AllRootsIn args c.nearestNatural
  | .string _ _ _, _ | .number _ _ _, _ => True
  | .list _ .chain items, c => Expr.LinksRootsIn .scope items c
  | .list _ .bracket items, c | .list _ .arguments items, c => Expr.AllRootsIn items c
  | .unary _ _ _ operand, c => operand.RootsIn .scope c
  | .binary _ _ _ left right, c => left.RootsIn .scope c ∧ right.RootsIn .scope c
  | .lambda _ _ body, c => body.RootsIn .scope c.nearestNatural

/-- The same for the links of a chain, each on all that the one before can come to. -/
def Expr.LinksRootsIn (start : PathStart) : List Expr → Context → Prop
  | [], _ => True
  | e :: rest, c => e.RootsIn start c ∧
    ∀ (scope : Scope) (next : Context), e.CanGive scope start c next →
      Expr.LinksRootsIn .member rest next

/-- The same for expressions on one context. -/
def Expr.AllRootsIn : List Expr → Context → Prop
  | [], _ => True
  | e :: rest, c => e.RootsIn .scope c ∧ Expr.AllRootsIn rest c

/-- The same for the arguments of a call. -/
def Argument.AllRootsIn : List Argument → Context → Prop
  | [], _ => True
  | ⟨_, _, e⟩ :: rest, c => e.RootsIn .scope c ∧ Argument.AllRootsIn rest c

end

/-- The body of the lambda is an expression, in either form, whose root selectors lead to contexts
with the property from where the lambda was made. -/
def Lambda.RootsIn (l : Lambda) : Prop :=
  ∃ form : Form, ∃ e : Expr, l.body = form.body e ∧ e.RootsIn P .scope l.captured

/-- Values are alike that are the same, and whose lambdas look for the root in contexts with the
property only. -/
def rootsIn : Likeness :=
  .ofLambdas Eq.congr
    (fun l k => l.id = k.id ∧ l.parameters = k.parameters ∧ l.body = k.body ∧ l.RootsIn P) And.left

/-- Evaluations did alike so far, and in the first one root selectors led to contexts with the
property only. -/
def RootedState (s s' : RunState) : Prop :=
  (rootsIn P).AlikeState s s' ∧ ∀ x, Event.rooted x ∈ s.events → P x

end

/-- The contexts that root selectors led to, in order. -/
def RunState.roots (s : RunState) : List Context :=
  s.events.reverse.filterMap fun
    | .rooted x => some x
    | .unresolved _ | .invoked _ _ _ => none

theorem RunState.rooted_of_mem_roots {s : RunState} {x : Context} (h : x ∈ s.roots) :
    Event.rooted x ∈ s.events := by
  obtain ⟨e, he, hx⟩ := List.mem_filterMap.mp h
  cases e with
  | rooted y =>
    obtain rfl := Option.some.inj hx
    exact List.mem_reverse.mp he
  | unresolved | invoked => cases hx

open EvalM Likeness

/-! ## Steps -/

/-- What is known of all results of the first evaluation is known of related results. -/
theorem Relates.and_yields {Q : RunState → RunState → Prop} {α β : Type} {R : α → β → Prop}
    {S : α → Prop} {x : EvalM α} {y : EvalM β} (h : Relates Q R x y) (hx : Yields S x) :
    Relates Q (fun a b => S a ∧ R a b) x y := by
  intro s s' hs
  obtain ⟨hresult, hstate⟩ := h s s' hs
  refine ⟨?_, hstate⟩
  have hx := hx s
  generalize x.outcome s = r at hresult hx
  generalize (y.outcome s').1 = r' at hresult
  obtain ⟨r, t⟩ := r
  cases hresult with
  | ok hab => exact .ok ⟨hx _ t rfl, hab⟩
  | error e => exact .error e

section

variable {P : Context → Prop}

theorem keeps_rootedState : (rootsIn P).Keeps (RootedState P) where
  checkpoint s s' hs := by
    obtain ⟨hresult, hstate⟩ := Likewise.checkpoint s s' hs.1
    rw [outcome_checkpoint] at hresult hstate ⊢
    exact ⟨hresult, hstate, hs.2⟩
  unresolved u s s' hs := by
    refine ⟨.ok rfl, (Likewise.record (.unresolved u) s s' hs.1).2, fun x hx => ?_⟩
    obtain ⟨⟩ | ⟨-, hx⟩ := hx
    exact hs.2 x hx
  invoked σ _ _ hv _ _ hvs s s' hs := by
    refine ⟨.ok rfl, (Likewise.record (.invoked σ hv hvs) s s' hs.1).2, fun x hx => ?_⟩
    obtain ⟨⟩ | ⟨-, hx⟩ := hx
    exact hs.2 x hx
  cancel s s' hs := ⟨.ok rfl, (Likewise.cancel s s' hs.1).2, hs.2⟩
  freshLambda s s' hs :=
    have hids : ∀ i, (rootsIn P).AlikeId i i := fun _ => rfl
    ⟨(Likewise.freshLambda hids s s' hs.1).1, (Likewise.freshLambda hids s s' hs.1).2, hs.2⟩

/-- Root selectors that lead to contexts with the property are recorded. -/
theorem recordRoots {roots roots' : List Context} (hP : ∀ x ∈ roots, P x)
    (h : List.Forall₂ (rootsIn P).AlikeContext roots roots') :
    Relates (RootedState P) (· = ·) (recordAll (roots.map .rooted))
      (recordAll (roots'.map .rooted)) := by
  induction h with
  | nil => exact .pure rfl
  | @cons x _ _ _ hx _ ih =>
    rw [List.forall_mem_cons] at hP
    refine .bind (R := (· = ·)) (fun s s' hs => ?_) fun _ _ _ => ih hP.2
    refine ⟨.ok rfl, (Likewise.record (.rooted hx) s s' hs.1).2, fun y hy => ?_⟩
    obtain ⟨⟩ | ⟨-, hy⟩ := hy
    · exact hP.1
    · exact hs.2 y hy

end

section

variable {P : Context → Prop} {o : Options} {form : Form} {invoke invoke' : Invoke}
  {s s' : Scope}

theorem resolve_rootedState (hs : (rootsIn P).AlikeUnder o s s') {start : PathStart} {parts : Path}
    {c d : Context} (hP : Path.RootsIn P start parts c) (h : (rootsIn P).AlikeContext c d) :
    Relates (RootedState P) (rootsIn P).AlikeContext (resolve s start parts c)
      (resolve s' start parts d) :=
  keeps_rootedState.resolve hs.alike start parts h
    (recordRoots (hP s) (hs.alike.roots start parts h))

theorem callFormatter_rootedState (ho : o.Respects (rootsIn P))
    (hinvoke : (rootsIn P).Invokes o (RootedState P) invoke invoke')
    (hs : (rootsIn P).AlikeUnder o s s') (site : Nat) (name : String) {c d : Context}
    (h : (rootsIn P).AlikeContext c d) {as bs : List Supplied}
    (has : List.Forall₂ (rootsIn P).AlikeSupplied as bs) :
    Relates (RootedState P) (rootsIn P).AlikeContext (callFormatter invoke s site name c as)
      (callFormatter invoke' s' site name d bs) := by
  refine keeps_rootedState.callFormatter hs.alike (hinvoke s s' hs) h has ?_
  rw [hs.options]
  intro t t' ht
  have hresolve := Likewise.resolveAt ho.registry site o.matching name h.value has t t' ht.1
  exact ⟨hresolve.1, hresolve.2, ht.2⟩

theorem valueOf_rootedState (form : Form) (e : Expr) {x y : EvalM Context}
    (h : Relates (RootedState P) (rootsIn P).AlikeContext x y) :
    Relates (RootedState P) (rootsIn P).Alike (form.valueOf e x) (form.valueOf e y) := by
  unfold Form.valueOf
  split
  · exact .pure (alike_literal _)
  · rw [map_eq_pure_bind, map_eq_pure_bind]
    exact .bind (keeps_rootedState.guarded h) fun _ _ hab => .pure hab.value

theorem guardedIf_rootedState (b : Bool) {x y : EvalM Context}
    (h : Relates (RootedState P) (rootsIn P).AlikeContext x y) :
    Relates (RootedState P) (rootsIn P).AlikeContext (guardedIf b x) (guardedIf b y) := by
  cases b with
  | true => exact keeps_rootedState.guarded h
  | false => exact h

mutual

/-- By induction over the tree: root selectors lead where `Expr.RootsIn` says. -/
theorem Expr.rootsIn_evalFrom (ho : o.Respects (rootsIn P))
    (hinvoke : (rootsIn P).Invokes o (RootedState P) invoke invoke')
    (hs : (rootsIn P).AlikeUnder o s s') : ∀ (e : Expr) (start : PathStart) {c d : Context},
    e.RootsIn P start c → (rootsIn P).AlikeContext c d →
      Relates (RootedState P) (rootsIn P).AlikeContext (e.evalFrom form invoke s start c)
        (e.evalFrom form invoke' s' start d)
  | .path _ _, _, _, _, hP, h => resolve_rootedState hs hP h
  | .call _ site parts name args, start, c, d, hP, h => by
    obtain ⟨hpath, hargs⟩ := hP
    have hnatural := alikeContext_nearestNatural h
    unfold Expr.evalFrom
    cases hbracket : isBracketCall name args with
    | true => exact Argument.rootsIn_evalFirst ho hinvoke hs args hargs hnatural
    | false =>
      refine .bind (resolve_rootedState hs (hpath hbracket) h) fun _ _ htarget => ?_
      refine .bind (Argument.rootsIn_evalEach ho hinvoke hs args hargs hnatural) fun _ _ has => ?_
      exact callFormatter_rootedState ho hinvoke hs site name htarget has
  | .string _ _ _, _, _, _, _, h => .pure (h.synthetic (alike_string _))
  | .number _ _ value, _, _, _, _, h => .pure (h.synthetic (alike_literal (.number value)))
  | .list _ .chain items, _, _, _, hP, h => Expr.rootsIn_evalLinks ho hinvoke hs items .scope hP h
  | .list _ .bracket items, _, _, _, hP, h =>
    Expr.rootsIn_evalLast ho hinvoke hs items hP h (h.synthetic alike_null)
  | .list _ .arguments items, _, _, _, hP, h =>
    .bind (Expr.rootsIn_evalEach ho hinvoke hs items hP h) fun _ _ hvs =>
      .pure (h.synthetic (alike_array hvs))
  | .unary _ site op operand, _, _, _, hP, h =>
    .bind (keeps_rootedState.guarded (Expr.rootsIn_evalFrom ho hinvoke hs operand .scope hP h))
      fun _ _ htarget => callFormatter_rootedState ho hinvoke hs site op.formatterName htarget .nil
  | .binary _ site op left right, _, _, _, hP, h =>
    .bind (keeps_rootedState.guarded (Expr.rootsIn_evalFrom ho hinvoke hs left .scope hP.1 h))
      fun _ _ htarget =>
        .bind (keeps_rootedState.guarded (Expr.rootsIn_evalFrom ho hinvoke hs right .scope hP.2 h))
          fun _ _ hother => callFormatter_rootedState ho hinvoke hs site op.formatterName htarget
            (.cons ⟨rfl, hother.value⟩ .nil)
  | .lambda _ parameters body, _, _, _, hP, h => by
    -- The lambda remembers where it is made, and there its body has been followed.
    refine keeps_rootedState.makeLambda (fun i j hij => ?_) h
    exact Lambda.alikeBy_iff.mpr
      ⟨⟨hij, rfl, rfl, form, body, rfl, hP⟩, alikeContext_nearestNatural h⟩

theorem Expr.rootsIn_evalLinks (ho : o.Respects (rootsIn P))
    (hinvoke : (rootsIn P).Invokes o (RootedState P) invoke invoke')
    (hs : (rootsIn P).AlikeUnder o s s') : ∀ (items : List Expr) (start : PathStart)
    {c d : Context}, Expr.LinksRootsIn P start items c → (rootsIn P).AlikeContext c d →
      Relates (RootedState P) (rootsIn P).AlikeContext (Expr.evalLinks form invoke s start items c)
        (Expr.evalLinks form invoke' s' start items d)
  | [], _, _, _, _, h => .pure h
  | e :: rest, start, c, _, ⟨hfirst, hrest⟩, h => by
    have hlink := guardedIf_rootedState (form.checks start e)
      (Expr.rootsIn_evalFrom ho hinvoke hs e start hfirst h)
    refine .bind (hlink.and_yields ((e.canGive_evalFrom start c).guardedIf _)) ?_
    rintro next _ ⟨hgive, hnext⟩
    exact Expr.rootsIn_evalLinks ho hinvoke hs rest .member (hrest s next hgive) hnext

theorem Expr.rootsIn_evalLast (ho : o.Respects (rootsIn P))
    (hinvoke : (rootsIn P).Invokes o (RootedState P) invoke invoke')
    (hs : (rootsIn P).AlikeUnder o s s') : ∀ (items : List Expr) {c d last last' : Context},
    Expr.AllRootsIn P items c → (rootsIn P).AlikeContext c d →
      (rootsIn P).AlikeContext last last' →
        Relates (RootedState P) (rootsIn P).AlikeContext (Expr.evalLast form invoke s items c last)
          (Expr.evalLast form invoke' s' items d last')
  | [], _, _, _, _, _, _, hlast => .pure hlast
  | e :: rest, _, _, _, _, ⟨hfirst, hrest⟩, h, _ =>
    .bind (keeps_rootedState.guarded (Expr.rootsIn_evalFrom ho hinvoke hs e .scope hfirst h))
      fun _ _ hlast => Expr.rootsIn_evalLast ho hinvoke hs rest hrest h hlast

theorem Expr.rootsIn_evalEach (ho : o.Respects (rootsIn P))
    (hinvoke : (rootsIn P).Invokes o (RootedState P) invoke invoke')
    (hs : (rootsIn P).AlikeUnder o s s') : ∀ (items : List Expr) {c d : Context},
    Expr.AllRootsIn P items c → (rootsIn P).AlikeContext c d →
      Relates (RootedState P) (List.Forall₂ (rootsIn P).Alike)
        (Expr.evalEach form invoke s items c) (Expr.evalEach form invoke' s' items d)
  | [], _, _, _, _ => .pure .nil
  | e :: rest, _, _, ⟨hfirst, hrest⟩, h =>
    .bind (keeps_rootedState.guarded (Expr.rootsIn_evalFrom ho hinvoke hs e .scope hfirst h))
      fun _ _ hresult => .bind (Expr.rootsIn_evalEach ho hinvoke hs rest hrest h) fun _ _ hvs =>
        .pure (.cons hresult.value hvs)

theorem Argument.rootsIn_evalFirst (ho : o.Respects (rootsIn P))
    (hinvoke : (rootsIn P).Invokes o (RootedState P) invoke invoke')
    (hs : (rootsIn P).AlikeUnder o s s') : ∀ (args : List Argument) {c d : Context},
    Argument.AllRootsIn P args c → (rootsIn P).AlikeContext c d →
      Relates (RootedState P) (rootsIn P).AlikeContext (Argument.evalFirst form invoke s args c)
        (Argument.evalFirst form invoke' s' args d)
  | [], _, _, _, h => .pure h
  | ⟨_, _, e⟩ :: _, _, _, hP, h =>
    keeps_rootedState.guarded (Expr.rootsIn_evalFrom ho hinvoke hs e .scope hP.1 h)

theorem Argument.rootsIn_evalEach (ho : o.Respects (rootsIn P))
    (hinvoke : (rootsIn P).Invokes o (RootedState P) invoke invoke')
    (hs : (rootsIn P).AlikeUnder o s s') : ∀ (args : List Argument) {c d : Context},
    Argument.AllRootsIn P args c → (rootsIn P).AlikeContext c d →
      Relates (RootedState P) (List.Forall₂ (rootsIn P).AlikeSupplied)
        (Argument.evalEach form invoke s args c) (Argument.evalEach form invoke' s' args d)
  | [], _, _, _, _ => .pure .nil
  | ⟨_, _, e⟩ :: rest, _, _, ⟨hfirst, hrest⟩, h =>
    .bind (valueOf_rootedState form e
      (Expr.rootsIn_evalFrom ho hinvoke hs e .scope hfirst h)) fun _ _ hv =>
        .bind (Argument.rootsIn_evalEach ho hinvoke hs rest hrest h) fun _ _ hvs =>
          .pure (.cons ⟨rfl, hv⟩ hvs)

end

/-- By induction on the levels that are left: lambdas that are alike are invoked alike. -/
theorem invokes_rootedState (ho : o.Respects (rootsIn P)) (levels : Nat) :
    (rootsIn P).Invokes o (RootedState P) (invokeWithin levels) (invokeWithin levels) := by
  induction levels with
  | zero =>
    intro s s' hs l k _ vs ws _
    unfold invokeWithin
    rw [hs.alike.depth, hs.alike.options]
    exact .throw _
  | succ levels ih =>
    intro s s' hs l k hl vs ws hvs
    obtain ⟨⟨-, hparameters, hsame, form, e, hbody, hP⟩, hcaptured⟩ := Lambda.alikeBy_iff.mp hl
    rw [invokeWithin_succ, invokeWithin_succ, ← hparameters, ← hsame, hbody]
    refine .bind hs.relates_descend fun inner inner' hinner => ?_
    have hbound := hinner.bindAll l.parameters hvs
    simp only [form.evaluate_body]
    refine .bind (R := (rootsIn P).AlikeContext) ?_ fun _ _ hresult => .pure hresult.value
    exact keeps_rootedState.guarded (e.rootsIn_evalFrom ho ih hbound .scope hP hcaptured)

end

/-! ## Choices in advance -/

section Prepare

variable {L : Likeness} {o : Options} {ms : Memories}

/-- All choices that sites remember are of formatters that respect the likeness. -/
def Memories.Respect (L : Likeness) (ms : Memories) : Prop :=
  ∀ site, ∀ r ∈ ms.at site, r.Respects L

theorem Memories.Respect.prepare (ho : o.registry.Respects L) (site : Nat) (op : Operator)
    (left right : Code) (h : ms.Respect L) : (ms.prepare o site op left right).Respect L := by
  unfold Memories.prepare
  split
  · exact Memories.forall_set h
      (Registry.consult_forall _ _ _ _ (h site) fun _ => Registry.resolve_respects ho).2
  · exact h

mutual

/-- By induction over the code. -/
theorem Code.prepare_respect (ho : o.registry.Respects L) : ∀ (code : Code) {ms : Memories},
    ms.Respect L → (code.prepare o ms).Respect L
  | .constant _, _, h | .stay, _, h | .resolve _ _, _, h => h
  | .group inner, _, h => Code.prepare_respect ho inner h
  | .call _ _ _ _ args, _, h => CodeArgument.prepareAll_respect ho args h
  | .chain items, _, h | .sequence items, _, h | .collect items, _, h =>
    Code.prepareAll_respect ho items h
  | .unary _ _ operand, _, h => Code.prepare_respect ho operand h
  | .binary site op left right, _, h =>
    Code.prepare_respect ho right
      (Code.prepare_respect ho left (h.prepare ho site op left right))
  | .lambda _ body, _, h => Code.prepare_respect ho body h

theorem Code.prepareAll_respect (ho : o.registry.Respects L) : ∀ (items : List Code)
    {ms : Memories}, ms.Respect L → (Code.prepareAll o items ms).Respect L
  | [], _, h => h
  | code :: rest, _, h => Code.prepareAll_respect ho rest (Code.prepare_respect ho code h)

theorem CodeArgument.prepareAll_respect (ho : o.registry.Respects L) :
    ∀ (args : List CodeArgument) {ms : Memories}, ms.Respect L →
      (CodeArgument.prepareAll o args ms).Respect L
  | [], _, h => h
  | .constant _ _ :: rest, _, h => CodeArgument.prepareAll_respect ho rest h
  | .computed _ code :: rest, _, h =>
    CodeArgument.prepareAll_respect ho rest (Code.prepare_respect ho code h)

end

end Prepare

/-! ## Evaluations -/

section

variable {P : Context → Prop}

theorem Context.alike_rootsIn {c : Context} (h : ∀ l, c.Reaches l → l.RootsIn P) :
    (rootsIn P).AlikeContext c c :=
  c.alikeBy_self fun l hl => ⟨rfl, rfl, rfl, h l hl⟩

theorem Scope.alike_rootsIn {s : Scope} (ho : s.options.Respects (rootsIn P))
    (h : ∀ l, s.Reaches l → l.RootsIn P) : (rootsIn P).AlikeUnder s.options s s := by
  have hframes : ∀ f ∈ s.frames, List.Forall₂ (rootsIn P).AlikeMember f f := fun f hf =>
    List.forall₂_same.mpr fun m hm =>
      ⟨rfl, m.2.alikeBy_self fun l hl => ⟨rfl, rfl, rfl, h l ⟨f, hf, m, hm, hl⟩⟩⟩
  refine ⟨⟨rfl, ho, hframes _ List.mem_cons_self, ?_, rfl⟩, rfl⟩
  exact List.forall₂_same.mpr fun f hf => hframes f (List.mem_cons_of_mem _ hf)

/-- Where root selectors lead while an expression is evaluated in either form. -/
theorem Expr.roots_evaluate {e : Expr} {scope : Scope} {c : Context} {s : RunState}
    (ho : scope.options.Respects (rootsIn P)) (hmemories : s.memories.Respect (rootsIn P))
    (hevents : s.events = []) (he : e.RootsIn P .scope c)
    (hlambdas : ∀ l, scope.Reaches l ∨ c.Reaches l → l.RootsIn P) (form : Form) :
    ∀ x ∈ (((form.body e).evaluate (invokeWithin scope.levels) scope c).outcome s).2.roots,
      P x := by
  intro x hx
  have hscope := Scope.alike_rootsIn ho fun l hl => hlambdas l (.inl hl)
  have hcontext := Context.alike_rootsIn fun l hl => hlambdas l (.inr hl)
  have hstate : RootedState P s s := by
    refine ⟨⟨rfl, hmemories, rfl, ?_, rfl⟩, ?_⟩
    · rw [hevents]
      exact .nil
    · rw [hevents]
      rintro _ ⟨⟩
  have hinvoke := invokes_rootedState ho scope.levels
  have hevaluated : Relates (RootedState P) (rootsIn P).AlikeContext
      ((form.body e).evaluate (invokeWithin scope.levels) scope c)
      ((form.body e).evaluate (invokeWithin scope.levels) scope c) := by
    rw [form.evaluate_body]
    exact keeps_rootedState.guarded (e.rootsIn_evalFrom ho hinvoke hscope .scope he hcontext)
  exact (hevaluated s s hstate).2.2 x (RunState.rooted_of_mem_roots hx)

end

end Stencil
