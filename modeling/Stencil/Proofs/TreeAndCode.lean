import Stencil.Proofs.Sites
import Stencil.Proofs.Together

/-!
# Trees and their code

An expression is evaluated in either form with the same result, or one of the evaluations stops
short after someone gave it up. For one expression this is an induction over the tree, with a case
for each kind of node (`hs.evalFrom`). An invoked lambda is no part of the tree, so
around it there is an induction on the levels that are left below a scope (`invoke_together`): on
each level a lambda is invoked on the level below.

Where nobody gives up, nothing stops short, and walking a tree and running its code come to the
same. What a site remembers was chosen for one formatter, so this takes that no site is used for
two. In a tree that was numbered each call has a site of its own.

Main statement: `walk_eq_run`.
-/

namespace Stencil

/-! ## Events stay -/

namespace OnlyAdds

section

variable (form : Form) (levels : Nat) (scope : Scope)

instance evalFrom (e : Expr) (start : PathStart) (c : Context) :
    OnlyAdds (e.evalFrom form (Stencil.invokeWithin levels) scope start c) := by
  cases form with
  | tree =>
    rw [← e.walkFrom_eq]
    exact (respects levels scope).walkFrom e start c
  | code =>
    rw [← e.enter_codeFrom_eq]
    exact (respects levels scope).enter (e.codeFrom start) c

instance evalLinks (items : List Expr) (start : PathStart) (c : Context) :
    OnlyAdds (Expr.evalLinks form (Stencil.invokeWithin levels) scope start items c) := by
  cases form with
  | tree =>
    rw [← Expr.walkLinks_eq]
    exact (respects levels scope).walkLinks items start c
  | code =>
    rw [← Expr.runLinks_eq]
    exact (respects levels scope).runLinks (Expr.linkCodes start items) c

instance evalLast (items : List Expr) (c last : Context) :
    OnlyAdds (Expr.evalLast form (Stencil.invokeWithin levels) scope items c last) := by
  cases form with
  | tree =>
    rw [← Expr.walkLast_eq]
    exact (respects levels scope).walkLast items c last
  | code =>
    rw [← Expr.runLast_eq]
    exact (respects levels scope).runLast (Expr.codes items) c last

instance evalEach (items : List Expr) (c : Context) :
    OnlyAdds (Expr.evalEach form (Stencil.invokeWithin levels) scope items c) := by
  cases form with
  | tree =>
    rw [← Expr.walkEach_eq]
    exact (respects levels scope).walkEach items c
  | code =>
    rw [← Expr.runEach_eq]
    exact (respects levels scope).runEach (Expr.codes items) c

instance evalArguments (args : List Argument) (c : Context) :
    OnlyAdds (Argument.evalEach form (Stencil.invokeWithin levels) scope args c) := by
  cases form with
  | tree =>
    rw [← Argument.walkEach_eq]
    exact (respects levels scope).walkArguments args c
  | code =>
    rw [← Argument.runEach_eq]
    exact (respects levels scope).runArguments (Argument.codes args) c

instance evaluate (body : LambdaBody) (c : Context) :
    OnlyAdds (body.evaluate (Stencil.invokeWithin levels) scope c) :=
  (respects levels scope).evaluate body c

end

instance map {α β : Type} (f : α → β) (x : EvalM α) [OnlyAdds x] : OnlyAdds (f <$> x) :=
  bind x fun a => Pure.pure (f a)

instance valueOf (form : Form) (e : Expr) (x : EvalM Context) [OnlyAdds x] :
    OnlyAdds (form.valueOf e x) := by
  unfold Form.valueOf
  split <;> infer_instance

instance liftExcept {α : Type} (r : Except EvalError α) :
    OnlyAdds (invokeWithin.liftExcept r) := by
  cases r with
  | ok a => exact pure a
  | error e => exact throw e

end OnlyAdds

/-! ## One level -/

section Level

variable {S : Setting} {levels : Nat} {s s' : Scope} {c d : Context}

/-- Arguments have values that agree, whether they are known or evaluated. -/
theorem Together.valueOf (form form' : Form) {e : Expr}
    (h : Together S False (agreement S.names).AlikeContext
      (e.evalFrom form (invokeWithin levels) s .scope c)
      (e.evalFrom form' (invokeWithin levels) s' .scope d)) :
    Together S False (agreement S.names).Alike
      (form.valueOf e (e.evalFrom form (invokeWithin levels) s .scope c))
      (form'.valueOf e (e.evalFrom form' (invokeWithin levels) s' .scope d)) := by
  cases hliteral : e.literal? with
  | some l =>
    obtain ⟨b, hb⟩ := form.exists_valueOf_literal hliteral c
    obtain ⟨b', hb'⟩ := form'.exists_valueOf_literal hliteral d
    rw [hb, hb']
    exact .guardedIf (.pure (Likeness.alike_literal l)) b b'
  | none =>
    have hevaluated : ∀ (form : Form) (x : EvalM Context),
        form.valueOf e x = EvalM.guarded x >>= fun c => Pure.pure c.value := by
      intro form x
      cases form with
      | tree => rfl
      | code =>
        simp only [Form.valueOf, Form.constant?, hliteral]
        rfl
    rw [hevaluated, hevaluated]
    exact .bind (.guarded h) fun _ _ hab => .pure hab.value

end Level

namespace ScopesTogether

variable {S : Setting} {levels : Nat} {s s' : Scope} {form form' : Form}

mutual

/-- By induction over the tree. -/
theorem evalFrom (hs : ScopesTogether S levels s s') : ∀ (e : Expr), e.Sited S.names →
    ∀ (start : PathStart) {c d : Context}, (agreement S.names).AlikeContext c d →
      Together S False (agreement S.names).AlikeContext
        (e.evalFrom form (invokeWithin levels) s start c)
        (e.evalFrom form' (invokeWithin levels) s' start d)
  | .path _ parts, _, start, _, _, h => hs.resolve start parts h
  | .call _ site parts name args, he, start, _, _, h => by
    have hnatural := Likeness.alikeContext_nearestNatural h
    unfold Expr.Sited Expr.callSites at he
    unfold Expr.evalFrom
    cases hbracket : isBracketCall name args with
    | true =>
      rw [hbracket] at he
      exact hs.evalFirst args he hnatural
    | false =>
      rw [hbracket] at he
      obtain ⟨rfl, hargs⟩ := sitesNamed_cons.mp he
      refine .bind (hs.resolve start parts h) fun target target' htarget => ?_
      refine .bind (hs.evalArguments args hargs hnatural) fun as bs has => ?_
      exact hs.callFormatter site htarget has
  | .string _ _ _, _, _, _, _, h => .pure (h.synthetic (Likeness.alike_string _))
  | .number _ _ value, _, _, _, _, h => .pure (h.synthetic (Likeness.alike_literal (.number value)))
  | .list _ .chain items, he, _, _, _, h => hs.evalLinks items he .scope h
  | .list _ .bracket items, he, _, _, _, h =>
    hs.evalLast items he h (h.synthetic Likeness.alike_null)
  | .list _ .arguments items, he, _, _, _, h =>
    .bind (hs.evalEach items he h) fun _ _ hvs =>
      .pure (h.synthetic (Likeness.alike_array hvs))
  | .unary _ site op operand, he, _, _, _, h => by
    obtain ⟨hname, hoperand⟩ := sitesNamed_cons.mp he
    refine .bind (.guarded (hs.evalFrom operand hoperand .scope h)) fun a b hab => ?_
    rw [← hname]
    exact hs.callFormatter site hab .nil
  | .binary _ site op left right, he, _, _, _, h => by
    obtain ⟨hname, hoperands⟩ := sitesNamed_cons.mp he
    obtain ⟨hleft, hright⟩ := sitesNamed_append.mp hoperands
    refine .bind (.guarded (hs.evalFrom left hleft .scope h)) fun a b hab => ?_
    refine .bind (.guarded (hs.evalFrom right hright .scope h)) fun a' b' hab' => ?_
    rw [← hname]
    exact hs.callFormatter site hab (.cons ⟨rfl, hab'.value⟩ .nil)
  | .lambda _ parameters body, he, _, _, _, h =>
    -- The body is not evaluated here; it is the same expression in both forms.
    .makeLambda parameters.parameterNames ⟨form, form', body, rfl, rfl, he⟩ h

theorem evalLinks (hs : ScopesTogether S levels s s') : ∀ (items : List Expr),
    SitesNamed S.names (Expr.allCallSites items) → ∀ (start : PathStart) {c d : Context},
      (agreement S.names).AlikeContext c d →
        Together S False (agreement S.names).AlikeContext
          (Expr.evalLinks form (invokeWithin levels) s start items c)
          (Expr.evalLinks form' (invokeWithin levels) s' start items d)
  | [], _, _, _, _, h => .pure h
  | e :: rest, hitems, start, _, _, h => by
    obtain ⟨he, hrest⟩ := sitesNamed_append.mp hitems
    -- A checkpoint before the link, or none: one of the two may stop here.
    exact .bind (.guardedIf (hs.evalFrom e he start h) _ _) fun _ _ hab =>
      hs.evalLinks rest hrest .member hab

theorem evalLast (hs : ScopesTogether S levels s s') : ∀ (items : List Expr),
    SitesNamed S.names (Expr.allCallSites items) → ∀ {c d last last' : Context},
      (agreement S.names).AlikeContext c d → (agreement S.names).AlikeContext last last' →
        Together S False (agreement S.names).AlikeContext
          (Expr.evalLast form (invokeWithin levels) s items c last)
          (Expr.evalLast form' (invokeWithin levels) s' items d last')
  | [], _, _, _, _, _, _, hlast => .pure hlast
  | e :: rest, hitems, _, _, _, _, h, _ => by
    obtain ⟨he, hrest⟩ := sitesNamed_append.mp hitems
    exact .bind (.guarded (hs.evalFrom e he .scope h)) fun _ _ hab =>
      hs.evalLast rest hrest h hab

theorem evalEach (hs : ScopesTogether S levels s s') : ∀ (items : List Expr),
    SitesNamed S.names (Expr.allCallSites items) → ∀ {c d : Context},
      (agreement S.names).AlikeContext c d →
        Together S False (List.Forall₂ (agreement S.names).Alike)
          (Expr.evalEach form (invokeWithin levels) s items c)
          (Expr.evalEach form' (invokeWithin levels) s' items d)
  | [], _, _, _, _ => .pure .nil
  | e :: rest, hitems, _, _, h => by
    obtain ⟨he, hrest⟩ := sitesNamed_append.mp hitems
    exact .bind (.guarded (hs.evalFrom e he .scope h)) fun _ _ hab =>
      .bind (hs.evalEach rest hrest h) fun _ _ hvs => .pure (.cons hab.value hvs)

theorem evalFirst (hs : ScopesTogether S levels s s') : ∀ (args : List Argument),
    SitesNamed S.names (Argument.callSites args) → ∀ {c d : Context},
      (agreement S.names).AlikeContext c d →
        Together S False (agreement S.names).AlikeContext
          (Argument.evalFirst form (invokeWithin levels) s args c)
          (Argument.evalFirst form' (invokeWithin levels) s' args d)
  | [], _, _, _, h => .pure h
  | ⟨_, _, e⟩ :: _, hargs, _, _, h =>
    .guarded (hs.evalFrom e (sitesNamed_append.mp hargs).1 .scope h)

theorem evalArguments (hs : ScopesTogether S levels s s') : ∀ (args : List Argument),
    SitesNamed S.names (Argument.callSites args) → ∀ {c d : Context},
      (agreement S.names).AlikeContext c d →
        Together S False (List.Forall₂ (agreement S.names).AlikeSupplied)
          (Argument.evalEach form (invokeWithin levels) s args c)
          (Argument.evalEach form' (invokeWithin levels) s' args d)
  | [], _, _, _, _ => .pure .nil
  | ⟨_, _, e⟩ :: rest, hargs, _, _, h => by
    obtain ⟨he, hrest⟩ := sitesNamed_append.mp hargs
    exact .bind (.valueOf form form' (hs.evalFrom e he .scope h)) fun _ _ hv =>
      .bind (hs.evalArguments rest hrest h) fun _ _ hvs => .pure (.cons ⟨rfl, hv⟩ hvs)

end

end ScopesTogether

/-! ## All levels -/

namespace Together

variable {S : Setting} {s s' : Scope}

/-- From scopes that agree, a level deeper there are scopes that agree, or there is none. -/
theorem descend (hs : (agreement S.names).AlikeUnder S.options s s') {given : Prop} :
    Together S given ((agreement S.names).AlikeUnder S.options)
      (invokeWithin.liftExcept s.descend) (invokeWithin.liftExcept s'.descend) := by
  have hinner := hs.descend
  generalize s.descend = r at hinner
  generalize s'.descend = r' at hinner
  cases hinner with
  | ok hinner => exact .pure hinner
  | error e => exact .throw e

/-- Bodies made of one expression are evaluated together. -/
theorem evaluate {levels : Nat} (hs : ScopesTogether S levels s s') {b b' : LambdaBody}
    (hb : b.Agree S.names b') {c d : Context} (h : (agreement S.names).AlikeContext c d) :
    Together S False (agreement S.names).AlikeContext (b.evaluate (invokeWithin levels) s c)
      (b'.evaluate (invokeWithin levels) s' d) := by
  obtain ⟨form, form', e, rfl, rfl, he⟩ := hb
  rw [form.evaluate_body, form'.evaluate_body]
  exact .guarded (hs.evalFrom e he .scope h)

end Together

/-- By induction on the levels: lambdas that agree are invoked alike from scopes that agree. -/
theorem invoke_together (S : Setting) (levels : Nat) {s s' : Scope}
    (hs : (agreement S.names).AlikeUnder S.options s s') : ScopesTogether S levels s s' := by
  induction levels generalizing s s' with
  | zero =>
    refine ⟨hs, fun l k _ vs ws _ => ?_⟩
    unfold invokeWithin
    rw [hs.alike.depth, hs.alike.options]
    exact .throw _
  | succ levels ih =>
    refine ⟨hs, fun l k hl vs ws hvs => ?_⟩
    obtain ⟨⟨-, hparameters, hbody⟩, hcaptured⟩ := Lambda.alikeBy_iff.mp hl
    rw [invokeWithin_succ, invokeWithin_succ, hparameters]
    refine .bind (.descend hs) fun inner inner' hinner => ?_
    have hbound := ih (hinner.bindAll k.parameters hvs)
    exact .bind (.evaluate hbound hbody hcaptured) fun _ _ hab => .pure hab.value

/-! ## Choices in advance -/

/-- Sites remember at most choices made in advance. -/
def Setting.RemembersEarly (S : Setting) (ms : Memories) : Prop :=
  ∀ site, ∀ r ∈ ms.at site, S.IsEarly site r

section Prepare

variable {S : Setting} {ms : Memories}

theorem Memories.prepare_early {site : Nat} {op : Operator} (left right : Code)
    (hname : S.names site = op.formatterName) (h : S.RemembersEarly ms) :
    S.RemembersEarly (ms.prepare S.early site op left right) := by
  unfold Memories.prepare
  split
  · next a b =>
    -- What the site remembers was there before, or was chosen for these two literals.
    exact Memories.forall_set h
      (Registry.consult_forall _ _ _ _ (h site) fun _ hfresh => ⟨a, b, hname ▸ hfresh⟩).2
  · exact h

/-- Nothing is chosen in advance for constants. -/
theorem Code.prepare_folded_early (l : Option Literal) {code : Code} (h : S.RemembersEarly ms)
    (hcode : S.RemembersEarly (code.prepare S.early ms)) :
    S.RemembersEarly ((Code.folded l code).prepare S.early ms) := by
  cases l with
  | some l => exact h
  | none => exact hcode

/-- For a call, or for the group in its place, choices are made for the arguments. -/
theorem Expr.prepare_codeFrom_call (options : Options) (o : Origin) (site : Nat)
    (parts : Path) (name : String) (args : List Argument) (start : PathStart) :
    ((Expr.call o site parts name args).codeFrom start).prepare options ms =
      CodeArgument.prepareAll options (Argument.codes args) ms := by
  unfold Expr.codeFrom
  split
  · next argument hargs =>
    rw [hargs]
    split
    · cases argument <;> rfl
    · rfl
  · rfl

mutual

theorem Expr.prepare_codeFrom_early : ∀ e : Expr, e.Sited S.names → ∀ (start : PathStart)
    {ms : Memories}, S.RemembersEarly ms →
      S.RemembersEarly ((e.codeFrom start).prepare S.early ms)
  | .path _ [], _, _, _, h | .path _ (_ :: _), _, _, _, h => h
  | .call o site parts name args, he, start, _, h => by
    have hargs : SitesNamed S.names (Argument.callSites args) := by
      unfold Expr.Sited Expr.callSites at he
      split at he
      · exact he
      · exact (sitesNamed_cons.mp he).2
    rw [Expr.prepare_codeFrom_call]
    exact Argument.prepareAll_early args hargs h
  | .string _ _ _, _, _, _, h | .number _ _ _, _, _, _, h => h
  | .list _ .chain items, he, _, _, h => Expr.prepare_linkCodes_early items he .scope h
  | .list _ .bracket items, he, _, _, h | .list _ .arguments items, he, _, _, h =>
    Expr.prepare_codes_early items he h
  | .unary _ _ _ operand, he, _, _, h =>
    Code.prepare_folded_early _ h
      (Expr.prepare_codeFrom_early operand (sitesNamed_cons.mp he).2 .scope h)
  | .binary _ _ _ left right, he, _, _, h => by
    obtain ⟨hname, hoperands⟩ := sitesNamed_cons.mp he
    obtain ⟨hleft, hright⟩ := sitesNamed_append.mp hoperands
    have hsite := Memories.prepare_early left.code right.code hname h
    have hfirst := Code.prepare_folded_early left.literal? hsite
      (Expr.prepare_codeFrom_early left hleft .scope hsite)
    exact Code.prepare_folded_early right.literal? hfirst
      (Expr.prepare_codeFrom_early right hright .scope hfirst)
  | .lambda _ _ body, he, _, _, h =>
    Code.prepare_folded_early _ h (Expr.prepare_codeFrom_early body he .scope h)

theorem Expr.prepare_linkCodes_early : ∀ items : List Expr,
    SitesNamed S.names (Expr.allCallSites items) → ∀ (start : PathStart) {ms : Memories},
      S.RemembersEarly ms →
        S.RemembersEarly (Code.prepareAll S.early (Expr.linkCodes start items) ms)
  | [], _, _, _, h => h
  | e :: rest, hitems, start, _, h => by
    obtain ⟨he, hrest⟩ := sitesNamed_append.mp hitems
    refine Expr.prepare_linkCodes_early rest hrest .member ?_
    cases start with
    | scope => exact Code.prepare_folded_early _ h (Expr.prepare_codeFrom_early e he .scope h)
    | member => exact Expr.prepare_codeFrom_early e he .member h

theorem Expr.prepare_codes_early : ∀ items : List Expr,
    SitesNamed S.names (Expr.allCallSites items) → ∀ {ms : Memories}, S.RemembersEarly ms →
      S.RemembersEarly (Code.prepareAll S.early (Expr.codes items) ms)
  | [], _, _, h => h
  | e :: rest, hitems, _, h => by
    obtain ⟨he, hrest⟩ := sitesNamed_append.mp hitems
    exact Expr.prepare_codes_early rest hrest
      (Code.prepare_folded_early _ h (Expr.prepare_codeFrom_early e he .scope h))

theorem Argument.prepareAll_early : ∀ args : List Argument,
    SitesNamed S.names (Argument.callSites args) → ∀ {ms : Memories}, S.RemembersEarly ms →
      S.RemembersEarly (CodeArgument.prepareAll S.early (Argument.codes args) ms)
  | [], _, _, h => h
  | ⟨name, _, e⟩ :: rest, hargs, ms, h => by
    obtain ⟨he, hrest⟩ := sitesNamed_append.mp hargs
    have hfirst := Expr.prepare_codeFrom_early e he .scope h
    unfold Argument.codes CodeArgument.folded
    cases e.literal? with
    | some l => exact Argument.prepareAll_early rest hrest h
    | none => exact Argument.prepareAll_early rest hrest hfirst

end

theorem Expr.prepare_code_early {e : Expr} (he : e.Sited S.names) (h : S.RemembersEarly ms) :
    S.RemembersEarly (e.code.prepare S.early ms) :=
  Code.prepare_folded_early _ h (e.prepare_codeFrom_early he .scope h)

end Prepare

/-! ## Evaluations -/

/-- The evaluations came to the same, but for the form of lambda bodies. -/
def SameButForm (x y : Except EvalError Context × RunState) : Prop :=
  x.1.map Context.compiled = y.1.map Context.compiled ∧
    x.2.events.map Event.compiled = y.2.events.map Event.compiled

theorem ComeTogether.compare {S : Setting} {x y : Except EvalError Context × RunState}
    (h : ComeTogether S (agreement S.names).AlikeContext x y) :
    SameButForm x y ∨ StopsShort S.options x y ∨ StopsShort S.options y x := by
  cases h with
  | same hresult hstate _ =>
    refine .inl ⟨?_, hstate.events⟩
    generalize x.1 = r at hresult
    generalize y.1 = r' at hresult
    cases hresult with
    | ok hab => exact congrArg Except.ok hab.compiled_eq
    | error e => rfl
  | left h => exact .inr (.inl h)
  | right h => exact .inr (.inr h)

/-- Walking a tree, with nothing remembered, and running its code, with nothing remembered but what
is chosen in advance when the code is made, come to the same, or one of them stops short. -/
theorem Setting.walk_run (S : Setting) {e : Expr} (he : e.Sited S.names) {scope : Scope}
    (hoptions : scope.options = S.options) (hscope : scope.Sited S.names) {c : Context}
    (hc : c.Sited S.names) (cancelled : Bool) (nextLambda : Nat) :
    let s : RunState := { RunState.fresh with cancelled, nextLambda }
    let walked := (e.evaluate scope c).outcome s
    let ran := (do
      EvalM.prepare S.early e.code
      e.code.evaluate scope c).outcome s
    SameButForm walked ran ∨ StopsShort S.options walked ran ∨ StopsShort S.options ran walked := by
  intro s walked ran
  let prepared : RunState := { s with memories := e.code.prepare S.early [] }
  have hran : ran = (e.code.evaluate scope c).outcome prepared := rfl
  cases cancelled with
  | true =>
    -- An evaluation that was given up before it began does nothing.
    have hwalked : walked = (.error .cancelled, s) := EvalM.outcome_guarded_cancelled rfl
    have hran' : ran = (.error .cancelled, prepared) :=
      hran.trans (EvalM.outcome_guarded_cancelled rfl)
    rw [hwalked, hran']
    exact .inl ⟨rfl, rfl⟩
  | false =>
    have hearly : S.RemembersEarly (e.code.prepare S.early []) :=
      Expr.prepare_code_early he (by rintro _ _ ⟨⟩)
    have hstates : RunState.Agree S s prepared :=
      ⟨rfl, rfl, rfl, fun site => .inr ⟨by rintro _ ⟨⟩, hearly site⟩⟩
    have hrespects := hoptions ▸ S.respects
    have hscopes : (agreement S.names).AlikeUnder S.options scope scope :=
      ⟨⟨rfl, hrespects, hscope.agree scope.frame List.mem_cons_self,
          List.forall₂_same.mpr fun f hf => hscope.agree f (List.mem_cons_of_mem _ hf), rfl⟩,
        hoptions⟩
    -- Walking is evaluating the body of a lambda in the one form, running in the other.
    have hbody : (Form.tree.body e).Agree S.names (Form.code.body e) :=
      ⟨.tree, .code, e, rfl, rfl, he⟩
    have htogether := Together.evaluate (invoke_together S scope.levels hscopes) hbody hc.agree
    exact (htogether s prepared hstates (by rintro ⟨⟩) (by rintro ⟨⟩) False.elim).compare

end Stencil
