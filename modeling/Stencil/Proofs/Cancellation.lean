import Stencil.Proofs.TreeAndCode

/-!
# Giving up while walking and while running

Trees and code have their checkpoints in different places. Walking has none before a later link of a
chain that is a path; running has none for constant arguments. So once the evaluation was given up,
the one can go on where the other stops.

Either both come to the same, or one of them stops short, and the other one goes on from there. They
come to the same if whoever gives up is a formatter that is waited for, and gives up as soon as it
is called: before its result is waited for there is a checkpoint in both.

Main statement: `walk_eq_run_or_stopsShort`.
-/

namespace Stencil

/-- If nobody gives up after whom the evaluation may go on, nothing stops short. -/
theorem StopsShort.exists_goesOn {o : Options} {α β : Type} {x : Except EvalError α × RunState}
    {y : Except EvalError β × RunState} (h : StopsShort o x y) : ∃ e : Event, e.GoesOn o :=
  h.goneOn.imp fun _ he => he.2

/-- Walking a tree and running its code, where formatters may give the evaluation up, and fail if a
lambda does because it was given up: either both come to the same, or one of them stops short while
the other one goes on from there. They come to the same if nobody gives up after whom the evaluation
may go on. -/
theorem walk_eq_run_or_stopsShort (names : Nat → String) (e : Expr) (he : e.Sited names)
    (early : Options) (scope : Scope) (hscope : scope.Sited names) (c : Context)
    (hc : c.Sited names) (hrespects : scope.options.Respects (agreement names))
    (hpass : scope.options.PassOn)
    (hapart : early.registry.generation = scope.options.registry.generation →
      early.registry = scope.options.registry)
    (cancelled : Bool) (nextLambda : Nat) :
    let s : RunState := { RunState.fresh with cancelled, nextLambda }
    let walked := (e.evaluate scope c).outcome s
    let ran := (do
      EvalM.prepare early e.code
      e.code.evaluate scope c).outcome s
    (SameButForm walked ran ∨ StopsShort scope.options walked ran ∨
        StopsShort scope.options ran walked) ∧
      ((∀ event : Event, ¬ event.GoesOn scope.options) → SameButForm walked ran) := by
  intro s walked ran
  let S : Setting := ⟨names, early, scope.options, hrespects, hapart, .inl hpass⟩
  have heither := S.walk_run he rfl hscope hc cancelled nextLambda
  refine ⟨heither, fun hnever => ?_⟩
  rcases heither with hsame | hstops | hstops
  · exact hsame
  · obtain ⟨event, hgoes⟩ := hstops.exists_goesOn
    exact absurd hgoes (hnever event)
  · obtain ⟨event, hgoes⟩ := hstops.exists_goesOn
    exact absurd hgoes (hnever event)

/-! ## Formatters that give up -/

theorem Options.mem_only {s t : Signature} (h : t ∈ (Options.only s).registry.signatures) :
    t = s := by
  have hfiled : (Options.only s).registry.signatures = #[s] := by
    show ((Registry.empty 1).file 1 s).signatures = #[s]
    unfold Registry.file
    dsimp only
    split <;> rfl
  rw [hfiled] at h
  exact List.mem_singleton.mp (Array.mem_toList_iff.mpr h)

theorem Options.only_respects {L : Likeness} {s : Signature} (hs : s.Respects L) :
    (Options.only s).Respects L where
  registry :=
    { signatures := fun t ht => mem_only ht ▸ hs
      converters := by
        intro c hc
        have hc : c ∈ ((Registry.empty 1).file 1 s).converters := hc
        unfold Registry.file at hc
        dsimp only at hc
        split at hc <;> cases hc }
  lookup _ _ _ _ := .none
  isFalsey _ _ h := h.isFalsey_eq

/-- Gives the evaluation up, and has its value waited for. -/
def stopLater : Signature :=
  { Signature.waiting "Stop" .any [] fun c => .done c.value with cancels := fun _ => true }

/-- Has its value waited for, and gives the evaluation up meanwhile. -/
def stopMeanwhile : Signature :=
  Signature.waiting "Stop" .any [] fun c => .cancel (.done c.value)

/-- Two links of a chain: `v.Stop().Stop()`. -/
def stopTwice : Expr :=
  .list .nowhere .chain [.call .nowhere 0 [⟨.member, some "v"⟩] "Stop" [],
    .call .nowhere 1 [] "Stop" []]

/-- A member of the result of a call: `v.Stop().Length`. -/
def stopBeforeMember : Expr :=
  .list .nowhere .chain [.call .nowhere 0 [⟨.member, some "v"⟩] "Stop" [],
    .path .nowhere [⟨.member, some "Length"⟩]]

/-- A constant after a call among the arguments: `v.Stop(v.Stop(), 'y')`. -/
def stopInside : Expr :=
  .call .nowhere 0 [⟨.member, some "v"⟩] "Stop"
    [⟨none, .nowhere, .call .nowhere 1 [⟨.member, some "v"⟩] "Stop" []⟩,
      ⟨none, .nowhere, .string .nowhere '\'' [.text ['y']]⟩]

/-- A formatter that gives up when it is called goes on only if its result is known at once, and a
routine only if it gives up itself. -/
theorem stopLater_not_goesOn (event : Event) : ¬ event.GoesOn (.only stopLater) := by
  rintro (⟨⟨⟩⟩ | ⟨hs, hgoes⟩)
  rw [Options.mem_only hs] at hgoes
  cases hgoes

/-- With a formatter that is waited for, both are given up at the first call. -/
theorem walk_eq_run_or_stopsShort_stopLater :
    let s : RunState := { RunState.fresh with cancelled := false, nextLambda := 0 }
    let scope := Scope.ofOptions (.only stopLater)
    let c := Context.ofValue (.object [("v", .string "x")])
    let walked := (stopTwice.evaluate scope c).outcome s
    let ran := (do
      EvalM.prepare .standard stopTwice.code
      stopTwice.code.evaluate scope c).outcome s
    SameButForm walked ran ∧ walked.1 = .error .cancelled ∧ walked.2.events.length = 1 := by
  have hsited : stopTwice.Sited fun _ => "Stop" := by
    unfold Expr.Sited SitesNamed
    decide
  have hrespects : stopLater.Respects (agreement fun _ => "Stop") :=
    ⟨by rintro _ ⟨⟩, fun _ _ h => .done h.value, fun _ _ _ => rfl⟩
  have hpass : (Options.only stopLater).PassOn := by
    intro s hs _
    rw [Options.mem_only hs]
    trivial
  have heither := walk_eq_run_or_stopsShort _ stopTwice hsited .standard
    (.ofOptions (.only stopLater)) (fun l hl => absurd hl (Scope.not_reaches_ofOptions _ l))
    (.ofValue (.object [("v", .string "x")]))
    (fun _ hl => absurd hl (Context.not_reaches_of_isData rfl)) (Options.only_respects hrespects)
    hpass (by rintro ⟨⟩) false 0
  exact ⟨heither.2 stopLater_not_goesOn, rfl, rfl⟩

/-- With a formatter whose result is known at once, walking goes on to the second link of a chain,
where running stops; and running goes on after a constant argument, where walking stops. With one
that gives up while its result is waited for, walking goes on to a member of the result. -/
theorem walk_and_run_stop_apart :
    let outcomes (s : Signature) (e : Expr) :=
      let scope := Scope.ofOptions (.only s)
      let c := Context.ofValue (.object [("v", .string "x")])
      ((e.evaluate scope c).outcome .fresh,
        (do
          EvalM.prepare (.only s) e.code
          e.code.evaluate scope c).outcome .fresh)
    let twice := outcomes stopNow stopTwice
    let inside := outcomes stopNow stopInside
    let member := outcomes stopMeanwhile stopBeforeMember
    (twice.1.1.map (fun x => x.value.text) = .ok "x" ∧ twice.1.2.events.length = 2 ∧
        twice.2.1 = .error .cancelled ∧ twice.2.2.events.length = 1) ∧
      (inside.1.1 = .error .cancelled ∧ inside.1.2.events.length = 1 ∧
        inside.2.1.map (fun x => x.value.text) = .ok "x" ∧ inside.2.2.events.length = 2) ∧
      member.1.1.map (fun x => x.value.text) = .ok "1" ∧ member.2.1 = .error .cancelled :=
  ⟨⟨rfl, rfl, rfl, rfl⟩, ⟨rfl, rfl, rfl, rfl⟩, rfl, rfl⟩

end Stencil
