import Stencil.Proofs.Lambdas
import Stencil.Proofs.Outcome
import Stencil.Proofs.Retracing
import Stencil.Template

/-!
# Evaluation at other sites

Which sites code has does not show, as long as they remember the same, and nor does which numbers
lambdas get: moved code comes to the same from a state in which the memories are moved as well, and
in which lambdas are numbered from another number on (`renderSegments_moved`). What the sites
remember that are no part of the code is of no account, and is left as it was. What happened before
is of no account either.

Formatters must not tell where the sites of a lambda are, or which number it has. What is claimed of
them, and of the values that an evaluation begins with, is that they are indifferent to this, but
for sites that stay fixed and for numbers that are known. These belong to lambdas that were made
before.
-/

namespace Stencil

open Likeness

/-- A relation of sites and one of numbers of lambdas, under which each has at most one partner. -/
structure SiteMap where
  rel : Nat → Nat → Prop
  unique : ∀ {i j i' j'}, rel i j → rel i' j' → (i = i' ↔ j = j')
  ids : Nat → Nat → Prop
  ids_unique : ∀ {i j i' j'}, ids i j → ids i' j' → (i = i' ↔ j = j')

namespace SiteMap

/-- The lambdas are the same but for their numbers, and for the sites of their bodies. -/
structure AlikeLambda (m : SiteMap) (l k : Lambda) : Prop where
  id : m.ids l.id k.id
  parameters : l.parameters = k.parameters
  body : l.body.Moved m.rel k.body

/-- Values are alike that are the same but for the sites and numbers of lambdas. -/
def likeness (m : SiteMap) : Likeness :=
  .ofLambdas m.ids_unique m.AlikeLambda AlikeLambda.id

/-- Whether the given sites stay where they are, and lambdas with lower numbers keep them. -/
structure Fixes (m : SiteMap) (fixed : Nat → Prop) (known : Nat) : Prop where
  sites : ∀ i, fixed i → m.rel i i
  ids : ∀ i, i < known → m.ids i i

end SiteMap

/-! ## Not telling sites -/

/-- Options under which nothing tells where sites are, but for fixed ones, nor the numbers of
lambdas, but for known ones. -/
def Options.Indifferent (fixed : Nat → Prop) (known : Nat) (o : Options) : Prop :=
  ∀ m : SiteMap, m.Fixes fixed known → o.Respects m.likeness

/-- A choice that tells neither sites nor numbers of lambdas. -/
def Resolution.Indifferent (fixed : Nat → Prop) (known : Nat) (r : Resolution) : Prop :=
  ∀ m : SiteMap, m.Fixes fixed known → r.Respects m.likeness

theorem Registry.resolve_indifferent {fixed : Nat → Prop} {known : Nat} {o : Options}
    (ho : o.Indifferent fixed known) {name : String} {v : Value} {arguments : List Supplied}
    {made : Resolution} (h : o.registry.resolve o.matching name v arguments = some made) :
    made.Indifferent fixed known :=
  fun m hm => Registry.resolve_respects (ho m hm).registry h

/-! ## Memories -/

namespace SiteMap

variable {m : SiteMap} {fixed : Nat → Prop} {known : Nat} {before : Memories}

/-- Related sites remember the same, and sites without a partner still remember what they did
before. -/
structure AlikeMemories (m : SiteMap) (fixed : Nat → Prop) (known : Nat)
    (before ms ms' : Memories) : Prop where
  same : ∀ {i j}, m.rel i j → ms.at i = ms'.at j
  indifferent : ∀ j, ∀ made ∈ ms'.at j, ∀ i, m.rel i j → made.Indifferent fixed known
  others : ∀ j, (∀ i, ¬ m.rel i j) → ms'.at j = before.at j

theorem AlikeMemories.set {ms ms' : Memories} (h : m.AlikeMemories fixed known before ms ms')
    {i j : Nat} (hij : m.rel i j) {memory : Memory}
    (hmemory : ∀ made ∈ memory, made.Indifferent fixed known) :
    m.AlikeMemories fixed known before (ms.set i memory) (ms'.set j memory) where
  same := by
    intro i' j' hij'
    rw [Memories.at_set, Memories.at_set, h.same hij, h.same hij']
    simp only [m.unique hij hij']
  indifferent := Memories.forall_set h.indifferent fun made hmade _ _ => hmemory made hmade
  others := by
    intro j' hj'
    rw [Memories.at_set]
    split
    -- The site that is given something has a partner.
    · next heq => exact absurd hij (heq ▸ hj' i)
    · exact h.others j' hj'

/-- Calls that are alike get the same answer at related sites, and the same is remembered. -/
theorem AlikeMemories.consult {o : Options} (ho : o.Indifferent fixed known) {ms ms' : Memories}
    (h : m.AlikeMemories fixed known before ms ms') {i j : Nat} (hij : m.rel i j) (name : String)
    {v w : Value} (hv : m.likeness.Alike v w) {as bs : List Supplied}
    (has : List.Forall₂ m.likeness.AlikeSupplied as bs) :
    let answer := o.registry.consult (ms.at i) o.matching name v as
    let answer' := o.registry.consult (ms'.at j) o.matching name w bs
    answer.resolution = answer'.resolution ∧
      (∀ made ∈ answer'.resolution, made.Indifferent fixed known) ∧
        m.AlikeMemories fixed known before (ms.set i answer.memory) (ms'.set j answer'.memory) := by
  intro answer answer'
  have hsame : answer = answer' := by
    show o.registry.consult _ _ _ _ _ = _
    rw [h.same hij]
    exact Registry.consult_alike o.registry _ o.matching name hv has
  obtain ⟨hresolution, hmemory⟩ := Registry.consult_forall o.matching name w bs
    (fun made hmade => h.indifferent j made hmade i hij) fun _ => Registry.resolve_indifferent ho
  rw [hsame]
  exact ⟨rfl, hresolution, h.set hij hmemory⟩

/-! ## Choices in advance -/

variable {o : Options}

theorem AlikeMemories.prepareOperator (ho : o.Indifferent fixed known) {ms ms' : Memories}
    (h : m.AlikeMemories fixed known before ms ms') {i j : Nat} (hij : m.rel i j) (op : Operator)
    {left left' right right' : Code} (hleft : left.Moved m.rel left')
    (hright : right.Moved m.rel right') :
    m.AlikeMemories fixed known before (ms.prepare o i op left right)
      (ms'.prepare o j op left' right') := by
  -- Only for two literals a choice is made in advance.
  cases hleft with
  | constant a =>
    cases hright with
    | constant b =>
      exact (h.consult ho hij op.formatterName (alike_literal a)
        (.cons ⟨rfl, alike_literal b⟩ .nil)).2.2
    | _ => exact h
  | _ => exact h

mutual

theorem prepare_moved (ho : o.Indifferent fixed known) : ∀ {code code' : Code},
    code.Moved m.rel code' → ∀ {ms ms' : Memories}, m.AlikeMemories fixed known before ms ms' →
      m.AlikeMemories fixed known before (code.prepare o ms) (code'.prepare o ms')
  | .constant _, _, hcode, _, _, h | .stay, _, hcode, _, _, h
  | .resolve _ _, _, hcode, _, _, h => by
    cases hcode
    exact h
  | .group inner, _, hcode, _, _, h => by
    cases hcode with
    | group hinner => exact prepare_moved ho hinner h
  | .call _ _ _ _ args, _, hcode, _, _, h => by
    cases hcode with
    | call _ _ _ _ hargs => exact prepareArguments_moved ho hargs h
  | .chain items, _, hcode, _, _, h => by
    cases hcode with
    | chain hitems => exact prepareAll_moved ho hitems h
  | .sequence items, _, hcode, _, _, h => by
    cases hcode with
    | sequence hitems => exact prepareAll_moved ho hitems h
  | .collect items, _, hcode, _, _, h => by
    cases hcode with
    | collect hitems => exact prepareAll_moved ho hitems h
  | .unary _ _ operand, _, hcode, _, _, h => by
    cases hcode with
    | unary _ _ hoperand => exact prepare_moved ho hoperand h
  | .binary _ op left right, _, hcode, _, _, h => by
    cases hcode with
    | binary hsite _ hleft hright =>
      have hchosen := h.prepareOperator ho hsite op hleft hright
      exact prepare_moved ho hright (prepare_moved ho hleft hchosen)
  | .lambda _ body, _, hcode, _, _, h => by
    cases hcode with
    | lambda _ hbody => exact prepare_moved ho hbody h

theorem prepareAll_moved (ho : o.Indifferent fixed known) : ∀ {items items' : List Code},
    List.Forall₂ (Code.Moved m.rel) items items' → ∀ {ms ms' : Memories},
      m.AlikeMemories fixed known before ms ms' →
        m.AlikeMemories fixed known before (Code.prepareAll o items ms)
          (Code.prepareAll o items' ms')
  | [], _, .nil, _, _, h => h
  | _ :: _, _, .cons hitem hrest, _, _, h =>
    prepareAll_moved ho hrest (prepare_moved ho hitem h)

theorem prepareArguments_moved (ho : o.Indifferent fixed known) :
    ∀ {args args' : List CodeArgument}, List.Forall₂ (CodeArgument.Moved m.rel) args args' →
      ∀ {ms ms' : Memories}, m.AlikeMemories fixed known before ms ms' →
        m.AlikeMemories fixed known before (CodeArgument.prepareAll o args ms)
          (CodeArgument.prepareAll o args' ms')
  | [], _, .nil, _, _, h => h
  | .constant _ _ :: _, _, .cons harg hrest, _, _, h => by
    cases harg
    exact prepareArguments_moved ho hrest h
  | .computed _ _ :: _, _, .cons harg hrest, _, _, h => by
    cases harg with
    | computed _ hcode => exact prepareArguments_moved ho hrest (prepare_moved ho hcode h)

end

/-! ## States -/

/-- States in which related sites remember the same, lambdas get related numbers from now on, and
that are otherwise the same for whoever goes on from them. -/
structure AlikeState (m : SiteMap) (fixed : Nat → Prop) (known : Nat) (before : Memories)
    (s s' : RunState) : Prop where
  memories : m.AlikeMemories fixed known before s.memories s'.memories
  cancelled : s.cancelled = s'.cancelled
  nextLambda : ∀ k, m.ids (s.nextLambda + k) (s'.nextLambda + k)
  /-- Numbers that are known are not given again. -/
  known : known ≤ s'.nextLambda

theorem relates_prepare (ho : o.Indifferent fixed known) {code code' : Code}
    (h : code.Moved m.rel code') :
    Relates (m.AlikeState fixed known before) (· = ·) (EvalM.prepare o code)
      (EvalM.prepare o code') :=
  fun _ _ hs => ⟨.ok rfl, { hs with memories := prepare_moved ho h hs.memories }⟩

/-- Calls at related sites come to the same. -/
theorem carries (ho : o.Indifferent fixed known) (hm : m.Fixes fixed known) :
    m.likeness.Carries m.rel o (m.AlikeState fixed known before) where
  checkpoint := by
    intro s s' hs
    rw [EvalM.outcome_checkpoint, EvalM.outcome_checkpoint, hs.cancelled]
    refine ⟨?_, hs⟩
    split
    · exact .error _
    · exact .ok rfl
  unresolved := fun _ _ _ hs => ⟨.ok rfl, { hs with }⟩
  invoked := fun _ _ _ _ _ _ _ _ _ hs => ⟨.ok rfl, { hs with }⟩
  rooted := fun _ _ _ hs => ⟨.ok rfl, { hs with }⟩
  cancel := fun _ _ hs => ⟨.ok rfl, { hs with cancelled := rfl }⟩
  freshLambda := by
    refine fun _ _ hs => ⟨.ok (hs.nextLambda 0),
      { hs with nextLambda := fun k => ?_, known := Nat.le_succ_of_le hs.known }⟩
    show m.ids (_ + 1 + k) (_ + 1 + k)
    rw [Nat.add_assoc, Nat.add_assoc]
    exact hs.nextLambda (1 + k)
  lambdas := Lambda.alikeBy_iff.trans
    ⟨fun ⟨⟨hid, hparameters, hbody⟩, hcaptured⟩ => ⟨hid, hparameters, hbody, hcaptured⟩,
      fun ⟨hid, hparameters, hbody, hcaptured⟩ => ⟨⟨hid, hparameters, hbody⟩, hcaptured⟩⟩
  resolveAt := by
    intro i j hij name v w hv as bs has s s' hs
    obtain ⟨hresolution, hchosen, hmemories⟩ := hs.memories.consult ho hij name hv has
    rw [EvalM.outcome_resolveAt, EvalM.outcome_resolveAt]
    refine ⟨.ok ⟨hresolution, fun made hmade => ?_⟩, { hs with memories := hmemories }⟩
    rw [hresolution] at hmade
    exact hchosen made hmade m hm

end SiteMap

/-! ## Segments -/

/-- The same text, or a tag with moved code. -/
inductive Segment.Moved (rel : Nat → Nat → Prop) : Segment → Segment → Prop
  | text (s : String) : Segment.Moved rel (.text s) (.text s)
  | tag {s s' : Snippet} (h : Option.Rel (Code.Moved rel) s.code? s'.code?) :
    Segment.Moved rel (.tag s) (.tag s')

theorem Likeness.Alike.rendered_eq {L : Likeness} {v w : Value} (h : L.Alike v w)
    (nullText : String) : v.rendered nullText = w.rendered nullText := by
  have htext := h.text_eq
  cases h.view with
  | null => rfl
  | _ => exact htext

namespace SiteMap

variable {m : SiteMap} {fixed : Nat → Prop} {known : Nat} {before : Memories} {scope : Scope}
  (hscope : m.likeness.AlikeScope scope scope)
  (hindifferent : scope.options.Indifferent fixed known)
  (hm : m.Fixes fixed known)

include hscope hindifferent hm

theorem evaluate_moved {s s' : Snippet} (h : Option.Rel (Code.Moved m.rel) s.code? s'.code?)
    {c d : Context} (hcd : m.likeness.AlikeContext c d) :
    Relates (m.AlikeState fixed known before) m.likeness.AlikeContext (s.evaluate scope c)
      (s'.evaluate scope d) := by
  have hcarries : m.likeness.Carries m.rel scope.options (m.AlikeState fixed known before) :=
    carries hindifferent hm
  unfold Snippet.evaluate
  generalize s.code? = code at h
  generalize s'.code? = code' at h
  cases h with
  | none => exact .pure (hcd.synthetic alike_null)
  | some hcode =>
    refine .bind (relates_prepare hindifferent hcode) fun _ _ _ => ?_
    exact hcarries.guarded
      (hcarries.enter (hcarries.invokeWithin scope.levels) ⟨hscope, rfl⟩ hcode hcd)

/-- Moved segments render to the same. -/
theorem renderSegments_moved {segments segments' : List Segment}
    (h : List.Forall₂ (Segment.Moved m.rel) segments segments') {c d : Context}
    (hcd : m.likeness.AlikeContext c d) :
    Relates (m.AlikeState fixed known before) (· = ·) (Template.renderSegments scope c segments)
      (Template.renderSegments scope d segments') := by
  induction h with
  | nil => exact .pure rfl
  | cons hsegment _ ih =>
    cases hsegment with
    | text s =>
      refine .bind ih ?_
      rintro text _ rfl
      exact .pure rfl
    | tag hcode =>
      refine .bind (evaluate_moved hscope hindifferent hm hcode hcd) fun x y hxy => ?_
      refine .bind ih ?_
      rintro text _ rfl
      exact .pure (by rw [hxy.value.rendered_eq])

end SiteMap

end Stencil
