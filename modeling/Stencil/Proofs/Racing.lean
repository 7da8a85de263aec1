import Mathlib.Logic.Function.Basic
import Stencil.Proofs.Placing
import Stencil.Proofs.Remembering

/-!
# Racing calls

Several calls can be under way at one place at a time, and none waits for another. Each takes three
steps: it looks at what the place remembers, it settles on an answer by what it saw, and it has the
place remember a choice that it made. Between its steps the others take theirs, in any order. So
what a call saw can be outdated when it answers, and a choice that is remembered can replace any
other.

This does no harm, because a choice carries the shape that it was made for. `Race.Sound` says where
the choices that are under way come from. One step keeps it (`Race.Sound.step`), and so does every
run (`Race.Sound.run`). A choice that was made for one call can then be applied to any call of its
shape, which has as many arguments (`usesEach_of_choice`).

Main statement: `racing_calls_keep_shapes`. In every run each answer has the shape of its own call,
was chosen for a call of that shape, and uses each argument of its own call once; and what is
remembered may always be used again. Calls that do not race are those of the evaluator
(`advance_thrice`).
-/

namespace Stencil

/-! ## Steps -/

/-- How far a call has come. -/
inductive Stage where
  | waiting
  /-- It saw what was remembered. -/
  | looked (seen : Memory)
  /-- It made a choice that has not been remembered yet. -/
  | chosen (made : Resolution)
  | answered (answer : Option Resolution)

/-- What a call answers to what it saw: the choice remembered for its shape, or one made afresh,
which is still to be remembered. -/
def Inquiry.settle (name : String) (q : Inquiry) (seen : Memory) : Stage :=
  match seen.find? q.shape with
  | some found => .answered (some found)
  | none =>
    match q.choice name with
    | some made => .chosen made
    | none => .answered none

/-- One step of a call: what the place remembers then, and how far the call has come. -/
def Inquiry.advance (name : String) (q : Inquiry) (cell : Memory) : Stage → Memory × Stage
  | .waiting => (cell, .looked cell)
  | .looked seen => (cell, q.settle name seen)
  | .chosen made => (cell.keep made, .answered (some made))
  | .answered answer => (cell, .answered answer)

/-- A call that is not interrupted asks as the evaluator does. -/
theorem advance_thrice (name : String) (q : Inquiry) (cell : Memory) :
    let step := fun s : Memory × Stage => q.advance name s.1 s.2
    let asked := q.registry.consult cell q.matching name q.value q.arguments
    step (step (step (cell, .waiting))) = (asked.memory, .answered asked.resolution) := by
  have hshape : q.shape = .ofCall q.registry q.matching q.value q.arguments := rfl
  have hchoice : q.choice name = q.registry.resolve q.matching name q.value q.arguments := rfl
  intro step asked
  show q.advance name cell (q.settle name cell) = (asked.memory, .answered asked.resolution)
  unfold asked Registry.consult Inquiry.settle
  rw [hshape, hchoice]
  cases cell.find? (.ofCall q.registry q.matching q.value q.arguments) with
  | some found => rfl
  | none =>
    cases q.registry.resolve q.matching name q.value q.arguments with
    | some made => rfl
    | none => rfl

/-! ## Races -/

section Races

variable {ι : Type} [DecidableEq ι]

/-- Calls at one place, each as far as it has come, and what the place remembers. -/
structure Race (ι : Type) where
  cell : Memory
  stages : ι → Stage

namespace Race

/-- No call has begun and nothing is remembered. -/
def start : Race ι :=
  ⟨none, fun _ => .waiting⟩

variable (names : ι → String) (calls : ι → Inquiry)

/-- The race after one of the calls took a step. -/
def step (race : Race ι) (i : ι) : Race ι :=
  let (cell, stage) := (calls i).advance (names i) race.cell (race.stages i)
  ⟨cell, Function.update race.stages i stage⟩

/-- The race after the calls took steps in the given order. -/
def run (race : Race ι) (schedule : List ι) : Race ι :=
  schedule.foldl (step names calls) race

/-- Whether a choice was made for one of the calls. -/
def Made (r : Resolution) : Prop :=
  ∃ j, (calls j).choice (names j) = some r

/-- What is remembered may be used again and was chosen for one of the calls. -/
def CellSound (cell : Memory) : Prop :=
  ∀ r ∈ cell, r.shape.isReusable = true ∧ Made names calls r

/-- What a call has in hand was remembered, or is what it chose itself, or is an answer of its
shape. -/
def StageSound (i : ι) : Stage → Prop
  | .waiting => True
  | .looked seen => CellSound names calls seen
  | .chosen made => (calls i).choice (names i) = some made
  | .answered (some r) => r.shape = (calls i).shape ∧ Made names calls r
  | .answered none => (calls i).choice (names i) = none

/-- All that is remembered and in hand is where it belongs. -/
structure Sound (race : Race ι) : Prop where
  cell : CellSound names calls race.cell
  stages : ∀ i, StageSound names calls i (race.stages i)

variable {names calls}

omit [DecidableEq ι] in
theorem sound_settle {seen : Memory} (hseen : CellSound names calls seen) (i : ι) :
    StageSound names calls i ((calls i).settle (names i) seen) := by
  unfold Inquiry.settle
  split
  · next found hfound =>
    obtain ⟨hmem, hshape⟩ := Option.filter_eq_some_iff.mp hfound
    exact ⟨of_decide_eq_true hshape, (hseen found hmem).2⟩
  · split
    · next made hmade => exact hmade
    · next hnone => exact hnone

omit [DecidableEq ι] in
/-- A step of one call leaves a sound cell sound, and its own stage as well. -/
theorem sound_advance {cell : Memory} (hcell : CellSound names calls cell) {i : ι} {stage : Stage}
    (hstage : StageSound names calls i stage) :
    CellSound names calls ((calls i).advance (names i) cell stage).1 ∧
      StageSound names calls i ((calls i).advance (names i) cell stage).2 := by
  cases stage with
  | waiting => exact ⟨hcell, hcell⟩
  | looked seen => exact ⟨hcell, sound_settle hstage i⟩
  | chosen made =>
    have hmade : (calls i).choice (names i) = some made := hstage
    refine ⟨?_, Inquiry.shape_of_choice hmade, i, hmade⟩
    intro r hr
    have hr : r ∈ cell.keep made := hr
    unfold Memory.keep at hr
    split at hr
    · next hreusable =>
      obtain rfl := Option.some.inj hr
      exact ⟨hreusable, i, hmade⟩
    · exact hcell r hr
  | answered answer => exact ⟨hcell, hstage⟩

theorem Sound.step {race : Race ι} (h : race.Sound names calls) (i : ι) :
    (race.step names calls i).Sound names calls := by
  obtain ⟨hcell, hstage⟩ := sound_advance h.cell (h.stages i)
  refine ⟨hcell, ?_⟩
  -- What the others have in hand does not depend on what is remembered now.
  intro j
  show StageSound names calls j (Function.update race.stages i _ j)
  by_cases hj : j = i
  · subst hj
    rw [Function.update_self]
    exact hstage
  · rw [Function.update_of_ne hj]
    exact h.stages j

theorem Sound.run {race : Race ι} (h : race.Sound names calls) (schedule : List ι) :
    (race.run names calls schedule).Sound names calls := by
  induction schedule generalizing race with
  | nil => exact h
  | cons i schedule ih => exact ih (h.step i)

omit [DecidableEq ι] in
theorem sound_start : (start : Race ι).Sound names calls where
  cell r hr := by cases hr
  stages _ := trivial

/-! ## Progress -/

/-- Steps that a call still takes. -/
def remaining : Stage → Nat
  | .waiting => 3
  | .looked _ => 2
  | .chosen _ => 1
  | .answered _ => 0

theorem remaining_advance (name : String) (q : Inquiry) (cell : Memory) (stage : Stage) :
    remaining (q.advance name cell stage).2 ≤ remaining stage - 1 := by
  cases stage with
  | waiting => exact Nat.le_refl 2
  | looked seen =>
    show remaining (q.settle name seen) ≤ 1
    unfold Inquiry.settle
    split
    · exact Nat.zero_le 1
    · split
      · exact Nat.le_refl 1
      · exact Nat.zero_le 1
  | chosen made => exact Nat.le_refl 0
  | answered answer => exact Nat.le_refl 0

/-- A call comes forward by its own steps, and the steps of others do not set it back. -/
theorem remaining_run (race : Race ι) (schedule : List ι) (i : ι) :
    remaining ((race.run names calls schedule).stages i) ≤
      remaining (race.stages i) - schedule.count i := by
  induction schedule generalizing race with
  | nil => exact Nat.le_refl _
  | cons j schedule ih =>
    have hrest := ih (race.step names calls j)
    rw [List.count_cons]
    by_cases hj : j = i
    · subst hj
      have hstep : remaining ((race.step names calls j).stages j) ≤
          remaining (race.stages j) - 1 := by
        show remaining (Function.update race.stages j _ j) ≤ _
        rw [Function.update_self]
        exact remaining_advance (names j) (calls j) race.cell (race.stages j)
      have hrun : remaining ((race.run names calls (j :: schedule)).stages j) ≤ _ := hrest
      rw [if_pos (beq_self_eq_true j)]
      omega
    · have hstep : (race.step names calls j).stages i = race.stages i :=
        Function.update_of_ne (fun heq => hj heq.symm) _ _
      rw [hstep] at hrest
      rw [if_neg (by simpa using hj)]
      exact hrest

/-- A call that took three steps has its answer. -/
theorem answered_of_count (schedule : List ι) {i : ι} (h : 3 ≤ schedule.count i) :
    ∃ answer, (run names calls start schedule).stages i = .answered answer := by
  have hbound := @remaining_run _ _ names calls start schedule i
  have hzero : remaining ((run names calls start schedule).stages i) = 0 := by
    have hthree : remaining ((start : Race ι).stages i) = 3 := rfl
    omega
  cases hstage : (run names calls start schedule).stages i with
  | answered answer => exact ⟨answer, rfl⟩
  | waiting => rw [hstage] at hzero; cases hzero
  | looked seen => rw [hstage] at hzero; cases hzero
  | chosen made => rw [hstage] at hzero; cases hzero

end Race

/-! ## Answers -/

/-- A choice made for one call uses each argument of any call of the same shape once. -/
theorem usesEach_of_choice {q q' : Inquiry} {name : String} {made : Resolution}
    (hregistry : ∀ s ∈ q.registry.signatures, s.IsAdmissible)
    (hmade : q.choice name = some made) (hshape : q'.shape = q.shape) :
    made.UsesEach q'.value q'.arguments := by
  obtain ⟨s, hs, hbound⟩ := Registry.exists_of_resolve hmade
  have hlength : q'.arguments.length = q.arguments.length := by
    have := congrArg (fun shape => shape.arguments.length) hshape
    simpa [Inquiry.shape, CallShape.ofCall] using this
  exact .of_bindCall (hregistry s hs) hbound q'.value hlength

/-- What is asked of a race: no answer belongs to a call of another shape, and no argument is lost
or used twice. -/
structure Race.KeepsShapes (names : ι → String) (calls : ι → Inquiry) (race : Race ι) : Prop where
  reusable : ∀ r ∈ race.cell, r.shape.isReusable = true
  shape : ∀ i r, race.stages i = .answered (some r) → r.shape = (calls i).shape
  chosen : ∀ i r, race.stages i = .answered (some r) →
    ∃ j, (calls j).shape = (calls i).shape ∧ (calls j).choice (names j) = some r
  usesEach : ∀ i r, race.stages i = .answered (some r) →
    r.UsesEach (calls i).value (calls i).arguments
  refused : ∀ i, race.stages i = .answered none → (calls i).choice (names i) = none

/-- However the steps of calls at one place are interleaved, each call that took its steps has an
answer, made for a call of its own shape, which uses each of its arguments once. -/
theorem racing_calls_keep_shapes (names : ι → String) (calls : ι → Inquiry)
    {changes : List RegistryChange}
    (hregistries : ∀ i, RegistryChange.Shows changes (calls i).registry) (schedule : List ι) :
    (Race.start.run names calls schedule).KeepsShapes names calls ∧
    ∀ i, 3 ≤ schedule.count i →
      ∃ answer, (Race.start.run names calls schedule).stages i = .answered answer := by
  have hsound : (Race.start.run names calls schedule).Sound names calls :=
    Race.sound_start.run schedule
  have hanswer : ∀ i r, (Race.start.run names calls schedule).stages i = .answered (some r) →
      r.shape = (calls i).shape ∧ Race.Made names calls r := by
    intro i r hr
    have hstage := hsound.stages i
    rw [hr] at hstage
    exact hstage
  have hsame : ∀ i r, (Race.start.run names calls schedule).stages i = .answered (some r) →
      ∃ j, (calls j).shape = (calls i).shape ∧ (calls j).choice (names j) = some r := by
    intro i r hr
    obtain ⟨hshape, j, hj⟩ := hanswer i r hr
    exact ⟨j, (Inquiry.shape_of_choice hj).symm.trans hshape, hj⟩
  refine ⟨⟨fun r hr => (hsound.cell r hr).1, fun i r hr => (hanswer i r hr).1, hsame, ?_, ?_⟩,
    fun i => Race.answered_of_count schedule⟩
  · intro i r hr
    obtain ⟨j, hshape, hj⟩ := hsame i r hr
    exact usesEach_of_choice (hregistries j).isFaithful.admissible hj hshape.symm
  · intro i hi
    have hstage := hsound.stages i
    rw [hi] at hstage
    exact hstage

end Races

/-! ### A race -/

/-- A registry with one overload. -/
def padding : Registry :=
  (Registry.empty 0).registerAll 0
    [.computing "Pad" .string [.needed "width" .integer, .default "fill" .string (.string " ")]
      Call.value]

/-- Two calls of one shape, and one of another. -/
def paddings (i : Fin 3) : Inquiry :=
  let r := { padding with generation := 1 }
  match i with
  | 0 => ⟨r, .ignoreCase, .string "a", [⟨some "fill", .string "-"⟩, ⟨none, .int 3⟩]⟩
  | 1 => ⟨r, .ignoreCase, .string "b", [⟨some "fill", .string "+"⟩, ⟨none, .int 5⟩]⟩
  | 2 => ⟨r, .caseSensitive, .int 7, [⟨none, .int 2⟩]⟩

/-- The last call looks before the first one has its choice remembered, which then serves the
second, and has its own remembered after it. -/
theorem racing_calls_keep_shapes_paddings :
    let race := Race.start.run (fun _ => "Pad") paddings [2, 0, 0, 0, 1, 2, 1, 2, 1]
    race.stages 1 = race.stages 0 ∧ ∀ i, ∃ r, race.stages i = .answered (some r) ∧
      r.shape = (paddings i).shape ∧ r.UsesEach (paddings i).value (paddings i).arguments := by
  intro race
  have hshows : ∀ i, RegistryChange.Shows [.new "r" padding.signatures.toList]
      (paddings i).registry := by
    intro i
    refine .inr (.inr ⟨"r", ?_⟩)
    match i with
    | 0 => rfl
    | 1 => rfl
    | 2 => rfl
  have hchoice : ∀ i, ((paddings i).choice "Pad").isSome = true := by
    decide +kernel
  obtain ⟨hsafe, hprogress⟩ :=
    racing_calls_keep_shapes (fun _ => "Pad") paddings hshows [2, 0, 0, 0, 1, 2, 1, 2, 1]
  refine ⟨rfl, ?_⟩
  intro i
  have hcount : ∀ i : Fin 3, 3 ≤ [2, 0, 0, 0, 1, 2, 1, 2, 1].count i := by decide
  obtain ⟨answer, hanswer⟩ := hprogress i (hcount i)
  cases answer with
  | some r => exact ⟨r, hanswer, hsafe.shape i r hanswer, hsafe.usesEach i r hanswer⟩
  | none =>
    have hsome := hchoice i
    rw [hsafe.refused i hanswer] at hsome
    cases hsome

end Stencil
