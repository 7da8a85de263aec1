import Stencil.Evaluation.State
import Stencil.Proofs.BuiltinsRespect

/-!
# Giving up

An evaluation is given up by whoever is told of something not found, by a formatter when it is
called, or by the routine of a formatter. It ends at the next checkpoint, so it goes on for a while.
Only if a formatter whose result has to be waited for gives up when it is called, there is a
checkpoint before anything else happens. `Event.GoesOn` says of an event that the evaluation may go
on after it although it was given up.

A formatter may also learn from a lambda that the evaluation was given up. Most pass this on
(`Options.PassOn`), but a formatter can go on with something else instead.

The formatters that are always there do not give up, and pass on what lambdas fail with
(`Options.ofConfig_steady`).
-/

namespace Stencil

namespace Routine

variable {α β : Type}

/-- The routine gives the evaluation up on a way to its end. -/
inductive MayGiveUp : Routine α → Prop
  | here (next : Routine α) : MayGiveUp (.cancel next)
  | next {l : Lambda} {arguments : List Value} {next : Value → Routine α}
    {rescue : EvalError → Routine α} (v : Value) (h : MayGiveUp (next v)) :
    MayGiveUp (.ask l arguments next rescue)
  | rescue {l : Lambda} {arguments : List Value} {next : Value → Routine α}
    {rescue : EvalError → Routine α} (e : EvalError) (h : MayGiveUp (rescue e)) :
    MayGiveUp (.ask l arguments next rescue)
  | pause {next : Routine α} (h : MayGiveUp next) : MayGiveUp (.pause next)

/-- Where a lambda fails because the evaluation was given up, the routine does so too. -/
def PassesOn : Routine α → Prop
  | .done _ | .fail _ => True
  | .ask _ _ next rescue =>
    rescue .cancelled = .fail .cancelled ∧ (∀ v, (next v).PassesOn) ∧ ∀ e, (rescue e).PassesOn
  | .cancel next | .pause next => next.PassesOn

/-- The routine has lambdas invoked, and fails if they do. -/
def OnlyInvokes : Routine α → Prop
  | .done _ | .fail _ => True
  | .ask _ _ next rescue => (∀ e, rescue e = .fail e) ∧ ∀ v, (next v).OnlyInvokes
  | .cancel _ | .pause _ => False

namespace OnlyInvokes

theorem not_mayGiveUp {x : Routine α} (h : x.OnlyInvokes) : ¬ x.MayGiveUp := by
  intro hx
  induction hx with
  | here => exact h
  | next v _ ih => exact ih (h.2 v)
  | rescue e hrescue ih => exact ih (h.1 e ▸ trivial)
  | pause => exact h

theorem passesOn {x : Routine α} (h : x.OnlyInvokes) : x.PassesOn := by
  induction x with
  | done | fail => trivial
  | ask l arguments next rescue ih _ =>
    exact ⟨h.1 .cancelled, fun v => ih v (h.2 v), fun e => h.1 e ▸ trivial⟩
  | cancel | pause => exact h.elim

theorem map {x : Routine α} (h : x.OnlyInvokes) (f : α → β) : (x.map f).OnlyInvokes := by
  induction x with
  | done | fail => trivial
  | ask l arguments next rescue ih _ =>
    refine ⟨fun e => ?_, fun v => ih v (h.2 v)⟩
    show (rescue e).map f = .fail e
    rw [h.1 e]
    rfl
  | cancel | pause => exact h.elim

theorem callEach (l : Lambda) (items : List Value) : (Routine.callEach l items).OnlyInvokes := by
  induction items with
  | nil => trivial
  | cons v rest ih => exact ⟨fun _ => rfl, fun _ => ih.map _⟩

theorem keepEach (l : Lambda) (keeps : Value → Bool) (items : List Value) :
    (Routine.keepEach l keeps items).OnlyInvokes := by
  induction items with
  | nil => trivial
  | cons v rest ih => exact ⟨fun _ => rfl, fun _ => ih.map _⟩

end OnlyInvokes

end Routine

namespace Signature

/-- A call may come to a result although it gives the evaluation up. -/
def GoesOn (s : Signature) (c : Call) : Prop :=
  match s.action with
  | .compute _ => s.cancels c = true
  | .wait f => (f c).MayGiveUp

/-- Where a lambda fails because the evaluation was given up, a call does so too. -/
def PassesOn (s : Signature) (c : Call) : Prop :=
  match s.action with
  | .compute _ => True
  | .wait f => (f c).PassesOn

/-- A call does no more than to have lambdas invoked. -/
structure OnlyInvokes (s : Signature) : Prop where
  stays : ∀ c, s.cancels c = false
  routine : ∀ f, s.action = .wait f → ∀ c, (f c).OnlyInvokes

namespace OnlyInvokes

variable {s : Signature} (h : s.OnlyInvokes) (c : Call)

include h

theorem not_goesOn : ¬ s.GoesOn c := by
  unfold GoesOn
  cases haction : s.action with
  | compute => simp [h.stays c]
  | wait f => exact (h.routine f haction c).not_mayGiveUp

theorem passesOn : s.PassesOn c := by
  unfold PassesOn
  cases haction : s.action with
  | compute => trivial
  | wait f => exact (h.routine f haction c).passesOn

end OnlyInvokes

end Signature

/-- After the event the evaluation may go on although it was given up: someone gave up who was told
of something not found, or in a call that can come to a result nevertheless. -/
inductive Event.GoesOn (o : Options) : Event → Prop
  | told {u : Unresolved} (h : o.stopsOn u = true) : GoesOn o (.unresolved u)
  | ran {s : Signature} {c : Call} (hs : s ∈ o.registry.signatures) (h : s.GoesOn c) :
    GoesOn o (.invoked s c.value c.arguments)

namespace Options

/-- Formatters fail if a lambda does because the evaluation was given up. -/
def PassOn (o : Options) : Prop :=
  ∀ s ∈ o.registry.signatures, ∀ c, s.PassesOn c

/-- Nobody gives an evaluation up. -/
structure Steady (o : Options) : Prop where
  stays : ∀ s ∈ o.registry.signatures, ∀ c, s.cancels c = false
  formatters : ∀ s ∈ o.registry.signatures, ∀ c, ¬ s.GoesOn c
  told : ∀ u, o.stopsOn u = false

theorem Steady.not_goesOn {o : Options} (h : o.Steady) (e : Event) : ¬ e.GoesOn o := by
  rintro (hu | ⟨hs, hc⟩)
  · rw [h.told] at hu
    cases hu
  · exact h.formatters _ hs _ hc

end Options

/-! ## The formatters that are always there -/

namespace Builtin

theorem onEach_onlyInvokes {name parameter : String}
    {f : Call → Lambda → List Value → Routine (List Value)}
    (hf : ∀ c l items, (f c l items).OnlyInvokes) : (onEach name parameter f).OnlyInvokes := by
  refine ⟨fun _ => rfl, ?_⟩
  rintro _ ⟨⟩ c
  dsimp only
  split
  · exact (hf _ _ _).map _
  · trivial

theorem computing_onlyInvokes (name : String) (type : ParamType) (params : List Param)
    (f : Call → Value) : (Signature.computing name type params f).OnlyInvokes :=
  ⟨fun _ => rfl, by rintro _ ⟨⟩⟩

theorem describe_onlyInvokes {s : Signature} (h : s.OnlyInvokes) (description : String) :
    (s.describe description).OnlyInvokes :=
  ⟨h.stays, h.routine⟩

theorem onlyInvokes_of_mem_all : ∀ s ∈ Builtin.all, s.OnlyInvokes := by
  simp only [all, operators, groups, texts, numbers, collections, List.forall_mem_append,
    List.forall_mem_cons, List.not_mem_nil, false_imp_iff, implies_true, and_true]
  have hselect := @onEach_onlyInvokes "Select" "selector" (fun _ l items => .callEach l items)
    fun _ l items => .callEach l items
  have hwhere := @onEach_onlyInvokes "Where" "predicate"
    (fun c l items => .keepEach l c.isTruthy items) fun c l items => .keepEach l c.isTruthy items
  refine ⟨?_, ?_, ?_, ?_, ?_⟩ <;> repeat' apply And.intro
  all_goals first
    | exact hselect
    | exact hwhere
    | exact computing_onlyInvokes _ _ _ _
    | exact describe_onlyInvokes (computing_onlyInvokes _ _ _ _) _

end Builtin

theorem Options.ofConfig_passOn (config : Config) : (Options.ofConfig config).PassOn :=
  fun s hs => (Builtin.onlyInvokes_of_mem_all s (Registry.mem_of_standard hs)).passesOn

/-! ## A formatter that gives up -/

/-- Options with one overload. -/
def Options.only (s : Signature) : Options :=
  { Options.standard with registry := (Registry.empty 1).file 1 s }

/-- Gives the evaluation up, and its value back. -/
def stopNow : Signature :=
  { Signature.computing "Stop" .any [.remaining "more" .any] Call.value with
    cancels := fun _ => true }

end Stencil
