import Stencil.Formatter.Memory
import Stencil.Scope

/-!
# The state of an evaluation

Besides its result an evaluation leaves traces: choices remembered at sites, whether it was given
up, and events. Traces stay also when it fails.
-/

namespace Stencil

/-- Something that an evaluation did, for those who watch it. -/
inductive Event where
  | unresolved (u : Unresolved)
  /-- An overload was run on a value and arguments. -/
  | invoked (s : Signature) (value : Value) (arguments : List Value)
  /-- A root selector led to a context. -/
  | rooted (c : Context)

/-- The choices remembered at sites. -/
abbrev Memories := List (Nat × Resolution)

structure RunState where
  memories : Memories
  cancelled : Bool
  /-- What happened, the latest first. -/
  events : List Event
  /-- The number of the next lambda. -/
  nextLambda : Nat

namespace RunState

/-- The state in which nothing has happened. -/
def fresh : RunState :=
  ⟨[], false, [], 0⟩

/-- What was not found, in order. -/
def unresolved (s : RunState) : List Unresolved :=
  s.events.reverse.filterMap fun
    | .unresolved u => some u
    | .invoked _ _ _ | .rooted _ => none

end RunState

/-- The choice remembered at a site. -/
def Memories.at (ms : Memories) (site : Nat) : Memory :=
  List.lookup site ms

/-- The choices with what a site remembers from now on. -/
def Memories.set (ms : Memories) (site : Nat) (m : Memory) : Memories :=
  match m with
  | some r => Keyed.set site r ms
  | none => ms

/-- An evaluation: it fails or gives a result, and leaves a state in either case. -/
abbrev EvalM := ExceptT EvalError (StateM RunState)

namespace EvalM

/-- Fails once the evaluation was given up. -/
def checkpoint : EvalM Unit := do
  if (← get).cancelled then throw .cancelled

/-- Does something after a look at whether the evaluation was given up. -/
def guarded {α : Type} (action : EvalM α) : EvalM α := do
  checkpoint
  action

/-- Gives the evaluation up. What is underway goes on to the next checkpoint. -/
def cancel : EvalM Unit :=
  modify fun s => { s with cancelled := true }

/-- Gives the evaluation up if this is asked for. -/
def cancelIf : Bool → EvalM Unit
  | true => cancel
  | false => return

def record (e : Event) : EvalM Unit :=
  modify fun s => { s with events := e :: s.events }

/-- Records events in order. -/
def recordAll : List Event → EvalM Unit
  | [] => return
  | e :: rest => do
    record e
    recordAll rest

/-- Goes on with the result of an evaluation, or with the error that it fails with. -/
def handle {α β : Type} (x : EvalM α) (next : α → EvalM β) (rescue : EvalError → EvalM β) :
    EvalM β :=
  ExceptT.mk do
    match ← x.run with
    | .ok a => (next a).run
    | .error e => (rescue e).run

/-- A number for a new lambda, which no other one has as long as those made before have lower
numbers. -/
def freshLambda : EvalM Nat :=
  modifyGet fun s => (s.nextLambda, { s with nextLambda := s.nextLambda + 1 })

/-- The overload that a call at a site means. -/
def resolveAt (site : Nat) (registry : Registry) (matching : NameMatching) (name : String)
    (v : Value) (arguments : List Supplied) : EvalM (Option Resolution) :=
  modifyGet fun s =>
    let answer := registry.consult (s.memories.at site) matching name v arguments
    (answer.resolution, { s with memories := s.memories.set site answer.memory })

end EvalM

end Stencil
