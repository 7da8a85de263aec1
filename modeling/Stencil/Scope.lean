import Stencil.EvalError
import Stencil.Options

/-!
# Scopes

The variables that can be seen at a point of an evaluation, with its options and the number of
lambdas that run around it. Variables are declared in frames; an inner frame hides the variables of
outer ones. What happens in a deeper scope does not change the one it came from.
-/

namespace Stencil

/-- The variables that were declared together. -/
abbrev Frame := List (String × Value)

structure Scope where
  options : Options
  /-- The innermost frame. -/
  frame : Frame
  /-- The frames around it, from the inside out. -/
  outer : List Frame
  depth : Nat

namespace Scope

/-- A scope without variables. -/
def ofOptions (options : Options) : Scope :=
  ⟨options, [], [], 0⟩

/-- All frames, from the inside out. -/
def frames (s : Scope) : List Frame :=
  s.frame :: s.outer

/-- Declares a variable in the innermost frame. -/
def set (s : Scope) (name : String) (v : Value) : Scope :=
  { s with frame := Keyed.set name v s.frame }

/-- The value of a variable, of the innermost one with the name. -/
def get? (s : Scope) (name : String) : Option Value :=
  s.frames.findSome? (List.lookup name)

def has (s : Scope) (name : String) : Bool :=
  s.frames.any (Keyed.has name)

/-- Frames without the innermost variable of a name. -/
def eraseFrom (name : String) : List Frame → List Frame
  | [] => []
  | f :: rest => if Keyed.has name f then Keyed.erase name f :: rest else f :: eraseFrom name rest

/-- Removes the innermost variable of a name, which uncovers one that it hid. -/
def erase (s : Scope) (name : String) : Scope :=
  if Keyed.has name s.frame then { s with frame := Keyed.erase name s.frame }
  else { s with outer := eraseFrom name s.outer }

/-- Opens a frame. -/
def push (s : Scope) : Scope :=
  { s with frame := [], outer := s.frame :: s.outer }

/-- Drops the innermost frame. The last one stays. -/
def pop (s : Scope) : Scope :=
  match s.outer with
  | [] => s
  | f :: rest => { s with frame := f, outer := rest }

/-- The scope of a lambda that runs in this one. -/
def descend (s : Scope) : Except EvalError Scope :=
  if s.depth + 1 ≤ s.options.limit then .ok { s.push with depth := s.depth + 1 }
  else .error (.tooDeep (s.depth + 1) s.options.limit)

/-- Declares variables with the given values; null for those that have none. -/
def bindAll (s : Scope) : List String → List Value → Scope
  | [], _ => s
  | name :: names, [] => (s.set name .null).bindAll names []
  | name :: names, v :: vs => (s.set name v).bindAll names vs

/-- The names of the variables, each once, in order. -/
def names (s : Scope) : List String :=
  ((s.frames.flatMap fun f => f.map Prod.fst).mergeSort fun a b => !(b < a)).eraseDups

/-- The form of a scope for inspection. -/
def inspect (s : Scope) (cancelled : Bool) : String :=
  "ScopeData \x7b variables: " ++ quotedNames s.names ++ ", depth: " ++ toString s.depth
    ++ ", cancelled: " ++ (if cancelled then "true" else "false") ++ " \x7d"

end Scope

end Stencil
