import Stencil.Formatter.Overload

/-!
# Remembered choices

A place where a formatter is called remembers the last choice made there and takes it again for a
call of the same shape. Asking takes three steps that can be taken apart: look at what is
remembered, make a choice if that does not serve, and remember it if it may be used again.
-/

namespace Stencil

/-- What a place remembers. -/
abbrev Memory := Option Resolution

namespace Memory

/-- The remembered choice, if it was made for a call of the given shape. -/
def find? (m : Memory) (shape : CallShape) : Option Resolution :=
  m.filter fun r => r.shape = shape

/-- What is remembered after a choice was made. -/
def keep (m : Memory) (r : Resolution) : Memory :=
  if r.shape.isReusable then some r else m

/-- What a place remembers, for inspection. -/
def inspect (m : Memory) : String :=
  "FormatterCacheCell(" ++ m.elim "empty" (fun r => r.signature.text) ++ ")"

end Memory

/-- The answer to a call. -/
structure Consultation where
  resolution : Option Resolution
  memory : Memory
  /-- Whether the choice is the one that was remembered before. -/
  isRemembered : Bool

/-- The overload that a call means, by what is remembered or else by a choice. -/
def Registry.consult (r : Registry) (m : Memory) (matching : NameMatching) (name : String)
    (v : Value) (arguments : List Supplied) : Consultation :=
  match m.find? (.ofCall r matching v arguments) with
  | some found => ⟨some found, m, true⟩
  | none =>
    match r.resolve matching name v arguments with
    | some made => ⟨some made, m.keep made, false⟩
    | none => ⟨none, m, false⟩

end Stencil
