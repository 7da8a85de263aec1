import Stencil.Formatter.Conversion
import Stencil.Formatter.Name
import Stencil.Keyed

/-!
# Registries

A registry holds overloads in the order in which they were registered, an index of their names, and
converters. Its generation is a number that stands for its contents: every change draws a fresh
one, so that registries of one generation hold the same. A copy keeps the generation until either
is changed.

`Shelf` keeps several registries by name and hands out the generations.
-/

namespace Stencil

inductive RegistrationError where
  | badName (name : String)
  /-- A parameter that gets all that is left is followed by another one. -/
  | restNotLast (name : String)
deriving DecidableEq, Repr

def RegistrationError.message : RegistrationError → String
  | badName name => s!"Invalid formatter name '{name}'"
  | restNotLast name => s!"Rest parameter of '{name}' must be the last parameter"

structure Registry where
  generation : Nat
  signatures : Array Signature
  /-- Positions in `signatures`, by the name without its case. -/
  byName : List (String × List Nat)
  /-- Positions of the overloads without a name. -/
  nameless : List Nat
  converters : List Converter

namespace Registry

/-- A registry without contents. -/
def empty (generation : Nat) : Registry :=
  ⟨generation, #[], [], [], []⟩

/-- What keeps a signature out of every registry, if anything does. -/
def objection? (s : Signature) : Option RegistrationError :=
  match s.name with
  | some name =>
    if isFormatterName name then misplacedRest? s name else some (.badName name)
  | none => misplacedRest? s ""
where
  misplacedRest? (s : Signature) (name : String) : Option RegistrationError :=
    match s.params.findIdx? Param.isRest with
    | some i => if i + 1 = s.params.length then none else some (.restNotLast name)
    | none => none

/-- The positions filed under a name. -/
def positions (r : Registry) (name : String) : List Nat :=
  (r.byName.lookup (foldCase name)).getD []

/-- The registry with one more overload, which nothing speaks against. -/
def file (generation : Nat) (s : Signature) (r : Registry) : Registry :=
  let position := r.signatures.size
  let filed := { r with generation, signatures := r.signatures.push s }
  match s.name with
  | some name =>
    { filed with byName := Keyed.set (foldCase name) (r.positions name ++ [position]) r.byName }
  | none => { filed with nameless := r.nameless ++ [position] }

/-- Registers an overload, under a generation not used so far. -/
def register (generation : Nat) (s : Signature) (r : Registry) : Except RegistrationError Registry :=
  match objection? s with
  | some e => .error e
  | none => .ok (r.file generation s)

/-- Adds a converter, under a generation not used so far. -/
def addConverter (generation : Nat) (c : Converter) (r : Registry) : Registry :=
  { r with generation, converters := r.converters ++ [c] }

/-- Registers overloads one after the other and leaves out those that are refused. -/
def registerAll (generation : Nat) (r : Registry) (signatures : List Signature) : Registry :=
  signatures.foldl (fun r s => (r.register generation s).toOption.getD r) r

/-- The overload at a position, with the position. -/
def at? (r : Registry) (position : Nat) : Option (Nat × Signature) :=
  r.signatures[position]?.map fun s => (position, s)

/-- The overloads that a call by `name` can mean, with their positions, in the order of
registration. -/
def named (r : Registry) (name : String) (matching : NameMatching) : List (Nat × Signature) :=
  ((r.positions name).filterMap r.at?).filter fun (_, s) =>
    s.name.any fun registered => matching.admits registered name

/-- The overloads without a name, with their positions, in the order of registration. -/
def unnamed (r : Registry) : List (Nat × Signature) :=
  r.nameless.filterMap r.at?

end Registry

/-! ## Several registries -/

/-- Registries by name, and the next generation that no registry has had. -/
structure Shelf where
  registries : List (String × Registry)
  nextGeneration : Nat

namespace Shelf

/-- A shelf without registries. -/
def empty : Shelf :=
  ⟨[], 1⟩

def get? (s : Shelf) (name : String) : Option Registry :=
  s.registries.lookup name

/-- Puts a registry on the shelf in place of what has the name. -/
def put (s : Shelf) (name : String) (r : Registry) : Shelf :=
  { s with registries := Keyed.set name r s.registries }

/-- The shelf after its next generation was drawn. -/
def advance (s : Shelf) : Shelf :=
  { s with nextGeneration := s.nextGeneration + 1 }

/-- A new registry with the contents of another one, which will not be confused with it. -/
def create (s : Shelf) (name : String) (contents : Registry) : Shelf :=
  (s.put name { contents with generation := s.nextGeneration }).advance

/-- A copy of a registry under another name. -/
def copy (s : Shelf) (source name : String) : Shelf :=
  match s.get? source with
  | some r => s.put name r
  | none => s

/-- Registers an overload in one of the registries. If it is refused nothing changes. -/
def register (s : Shelf) (name : String) (signature : Signature) : Except RegistrationError Shelf :=
  match s.get? name with
  | some r => do
    let r ← r.register s.nextGeneration signature
    return (s.put name r).advance
  | none => .ok s

/-- Adds a converter to one of the registries. -/
def addConverter (s : Shelf) (name : String) (c : Converter) : Shelf :=
  match s.get? name with
  | some r => (s.put name (r.addConverter s.nextGeneration c)).advance
  | none => s

end Shelf

end Stencil
