/-!
# Paths

A path leads from one value to another: it is a list of parts, walked from the left. The first
parts may be selectors that go up (`~`, `../`) or stay (`.`); the others name members.
-/

namespace Stencil

/-- What a part of a path does. -/
inductive PartKind where
  /-- Looks a member up by its key. -/
  | member
  /-- `~`: goes to the outermost context. -/
  | root
  /-- `../`: goes to the enclosing context. -/
  | parent
  /-- `.`: stays where it is. -/
  | self
  /-- `?`: lists the members as key and value. -/
  | entries
  /-- A number in leading position. -/
  | number
  /-- `true` or `false`. -/
  | boolean
  /-- `null`. -/
  | null
deriving DecidableEq, Repr

/-- One part of a path. Selectors carry no key. -/
structure Part where
  kind : PartKind
  key : Option String
deriving DecidableEq, Repr

namespace Part

def member (key : String) : Part :=
  ⟨.member, some key⟩

/-- A part without a key. -/
def selector (kind : PartKind) : Part :=
  ⟨kind, none⟩

/-- The key, where a missing one counts as empty. -/
def keyText (p : Part) : String :=
  p.key.getD ""

/-- Selectors that are written before a path and take no dot after them. -/
def isLeading (p : Part) : Bool :=
  match p.kind with
  | .root | .parent | .self => true
  | _ => false

/-- The part as it is written. -/
def render (p : Part) : List Char :=
  match p.kind with
  | .root => ['~']
  | .parent => ['.', '.', '/']
  | .self => ['.']
  | .entries => ['?']
  | .member | .number | .boolean | .null => p.keyText.toList

end Part

/-- The parts still to be walked. -/
abbrev Path := List Part

namespace Path

/-- The path as it is written: a dot stands after each part but the last, save after a leading
selector. -/
def render : Path → List Char
  | [] => []
  | [p] => p.render
  | p :: q :: rest => p.render ++ (if p.isLeading then [] else ['.']) ++ render (q :: rest)

/-- The path as text. -/
def text (p : Path) : String :=
  String.ofList (render p)

/-- Whether a dot has to be written before something that follows the path. -/
def needsDot (p : Path) : Bool :=
  match p.getLast? with
  | some last => !last.isLeading
  | none => false

end Path

end Stencil
