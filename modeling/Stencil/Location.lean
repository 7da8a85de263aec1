import Stencil.Search

/-!
# Positions in a text

Offsets count characters, so that columns agree with what an editor shows. Lines and columns are
counted from one. The line of an offset is looked up in a table of the offsets at which lines begin.
Such a table is increasing and begins with zero, so every offset is on one of its lines. Main
statement: `LineTable.locate_offset`, a located offset is kept.
-/

namespace Stencil

/-- A place between two characters of a text. -/
structure Position where
  line : Nat
  column : Nat
  /-- Characters before this place. -/
  offset : Nat
deriving DecidableEq, Repr

/-- The place of something that was not read from a text. -/
def Position.nowhere : Position :=
  ⟨0, 0, 0⟩

/-- Line and column. -/
def Position.render (p : Position) : String :=
  toString p.line ++ ":" ++ toString p.column

/-- The characters from `start` up to, but not including, `stop`. -/
structure Span where
  start : Position
  stop : Position
deriving DecidableEq, Repr

namespace Span

/-- The span of something that was not read from a text. -/
def nowhere : Span :=
  ⟨.nowhere, .nowhere⟩

/-- The span of the one character at `p`. -/
def single (p : Position) : Span :=
  ⟨p, { p with column := p.column + 1, offset := p.offset + 1 }⟩

/-- Number of characters covered; none if the span ends before it begins. -/
def length (s : Span) : Nat :=
  s.stop.offset - s.start.offset

def isEmpty (s : Span) : Bool :=
  s.length == 0

/-- A span within one line names the line once. -/
def render (s : Span) : String :=
  if s.start.line == s.stop.line then
    s.start.render ++ "-" ++ toString s.stop.column
  else
    s.start.render ++ "-" ++ s.stop.render

end Span

/-- Offsets just after the newlines of a text whose first character has offset `offset`. -/
def lineStarts (offset : Nat) : List Char → List Nat
  | [] => []
  | c :: rest =>
    if c == '\n' then (offset + 1) :: lineStarts (offset + 1) rest
    else lineStarts (offset + 1) rest

theorem lt_of_mem_lineStarts {base : Nat} {text : List Char} {x : Nat}
    (h : x ∈ lineStarts base text) : base < x := by
  induction text generalizing base with
  | nil => cases h
  | cons c text ih =>
    rw [lineStarts] at h
    split at h
    · rcases List.mem_cons.mp h with rfl | h
      · exact Nat.lt_succ_self base
      · exact Nat.lt_of_succ_lt (ih h)
    · exact Nat.lt_of_succ_lt (ih h)

theorem pairwise_lineStarts (base : Nat) (text : List Char) :
    (lineStarts base text).Pairwise (· < ·) := by
  induction text generalizing base with
  | nil => exact .nil
  | cons c text ih =>
    rw [lineStarts]
    split
    · exact .cons (fun _ hx => lt_of_mem_lineStarts hx) (ih _)
    · exact ih _

/-- Where the lines of a text begin. -/
structure LineTable where
  /-- Number of lines after the first one. -/
  later : Nat
  /-- The offsets at which the lines begin. -/
  starts : Vector Nat (later + 1)
  first : starts.get 0 = 0
  increasing : Increasing starts

namespace LineTable

def ofText (text : List Char) : LineTable where
  later := (lineStarts 0 text).length
  starts := ⟨(0 :: lineStarts 0 text).toArray, rfl⟩
  first := rfl
  increasing i j h :=
    have hall : (0 :: lineStarts 0 text).Pairwise (· < ·) :=
      .cons (fun _ hx => lt_of_mem_lineStarts hx) (pairwise_lineStarts 0 text)
    List.pairwise_iff_getElem.mp hall i j i.isLt j.isLt h

/-- The index of the line that an offset is on: the line that begins there, or else the one before
the place that the offset would have among the line starts. -/
def line (t : LineTable) (offset : Nat) : Fin (t.later + 1) :=
  match search t.starts offset with
  | .held index => index
  | .free index => ⟨index - 1, by omega⟩

/-- The position with the given offset. Offsets beyond the text count as columns of its last
line. -/
def locate (t : LineTable) (offset : Nat) : Position :=
  let line := t.line offset
  { line := line + 1, column := offset - t.starts.get line + 1, offset }

/-- The span between two offsets. -/
def span (t : LineTable) (start stop : Nat) : Span :=
  ⟨t.locate start, t.locate stop⟩

@[simp] theorem locate_offset (t : LineTable) (o : Nat) : (t.locate o).offset = o := rfl

@[simp] theorem span_start_offset (t : LineTable) (a b : Nat) :
    (t.span a b).start.offset = a := rfl

@[simp] theorem span_stop_offset (t : LineTable) (a b : Nat) :
    (t.span a b).stop.offset = b := rfl

end LineTable

end Stencil
