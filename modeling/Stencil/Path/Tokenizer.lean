import Stencil.Diagnostic
import Stencil.Path
import Stencil.Text.Word

/-!
# Reading a path character by character

A tokenizer takes the characters of one path in turn and classifies its segments. What a character
means depends on the stage only, and a character that cannot stand there leaves the tokenizer as it
was. The end of a path is read in one of two ways: `Tokenizer.path` for a plain path,
`Tokenizer.call` for one that is followed by `(`, whose last segment then names a formatter.
-/

namespace Stencil

/-- What the characters read so far end with. -/
inductive TokenizerStage where
  /-- Nothing was read. -/
  | start
  /-- One dot at the beginning, or after `../`. -/
  | dot
  /-- Two dots that wait for a slash. -/
  | dotDot
  | afterParent
  | afterRoot
  /-- Inside a named segment. -/
  | segment
  /-- Inside a number in leading position. -/
  | number
  /-- A number and a dot: the next character decides between a decimal point and a separator. -/
  | numberDot
  /-- A dot between two segments. -/
  | separator
  | afterEntries
  /-- So many dots that they can start nothing. -/
  | stray (dots : Nat)
deriving DecidableEq, Repr

/-- The state of reading one path. -/
structure Tokenizer where
  parts : Path
  /-- Characters of the segment that is being read. -/
  segment : List Char
  stage : TokenizerStage
  /-- Whether the number being read has a decimal point. -/
  hasPoint : Bool
  /-- Whether selectors may lead the path. -/
  selectors : Bool
deriving DecidableEq, Repr

/-- Whether the text is made of digits with at most one point between them. -/
def isNumberLiteral (text : List Char) : Bool :=
  let whole := text.takeWhile Char.isDigit
  !whole.isEmpty && match text.dropWhile Char.isDigit with
    | [] => true
    | '.' :: fraction => !fraction.isEmpty && fraction.all Char.isDigit
    | _ => false

/-- Characters that a path may consist of. -/
def isPathChar (c : Char) : Bool :=
  Text.isWord c || c == '.' || c == '$' || c == '~' || c == '?' || c == '/'

/-- The kind of a segment that begins a path. -/
def PartKind.ofLeading (key : List Char) : PartKind :=
  if key == "true".toList || key == "false".toList then .boolean
  else if key == "null".toList then .null
  else if isNumberLiteral key then .number
  else .member

namespace Tokenizer

/-- A tokenizer for a path that begins an operand. -/
def leading : Tokenizer :=
  { parts := [], segment := [], stage := .start, hasPoint := false, selectors := true }

/-- A tokenizer for a path that continues a chain, where no selector may lead. -/
def continuation : Tokenizer :=
  { leading with selectors := false }

/-- Whether nothing was read yet. -/
def isEmpty (t : Tokenizer) : Bool :=
  t.stage == .start

/-- Whether a slash would belong to the path rather than be a division. -/
def expectsSlash (t : Tokenizer) : Bool :=
  match t.stage with
  | .dotDot => true
  | .stray dots => 2 ≤ dots
  | _ => false

/-- The path read so far, as error messages show it. -/
def shown (t : Tokenizer) : String :=
  String.ofList (t.parts.render ++ t.segment)

/-- Ends the segment that is being read. -/
def finish (t : Tokenizer) : Tokenizer :=
  if t.segment.isEmpty then t
  else
    let kind := if t.parts.isEmpty then PartKind.ofLeading t.segment else .member
    { t with
      parts := t.parts ++ [⟨kind, some (String.ofList t.segment)⟩], segment := [], hasPoint := false }

/-- Adds a part without a key. -/
def select (t : Tokenizer) (kind : PartKind) : Tokenizer :=
  { t with parts := t.parts ++ [Part.selector kind] }

/-- Adds a character to the segment and goes on at `stage`. -/
def extend (t : Tokenizer) (c : Char) (stage : TokenizerStage) : Tokenizer :=
  { t with segment := t.segment ++ [c], stage }

/-- Reads `~`. -/
def root (t : Tokenizer) : Except Fault Tokenizer :=
  if t.stage == .start && t.selectors then .ok { t.select .root with stage := .afterRoot }
  else .error .rootNotLeading

/-- Reads `.`. -/
def dot (t : Tokenizer) : Except Fault Tokenizer :=
  match t.stage with
  | .start => if t.selectors then .ok { t with stage := .dot } else .error (.strayDot t.shown)
  | .afterParent => .ok { t with stage := .dot }
  | .dot => .ok { t with stage := .dotDot }
  | .segment => .ok { t.finish with stage := .separator }
  | .number =>
    if t.hasPoint then .ok { t.finish with stage := .separator }
    else .ok { t with stage := .numberDot }
  | .afterEntries => .ok { t with stage := .separator }
  | .afterRoot => .ok { t with stage := .stray 1 }
  | .separator => .ok { t with stage := .stray 2 }
  | .stray dots => .ok { t with stage := .stray (dots + 1) }
  | .dotDot | .numberDot => .error (.strayDot t.shown)

/-- Reads `/`. -/
def slash (t : Tokenizer) : Except Fault Tokenizer :=
  match t.stage with
  | .dotDot => .ok { t.select .parent with stage := .afterParent }
  | .stray dots =>
    if 2 ≤ dots then .error .parentNotLeading else .error (.badPathCharacter '/')
  | _ => .error (.badPathCharacter '/')

/-- Reads `?`. -/
def entries (t : Tokenizer) : Except Fault Tokenizer :=
  let goOn (t : Tokenizer) := .ok { t.select .entries with stage := .afterEntries }
  match t.stage with
  | .segment | .number | .numberDot => goOn t.finish
  | .dot => if t.parts.isEmpty then goOn (t.select .self) else .error (.strayDot t.shown)
  | .start | .separator | .afterRoot | .afterParent => goOn t
  | .afterEntries => .error .misplacedEntries
  | .dotDot | .stray _ => .error (.strayDot t.shown)

/-- The tokenizer with which a new segment begins; a dot before it stands for the current context.
There is none where no segment can begin. -/
def beginSegment (t : Tokenizer) : Except Fault (Option Tokenizer) :=
  match t.stage with
  | .start | .separator | .afterRoot | .afterParent => .ok (some t)
  | .dot => if t.parts.isEmpty then .ok (some (t.select .self)) else .error (.strayDot t.shown)
  | .dotDot | .stray _ => .error (.strayDot t.shown)
  | .afterEntries | .segment | .number | .numberDot => .ok none

/-- Reads `$`. -/
def dollar (t : Tokenizer) : Except Fault Tokenizer := do
  match ← t.beginSegment with
  | some t => .ok (t.extend '$' .segment)
  | none => .error .misplacedDollar

/-- Reads a word character. -/
def word (t : Tokenizer) (c : Char) : Except Fault Tokenizer :=
  match t.stage with
  | .segment => .ok (t.extend c .segment)
  | .number =>
    if c.isDigit then .ok (t.extend c .number)
    else if t.hasPoint then .error (.pathAfterNumber (String.ofList t.segment))
    -- a name may begin with digits
    else .ok (t.extend c .segment)
  | .numberDot =>
    if c.isDigit then
      .ok { t with segment := t.segment ++ ['.', c], hasPoint := true, stage := .number }
    else .ok (t.finish.extend c .segment)
  | _ => do
    match ← t.beginSegment with
    | none => .error .misplacedEntries
    | some t => .ok (t.extend c (if t.parts.isEmpty && c.isDigit then .number else .segment))

/-- Reads one character of the path. -/
def add (t : Tokenizer) (c : Char) : Except Fault Tokenizer :=
  if c == '~' then t.root
  else if c == '.' then t.dot
  else if c == '/' then t.slash
  else if c == '?' then t.entries
  else if c == '$' then t.dollar
  else if Text.isWord c then t.word c
  else .error (.badPathCharacter c)

/-- A number stands alone. -/
def checkNumber (parts : Path) : Except Fault Unit :=
  match parts with
  | first :: _ :: _ =>
    if first.kind == .number then .error (.pathAfterNumber first.keyText) else .ok ()
  | _ => .ok ()

/-- The path read, if no call follows it. -/
def path (t : Tokenizer) : Except Fault Path := do
  let parts ← match t.stage with
    | .start | .afterParent | .afterRoot | .afterEntries => .ok t.parts
    | .dot =>
      if t.parts.isEmpty then .ok (t.select .self).parts
      else .error (.strayDot (t.shown ++ "."))
    | .segment | .number => .ok t.finish.parts
    | .separator | .numberDot => .error .danglingDot
    | .dotDot | .stray _ => .error (.strayDot (t.shown ++ "."))
  checkNumber parts
  .ok parts

/-- The path and the formatter name read, if `(` follows. The last segment is the name; a dot at the
end gives the empty name of a bracket call. -/
def call (t : Tokenizer) : Except Fault (Path × String) := do
  let (parts, name) ← match t.stage with
    | .start | .separator => .ok (t.parts, "")
    | .dot =>
      if t.parts.isEmpty then .ok ((t.select .self).parts, "") else .error (.strayDot t.shown)
    | .numberDot => .ok (t.finish.parts, "")
    | .segment | .number =>
      match t.finish.parts.getLast? with
      | some ⟨.member, some key⟩ => .ok (t.finish.parts.dropLast, key)
      | _ => .error .missingFormatterName
    | .afterRoot | .afterParent | .afterEntries | .dotDot => .error .missingFormatterName
    | .stray _ => .error (.strayDot t.shown)
  checkNumber parts
  .ok (parts, name)

end Tokenizer

end Stencil
