import Stencil.Snippet
import Stencil.Template.Split
import Stencil.Value.Text

/-!
# Templates

Texts with expressions in tags. A template is read once, with all tags, and can be rendered often.
The diagnostics of its tags have the positions that they have in the template.
-/

namespace Stencil

/-- A piece of a template, after its tags were read. -/
inductive Segment where
  | text (s : String)
  | tag (s : Snippet)

structure Template where
  segments : List Segment
  diagnostics : List Diagnostic

namespace Template

/-- Reads the tags among pieces, and gives their expressions sites from `next` on. -/
def readPieces (lines : LineTable) (next : Nat) : List Piece → List Segment
  | [] => []
  | .text cs :: rest => .text (String.ofList cs) :: readPieces lines next rest
  | .tag offset body :: rest =>
    let (snippet, after) :=
      Snippet.numberSites next ⟨String.ofList body, parseAt body ⟨lines, offset⟩⟩
    .tag snippet :: readPieces lines after rest

/-- What was wrong with the tags, in order. -/
def tagDiagnostics : List Segment → List Diagnostic
  | [] => []
  | .text _ :: rest => tagDiagnostics rest
  | .tag s :: rest => s.parsed.diagnostics ++ tagDiagnostics rest

/-- Reads a template. -/
def parse (text : String) : Template :=
  let cs := text.toList
  let lines := LineTable.ofText cs
  let split := split cs
  let segments := readPieces lines 0 split.pieces
  let unclosed := split.unclosed.toList.map fun offset =>
    Diagnostic.mk (lines.span offset (offset + 2)) (.unmatchedBracket '{')
  ⟨segments, tagDiagnostics segments ++ unclosed⟩

/-- The tags in order. -/
def tags (t : Template) : List Snippet :=
  t.segments.filterMap fun
    | .text _ => none
    | .tag s => some s

/-- The texts of segments, one after the other. -/
def renderSegments (scope : Scope) (root : Context) : List Segment → EvalM String
  | [] => return ""
  | .text s :: rest => return s ++ (← renderSegments scope root rest)
  | .tag s :: rest => do
    let result ← s.evaluate scope root
    let text := result.value.rendered scope.options.nullText
    return text ++ (← renderSegments scope root rest)

/-- The text of a template for some data. Tags that could not be read give what null gives. -/
def render (scope : Scope) (data : Value) (t : Template) : EvalM String :=
  renderSegments scope (.ofValue data) t.segments

end Template

end Stencil
