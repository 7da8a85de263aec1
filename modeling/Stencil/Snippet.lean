import Stencil.Evaluation
import Stencil.Parser

/-!
# Snippets

An expression that was read once and can be evaluated often, in compiled form.
-/

namespace Stencil

structure Snippet where
  source : String
  parsed : Parsed

namespace Snippet

/-- Reads a text that stands alone. -/
def ofText (source : String) : Snippet :=
  ⟨source, parse source⟩

/-- Whether the text was read without problems. -/
def isValid (s : Snippet) : Bool :=
  s.parsed.isValid

/-- The code of a valid snippet. -/
def code? (s : Snippet) : Option Code :=
  if s.isValid then s.parsed.expr.map Expr.code else none

/-- The snippet with sites from `next` on, and the first number that is left. Snippets that are
evaluated with one state need sites of their own. -/
def numberSites (next : Nat) (s : Snippet) : Snippet × Nat :=
  match s.parsed.expr with
  | some e =>
    let (e, after) := e.numberSites next
    ({ s with parsed := { s.parsed with expr := some e } }, after)
  | none => (s, next)

/-- Evaluates the code of the snippet; one with problems gives null. -/
def evaluate (scope : Scope) (s : Snippet) (c : Context) : EvalM Context :=
  match s.code? with
  | some code => do
    EvalM.prepare scope.options code
    code.evaluate scope c
  | none => return c.synthetic .null

end Snippet

end Stencil
