import Stencil.Location

/-!
# What can be wrong with the text of an expression

Reading never stops at the first problem: each one is recorded with the span it applies to, and
reading goes on.
-/

namespace Stencil

/-- A problem in the text of an expression. -/
inductive Fault where
  | badPathCharacter (c : Char)
  | rootNotLeading
  | parentNotLeading
  | danglingDot
  /-- A dot that cannot stand after the path read so far. -/
  | strayDot (path : String)
  | misplacedEntries
  | pathAfterNumber (number : String)
  | misplacedDollar
  | unterminatedString (delimiter : Char)
  | strayDelimiter (delimiter : Char)
  | missingFormatterName
  | unmatchedBracket (bracket : Char)
  | strayCharacter (c : Char)
  | strayOperator (symbol : String)
  | missingExpression
  | badArgumentName (name : String)
  | badLambdaParameter
deriving DecidableEq, Repr

/-- Editors show malformed characters and malformed structure differently. -/
inductive FaultCategory where
  /-- A malformed sequence of characters. -/
  | lexical
  /-- Well-formed parts in an order that means nothing. -/
  | structural
deriving DecidableEq, Repr

namespace Fault

def category : Fault → FaultCategory
  | missingFormatterName | danglingDot | pathAfterNumber _ | misplacedEntries
  | badLambdaParameter => .structural
  | _ => .lexical

/-- The sentence shown to the author of the expression. -/
def message : Fault → String
  | badPathCharacter c => s!"Invalid character '{c}' in path"
  | rootNotLeading =>
    "The root selector '~' is only valid as the first character of an expression"
  | parentNotLeading => "Parent selectors '../' must lead the path and follow each other directly"
  | danglingDot => "A path must not end with '.'"
  | strayDot path => s!"Unexpected '.' in path '{path}'"
  | misplacedEntries => "Object selector '?' must be followed by '.' or end the path"
  | pathAfterNumber number =>
    s!"Number '{number}' cannot be followed by another path segment without a formatter call"
  | misplacedDollar => "Special identifier '$' must start a path segment"
  | unterminatedString delimiter =>
    s!"Unterminated string literal, expected closing {delimiter}"
  | strayDelimiter delimiter => s!"Did not expect delimiter {delimiter} here"
  | missingFormatterName => "Formatter name missing before '('"
  | unmatchedBracket bracket => s!"Unmatched '{bracket}'"
  | strayCharacter c => s!"Unexpected character '{c}'"
  | strayOperator symbol => s!"Unexpected operator '{symbol}'"
  | missingExpression => "Expected an expression"
  | badArgumentName name => s!"Invalid argument name '{name}'"
  | badLambdaParameter => "Lambda parameters must be plain names"

end Fault

/-- A problem and where it is. -/
structure Diagnostic where
  span : Span
  fault : Fault
deriving DecidableEq, Repr

/-- The line that names the place and the problem. -/
def Diagnostic.render (d : Diagnostic) : String :=
  d.span.start.render ++ ": " ++ d.fault.message

/-- One line for each diagnostic. -/
def renderDiagnostics (ds : List Diagnostic) : String :=
  "\n".intercalate (ds.map Diagnostic.render)

end Stencil
