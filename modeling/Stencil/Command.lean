import Stencil.Snippet
import Stencil.Value.Json

/-!
# Commands

What can be asked from a command line: to check and evaluate an expression on data in JSON, to write
it in its canonical form, and to list the formatters.
-/

namespace Stencil

/-- The configuration of a check. -/
inductive ConfigFile where
  | none
  /-- There is no file to read. -/
  | unreadable
  | content (text : String)

structure CheckRequest where
  expression : String
  /-- Data as a JSON text. -/
  input : Option String
  /-- Nothing is to be evaluated. -/
  onlyParses : Bool
  /-- The expression is evaluated in compiled form. -/
  compiles : Bool
  config : ConfigFile

/-- The answer to a check that went well. -/
inductive CheckAnswer where
  | wellFormed
  | result (v : Value)

inductive CommandError where
  | badExpression (ds : List Diagnostic)
  | evaluation (e : EvalError)
  | badInput
  | badConfig (e : ConfigError)
  | noInput

namespace CommandError

def configMessage (e : ConfigError) : String :=
  match e with
  | .malformed => "Failed to parse configuration"
  | .unreadable => "Failed to read configuration file"
  | .badValue field reason => s!"Invalid value for '{field}': {reason}"

def message : CommandError → String
  | badExpression ds => "Syntax errors:\n" ++ renderDiagnostics ds
  | evaluation e => "Evaluation error: " ++ e.message
  | badInput => "Invalid JSON"
  | badConfig e => "Invalid configuration: " ++ configMessage e
  | noInput => "No input provided. Use --input or pipe JSON to stdin."

end CommandError

/-- The options that a configuration makes. -/
def ConfigFile.options : ConfigFile → Except ConfigError Options
  | none => .ok .standard
  | unreadable => .error .unreadable
  | content text => (Config.ofText text).map .ofConfig

/-- Checks an expression, and evaluates it unless it is only to be read. Of several things that are
wrong the first in this order counts: the expression, missing input, the input, the configuration,
the evaluation. -/
def check (request : CheckRequest) : Except CommandError CheckAnswer := do
  let snippet := Snippet.ofText request.expression
  match snippet.parsed.expr, snippet.parsed.diagnostics with
  | some e, [] =>
    if request.onlyParses then return .wellFormed
    let some text := request.input | throw .noInput
    let some json := Json.ofText? text | throw .badInput
    let options ← request.config.options.mapError .badConfig
    let root := Context.ofValue (.ofJson json)
    let scope := Scope.ofOptions options
    let evaluation := if request.compiles then snippet.evaluate scope root else e.evaluate scope root
    match (evaluation.run.run RunState.fresh).1 with
    | .ok c => return .result c.value
    | .error e => throw (.evaluation e)
  | _, ds => throw (.badExpression ds)

/-- The canonical form of an expression. -/
def canonicalForm (expression : String) : Except CommandError String :=
  (format expression).mapError .badExpression

/-- The formatters that are always there, one entry for each overload. -/
def formatterList : List String :=
  Registry.standard.signatures.toList.map Signature.listing

end Stencil
