import Stencil.Command

/-!
# Command line

`check EXPRESSION [--input JSON] [--pretty] [--syntax-only] [--compiled] [--config FILE]`,
`fmt EXPRESSION` and `formatters`. Without `--input` the data is read from standard input.
-/

namespace Stencil.Main

/-- The flags of a check. -/
structure Flags where
  expression : Option String := none
  input : Option String := none
  pretty : Bool := false
  onlyParses : Bool := false
  compiles : Bool := false
  config : Option String := none

/-- Reads the flags of a check. -/
def readFlags (f : Flags) : List String → Option Flags
  | [] => some f
  | "--input" :: text :: rest | "-i" :: text :: rest => readFlags { f with input := some text } rest
  | "--config" :: path :: rest => readFlags { f with config := some path } rest
  | "--pretty" :: rest | "-p" :: rest => readFlags { f with pretty := true } rest
  | "--syntax-only" :: rest => readFlags { f with onlyParses := true } rest
  | "--compiled" :: rest => readFlags { f with compiles := true } rest
  | text :: rest =>
    if f.expression.isSome || text.startsWith "-" then none
    else readFlags { f with expression := some text } rest

def usage : String :=
  "Usage: check EXPRESSION [--input JSON] [--pretty] [--syntax-only] [--compiled] [--config FILE]\n"
    ++ "       fmt EXPRESSION\n       formatters"

/-- Prints an error. -/
def fail (message : String) : IO UInt32 := do
  (← IO.getStderr).putStrLn message
  return 1

/-- The text of a configuration file, if there is one to read. -/
def readConfig : Option String → IO ConfigFile
  | none => return .none
  | some path => do
    try return .content (← IO.FS.readFile path)
    catch _ => return .unreadable

def runCheck (f : Flags) (expression : String) : IO UInt32 := do
  let input ←
    if f.input.isNone && !f.onlyParses && !(← (← IO.getStdin).isTty) then
      some <$> (← IO.getStdin).readToEnd
    else pure f.input
  let request : CheckRequest :=
    ⟨expression, input, f.onlyParses, f.compiles, ← readConfig f.config⟩
  match check request with
  | .ok .wellFormed => IO.println "Syntax is valid"
  | .ok (.result v) => IO.println (if f.pretty then v.toJson.pretty else v.toJson.compact)
  | .error e => return ← fail e.message
  return 0

/-- Carries out one command. -/
def run : List String → IO UInt32
  | "check" :: rest =>
    match readFlags {} rest with
    | some f =>
      match f.expression with
      | some expression => runCheck f expression
      | none => fail usage
    | none => fail usage
  | ["fmt", expression] =>
    match canonicalForm expression with
    | .ok text => do
      IO.println text
      return 0
    | .error e => fail e.message
  | ["formatters"] => do
    for line in formatterList do
      IO.println line
    return 0
  | _ => fail usage

end Stencil.Main

def main (arguments : List String) : IO UInt32 :=
  Stencil.Main.run arguments
