import Stencil.Expr.Equality
import Stencil.Expr.Render
import Stencil.Parser.Cursor
import Stencil.Parser.Scan

/-!
# Reading an expression

Operands are read directly, and binary operators are joined by precedence over a stack of operands
and a stack of operators. Every bracket that is open is kept on a stack of its own, so that it is
always known whether `)` and `,` close something.

A problem is recorded and reading goes on; the tree is then as good as it gets. There is no tree only
if the text holds no expression at all or a bracket is never closed.

The reading functions call each other with a bound on the depth of the calls, `fuel`. What they
return is `none` only if the bound was too small; `parse` starts with one that a text of that length
cannot use up.
-/

namespace Stencil

/-- Where an expression sits in its template. -/
structure Placement where
  lines : LineTable
  /-- Characters of the template before the expression. -/
  offset : Nat

namespace Placement

/-- The placement of an expression at an offset of a template. -/
def within (template : List Char) (offset : Nat) : Placement :=
  ⟨.ofText template, offset⟩

/-- The span in the template of a span in the expression. -/
def span (p : Placement) (start stop : Nat) : Span :=
  p.lines.span (p.offset + start) (p.offset + stop)

end Placement

/-- What an open bracket encloses. -/
inductive BracketKind where
  /-- The arguments of a call. -/
  | call
  /-- A group, or the parameters of a lambda. -/
  | group
  /-- The name of an argument. -/
  | argumentName
deriving DecidableEq, Repr

/-- The bracket itself. -/
def BracketKind.symbol : BracketKind → Char
  | call | group => '('
  | argumentName => '['

/-- A bracket that was opened and not closed yet. -/
structure OpenBracket where
  kind : BracketKind
  start : Nat
deriving DecidableEq, Repr

/-- What reading keeps track of. The last three fields are a record of what was done; nothing that is
read depends on them. -/
structure ParserState where
  cursor : Cursor
  diagnostics : List Diagnostic
  /-- Open brackets, the innermost first. -/
  brackets : List OpenBracket
  /-- Whether a bracket was found to be never closed. -/
  gaveUp : Bool
  /-- Calls of reading functions and turns of their loops so far, but for the turns in which a
  character is passed: the position counts these. -/
  steps : Nat
  /-- All brackets opened so far, the last one first. -/
  opened : List OpenBracket
  /-- Those of them that were closed, each with the offset of what closed it. -/
  closed : List (OpenBracket × Nat)

/-- A reading step; there is no result when the fuel has run out. -/
abbrev ParserM := StateT ParserState Option

namespace Parser

/-! ## Single steps -/

def position : ParserM Nat := do
  return (← get).cursor.position

def rest : ParserM (List Char) := do
  return (← get).cursor.rest

def current? : ParserM (Option Char) := do
  return (← get).cursor.current?

def advance (n : Nat) : ParserM Unit :=
  modify fun s => { s with cursor := s.cursor.advance n }

def skipBlanks : ParserM Unit :=
  modify fun s => { s with cursor := s.cursor.skipBlanks }

/-- Counts calls and turns of loops. -/
def count (n : Nat) : ParserM Unit :=
  modify fun s => { s with steps := s.steps + n }

/-- Counts a call or a turn of a loop. -/
def step : ParserM Unit :=
  count 1

/-- Whether an arrow follows. Each blank before it is looked at in a turn of a loop. -/
def arrowAhead : ParserM Bool := do
  let text ← rest
  count (text.takeWhile Text.isBlank).length
  return arrowFollows text

def openBracket (kind : BracketKind) (start : Nat) : ParserM Unit :=
  modify fun s =>
    { s with brackets := ⟨kind, start⟩ :: s.brackets, opened := ⟨kind, start⟩ :: s.opened }

/-- Closes the innermost open bracket by the character that was read last. -/
def closeBracket : ParserM Unit :=
  modify fun s =>
    { s with
      brackets := s.brackets.tail
      closed := s.brackets.head?.toList.map (·, s.cursor.position - 1) ++ s.closed }

/-- Takes the innermost open bracket away, which nothing closes. -/
def dropBracket : ParserM Unit :=
  modify fun s => { s with brackets := s.brackets.tail }

/-- Records a problem between two offsets of the expression. -/
def report (place : Placement) (start stop : Nat) (fault : Fault) : ParserM Unit :=
  modify fun s =>
    { s with diagnostics := s.diagnostics ++ [⟨place.span start (max start stop), fault⟩] }

/-- Records a problem at the current character. -/
def reportHere (place : Placement) (fault : Fault) : ParserM Unit := do
  let here ← position
  report place here (here + 1) fault

/-- The origin of a node that began at `start` and ends here. Its text is added later. -/
def originFrom (place : Placement) (start : Nat) : ParserM Origin := do
  return ⟨place.span start (← position), none⟩

/-- The empty path that stands where nothing could be read. -/
def placeholder (place : Placement) (start : Nat) : ParserM Expr := do
  return .path (← originFrom place start) []

/-- Reports the innermost open bracket as never closed. -/
def giveUp (place : Placement) : ParserM Unit := do
  match (← get).brackets with
  | [] => pure ()
  | bracket :: _ =>
    dropBracket
    report place bracket.start (bracket.start + 1) (.unmatchedBracket bracket.kind.symbol)
  modify fun s => { s with gaveUp := true }

/-! ## Names and literals -/

/-- Reads a path. If a character is refused, the rest of the path is skipped. -/
def readPath (place : Placement) (t : Tokenizer) : ParserM (Option Tokenizer) := do
  step
  let scan := scanPath t (← rest)
  advance scan.read
  match scan.fault with
  | none => return some scan.tokenizer
  | some fault =>
    reportHere place fault
    advance 1
    advance (skipPath (← rest))
    return none

/-- Reads a string literal, with the cursor on its opening delimiter. -/
def readString (place : Placement) (delimiter : Char) : ParserM Expr := do
  step
  let start ← position
  advance 1
  let scan := scanString delimiter (← rest)
  advance scan.read
  if !scan.closed then
    report place start (← position) (.unterminatedString delimiter)
  return .string (← originFrom place start) delimiter scan.fragments

/-- Reads the name of an argument, with the cursor on `[`. Names are for the arguments of calls. -/
def readArgumentName (place : Placement) (kind : BracketKind) : ParserM (Option String) := do
  step
  let start ← position
  openBracket .argumentName start
  advance 1
  let name := (← rest).takeWhile (· != ']')
  advance name.length
  match ← current? with
  | none =>
    giveUp place
    return none
  | some _ =>
    advance 1
    closeBracket
    if !name.isEmpty && name.all Text.isWord && kind == .call then
      return some (String.ofList name)
    else
      report place start (← position) (.badArgumentName (String.ofList name))
      return none

/-! ## Joining operands -/

/-- Joins two operands. -/
def join (op : Operator) (left right : Expr) : Expr :=
  .binary ⟨⟨left.span.start, right.span.stop⟩, none⟩ 0 op left right

/-- Joins the operands of all operators on top of the stack that bind at least as tightly as
`precedence`. Both stacks have their top first. -/
def reduce (precedence : Nat) : List Expr → List Operator → List Expr × List Operator
  | right :: left :: operands, op :: operators =>
    if op.precedence < precedence then (right :: left :: operands, op :: operators)
    else reduce precedence (join op left right :: operands) operators
  | operands, operators => (operands, operators)

/-- Whether the expression can stand for a parameter of a lambda. -/
def isParameter : Expr → Bool
  | .path _ [p] => p.kind == .member
  | _ => false

/-- Whether the expression can stand before an arrow. -/
def areParameters : Expr → Bool
  | .list _ _ items => items.all isParameter
  | e => isParameter e

/-- The number with a minus in front of it. -/
def negate (origin : Origin) (literal : String) (value : Numeral) : Expr :=
  let literal := "-" ++ literal
  .number origin literal ((Numeral.ofLiteral? literal).getD value)

/-! ## Expressions -/

mutual

/-- Reads operands with operators between them. -/
def expression (place : Placement) : Nat → ParserM (Option Expr)
  | 0 => failure
  | fuel + 1 => do
    step
    match ← operand place fuel with
    | none => return none
    | some first =>
      let (operands, operators) ← operators place fuel [first] []
      return (reduce 0 operands operators).1.head?

/-- Reads operators, each with its right operand, onto the stacks. -/
def operators (place : Placement) :
    Nat → List Expr → List Operator → ParserM (List Expr × List Operator)
  | 0, _, _ => failure
  | fuel + 1, operands, ops => do
    step
    skipBlanks
    match ← current? with
    | none => return (operands, ops)
    | some c =>
      if (c == ')' || c == ',') && !(← get).brackets.isEmpty then
        return (operands, ops)
      else if c == ')' then
        reportHere place (.unmatchedBracket ')')
        advance 1
        operators place fuel operands ops
      else if c == ',' then
        reportHere place (.strayCharacter ',')
        advance 1
        operators place fuel operands ops
      else if c == '\'' || c == '"' then
        reportHere place (.strayDelimiter c)
        let _ ← readString place c
        operators place fuel operands ops
      else if ['=', '>'].isPrefixOf (← rest) then
        let start ← position
        advance 2
        report place start (start + 2) (.strayOperator "=>")
        operators place fuel operands ops
      else
        match Operator.atStart? (← rest) with
        | none =>
          reportHere place (.strayCharacter c)
          advance 1
          operators place fuel operands ops
        | some op =>
          advance op.width
          -- The loop that takes operators off the stack again has a turn for each.
          step
          let (operands, ops) := reduce op.precedence operands ops
          match ← operand place fuel with
          | some right => operators place fuel (right :: operands) (op :: ops)
          | none => return (operands, ops)

/-- Reads one operand, which its first character decides. -/
def operand (place : Placement) : Nat → ParserM (Option Expr)
  | 0 => failure
  | fuel + 1 => do
    step
    skipBlanks
    let start ← position
    match ← current? with
    | none =>
      report place start start .missingExpression
      return none
    | some c =>
      let next := (← get).cursor.peek? 1
      if c == '\'' || c == '"' then
        let literal ← readString place c
        chain place fuel literal start
      else if c == '(' then group place fuel
      else if c == '!' && next != some '=' then
        advance 1
        match ← operand place fuel with
        | none => return none
        | some e => return some (.unary (← originFrom place start) 0 .not e)
      else if c == '-' && next.any Char.isDigit then
        advance 1
        match ← operand place fuel with
        | none => return none
        | some (.number _ literal value) =>
          return some (negate (← originFrom place start) literal value)
        | some other =>
          report place start (start + 1) (.strayOperator "-")
          return some other
      else if c == ')' || c == ',' || c == ']' then
        reportHere place .missingExpression
        return none
      else if c == '[' || c == '\x7b' || c == '\x7d' then
        reportHere place (.strayCharacter c)
        advance 1
        return none
      else
        match Operator.atStart? (← rest) with
        | some op =>
          report place start (start + op.width) (.strayOperator op.symbol)
          advance op.width
          operand place fuel
        | none => pathOperand place fuel start

/-- Reads an operand that begins with a path: the path alone, a number, a call or a lambda. -/
def pathOperand (place : Placement) : Nat → Nat → ParserM (Option Expr)
  | 0, _ => failure
  | fuel + 1, start => do
    step
    match ← readPath place .leading with
    | none =>
      skipCall place fuel
      return some (← placeholder place start)
    | some t =>
      if (← current?) == some '(' then
        call place fuel t start
      else
        match t.path with
        | .error fault =>
          report place start (← position) fault
          return some (← placeholder place start)
        | .ok parts =>
          let origin ← originFrom place start
          match parts with
          | [⟨.number, key⟩] =>
            let literal := key.getD ""
            match Numeral.ofLiteral? literal with
            | some value => return some (.number origin literal value)
            | none => return some (.path origin parts)
          | [⟨.member, _⟩] =>
            if ← arrowAhead then lambda place fuel (.path origin parts) start
            else return some (.path origin parts)
          | _ => return some (.path origin parts)

/-- After a path that was given up: reads the arguments that follow it, for what may be wrong in
them. -/
def skipCall (place : Placement) : Nat → ParserM Unit
  | 0 => failure
  | fuel + 1 => do
    step
    if (← current?) == some '(' then
      let start ← position
      advance 1
      let _ ← arguments place fuel .call start

/-- Reads a call, with the cursor on `(`, and the links after it. -/
def call (place : Placement) : Nat → Tokenizer → Nat → ParserM (Option Expr)
  | 0, _, _ => failure
  | fuel + 1, t, start => do
    step
    let bracket ← position
    advance 1
    let args ← arguments place fuel .call bracket
    match t.call with
    | .ok (parts, name) =>
      chain place fuel (.call (← originFrom place start) 0 parts name args) start
    | .error fault =>
      report place start (bracket + 1) fault
      return some (← placeholder place start)

/-- Reads the links that follow a call, a string or a group directly. -/
def chain (place : Placement) : Nat → Expr → Nat → ParserM (Option Expr)
  | 0, _, _ => failure
  | fuel + 1, first, start => do
    step
    match ← links place fuel with
    | [] => return some first
    | more => return some (.list (← originFrom place start) .chain (first :: more))

/-- Reads links, each after its dot. Only a call can be followed by another link. -/
def links (place : Placement) : Nat → ParserM (List Expr)
  | 0 => failure
  | fuel + 1 => do
    step
    if (← current?) != some '.' then
      return []
    else
      advance 1
      let start ← position
      match ← readPath place .continuation with
      | none =>
        skipCall place fuel
        return [← placeholder place start]
      | some t =>
        if (← current?) == some '(' then
          let bracket ← position
          advance 1
          let args ← arguments place fuel .call bracket
          match t.call with
          | .ok (parts, name) =>
            let link := .call (← originFrom place start) 0 parts name args
            return link :: (← links place fuel)
          | .error fault =>
            report place start (bracket + 1) fault
            return [← placeholder place start]
        else if t.isEmpty then
          report place (start - 1) start .danglingDot
          return []
        else
          match t.path with
          | .ok parts => return [.path (← originFrom place start) parts]
          | .error fault =>
            report place start (← position) fault
            return [← placeholder place start]

/-- Reads a group or the parameters of a lambda, with the cursor on `(`. -/
def group (place : Placement) : Nat → ParserM (Option Expr)
  | 0 => failure
  | fuel + 1 => do
    step
    let start ← position
    advance 1
    let items := (← arguments place fuel .group start).map Argument.expr
    if (← get).gaveUp then
      return none
    else if ← arrowAhead then
      let origin ← originFrom place start
      lambda place fuel (.list origin .arguments items) start
    else
      match items with
      | [] => report place start (← position) .missingExpression
      | [_] => pure ()
      | _ => report place start (← position) (.strayCharacter ',')
      chain place fuel (.list (← originFrom place start) .bracket items) start

/-- Reads the arrow and the body of a lambda. -/
def lambda (place : Placement) : Nat → Expr → Nat → ParserM (Option Expr)
  | 0, _, _ => failure
  | fuel + 1, parameters, start => do
    step
    skipBlanks
    advance 2
    if !areParameters parameters then
      report place start (← position) .badLambdaParameter
    match ← expression place fuel with
    | none => return none
    | some body => return some (.lambda (← originFrom place start) parameters body)

/-- Reads what stands in a bracket that was opened at `start`, up to and with its end. -/
def arguments (place : Placement) : Nat → BracketKind → Nat → ParserM (List Argument)
  | 0, _, _ => failure
  | fuel + 1, kind, start => do
    step
    openBracket kind start
    skipBlanks
    if (← current?) == some ')' then
      advance 1
      closeBracket
      return []
    else argumentList place fuel kind

/-- Reads arguments, each with what separates it from the next. -/
def argumentList (place : Placement) : Nat → BracketKind → ParserM (List Argument)
  | 0, _ => failure
  | fuel + 1, kind => do
    step
    skipBlanks
    let start ← position
    let name ← if (← current?) == some '[' then readArgumentName place kind else pure none
    let e ← expression place fuel
    let here ← originFrom place start
    let read : List Argument := e.toList.map fun e => ⟨name, here.span, e⟩
    skipBlanks
    match ← current? with
    | some c =>
      if c == ')' then
        advance 1
        closeBracket
        return read
      else
        if c != ',' then reportHere place (.strayCharacter c)
        advance 1
        return read ++ (← argumentList place fuel kind)
    | none =>
      giveUp place
      return read

end

/-- Reads the whole text. -/
def whole (place : Placement) (fuel : Nat) : ParserM (Option Expr) := do
  skipBlanks
  match ← current? with
  | none =>
    let here ← position
    report place here here .missingExpression
    return none
  | some _ =>
    let e ← expression place fuel
    return if (← get).gaveUp then none else e

/-- The state before anything was read. -/
def start (text : List Char) : ParserState :=
  { cursor := .ofText text, diagnostics := [], brackets := [], gaveUp := false, steps := 0,
    opened := [], closed := [] }

/-- A bound on the depth of calls that reading a text of `n` characters cannot reach. -/
def enoughFuel (n : Nat) : Nat :=
  16 * (n + 2)

end Parser

/-- What came of reading an expression: the tree, if there is one, and all problems. -/
structure Parsed where
  expr : Option Expr
  diagnostics : List Diagnostic

/-- Whether there is a tree and nothing was wrong. -/
def Parsed.isValid (p : Parsed) : Bool :=
  p.expr.isSome && p.diagnostics.isEmpty

/-- The text between two offsets of a template, for an expression that begins at offset `base`, up to
the blanks at its end. -/
def sourceText (text : List Char) (base : Nat) (span : Span) : Option String :=
  let start := span.start.offset - base
  let stop := span.stop.offset - base
  if base ≤ span.start.offset && start < stop && stop ≤ text.length then
    some (String.ofList (Text.trimEnd ((text.take stop).drop start)))
  else none

/-- The tree with the text that each node was read from. -/
def Expr.withSources (text : List Char) (base : Nat) (e : Expr) : Expr :=
  e.mapOrigin fun o => { o with source := sourceText text base o.span }

/-- Reads an expression that sits somewhere in a template. -/
def parseAt (text : List Char) (place : Placement) : Parsed :=
  match (Parser.whole place (Parser.enoughFuel text.length)).run (Parser.start text) with
  | none => ⟨none, []⟩
  | some (e, s) =>
    ⟨e.map fun e => ((e.withSources text place.offset).numberSites 0).1, s.diagnostics⟩

/-- Reads an expression that stands alone. -/
def parse (text : String) : Parsed :=
  parseAt text.toList (.within text.toList 0)

/-- Parse without diagnostics, and the canonical text. -/
def format (text : String) : Except (List Diagnostic) String :=
  let parsed := parse text
  match parsed.expr, parsed.diagnostics with
  | some e, [] => .ok e.canonical
  | _, diagnostics => .error diagnostics

end Stencil
