import Stencil.Expr
import Stencil.Path.Tokenizer
import Stencil.Text.Blank

/-!
# Reading names and literals

The parts of an expression that are read without looking inside brackets: paths and string
literals. Both are functions of the text that is left, and tell how much of it they used.
-/

namespace Stencil

/-- Characters that end a path wherever they stand. -/
def isPathEnd (c : Char) : Bool :=
  Text.isBlank c || c == '(' || c == ')' || c == ',' || c == '[' || c == ']' || c == '\x7b'
    || c == '\x7d' || c == '\'' || c == '"'

/-- Whether a path ends before the text: at a bracket, quote or blank, at an arrow, or at an
operator. A single `?` belongs to the path, two of them are an operator. -/
def endsPath : List Char → Bool
  | [] => true
  | c :: rest =>
    isPathEnd c || (c == '=' && rest.head? == some '>')
      || if c == '?' then rest.head? == some '?' else (Operator.atStart? (c :: rest)).isSome

/-- What was read of a path. -/
structure PathScan where
  tokenizer : Tokenizer
  /-- Characters that the tokenizer took. -/
  read : Nat
  /-- Why the next character was refused, if it was. -/
  fault : Option Fault

/-- Feeds a tokenizer until the path ends or a character is refused. A slash that completes a parent
selector is no division. -/
def scanPath (t : Tokenizer) : List Char → PathScan
  | [] => ⟨t, 0, none⟩
  | c :: rest =>
    if !(c == '/' && t.expectsSlash) && endsPath (c :: rest) then ⟨t, 0, none⟩
    else match t.add c with
      | .error fault => ⟨t, 0, some fault⟩
      | .ok t =>
        let scan := scanPath t rest
        { scan with read := scan.read + 1 }

/-- Number of characters up to the end of a path that is given up. -/
def skipPath : List Char → Nat
  | [] => 0
  | c :: rest => if endsPath (c :: rest) then 0 else skipPath rest + 1

/-- What was read of a string literal after its opening delimiter. -/
structure StringScan where
  fragments : List Fragment
  read : Nat
  /-- Whether the closing delimiter was found. -/
  closed : Bool

/-- Puts a character in front of the fragments. -/
def Fragment.cons (c : Char) : List Fragment → List Fragment
  | .text cs :: rest => .text (c :: cs) :: rest
  | fragments => .text [c] :: fragments

/-- Reads a string literal up to its delimiter. A backslash escapes the delimiter and itself; before
anything else it stands for itself. -/
def scanString (delimiter : Char) : List Char → StringScan
  | [] => ⟨[], 0, false⟩
  | c :: rest =>
    if c == delimiter then ⟨[], 1, true⟩
    else if c == '\\' then
      match rest with
      | [] => ⟨[.text ['\\']], 1, false⟩
      | next :: after =>
        if next == delimiter || next == '\\' then
          let scan := scanString delimiter after
          ⟨.escape next :: scan.fragments, scan.read + 2, scan.closed⟩
        else
          let scan := scanString delimiter (next :: after)
          ⟨Fragment.cons '\\' scan.fragments, scan.read + 1, scan.closed⟩
    else
      let scan := scanString delimiter rest
      ⟨Fragment.cons c scan.fragments, scan.read + 1, scan.closed⟩

/-- Whether an arrow follows, after any blanks. -/
def arrowFollows (text : List Char) : Bool :=
  ['=', '>'].isPrefixOf (Text.trimStart text)

end Stencil
