import Stencil.Location
import Stencil.Number.Numeral
import Stencil.Operator
import Stencil.Path

/-!
# Expressions

The tree of one expression. A tree never changes once it is built. Each place where a formatter is
called carries a number, its site, under which an evaluation remembers which overload it chose
there.
-/

namespace Stencil

/-- Where a node was read, and the text it was read from. Trees built by hand have neither. -/
structure Origin where
  span : Span
  source : Option String
deriving DecidableEq, Repr

/-- The origin of a node that was not read from a text. -/
def Origin.nowhere : Origin :=
  ⟨.nowhere, none⟩

/-- A piece of a string literal. -/
inductive Fragment where
  | text (cs : List Char)
  /-- A backslash and the character after it. -/
  | escape (c : Char)
deriving DecidableEq, Repr

/-- What a list of expressions stands for. -/
inductive ListKind where
  /-- `a.F(x).G(y)`: each link works on the result of the one before. -/
  | chain
  /-- `( … )`: a group. -/
  | bracket
  /-- `(a, b)`: the parameters of a lambda. -/
  | arguments
deriving DecidableEq, Repr

mutual

/-- An expression. -/
inductive Expr where
  /-- A path without a call. -/
  | path (origin : Origin) (parts : Path)
  /-- A formatter called on the value that a path leads to. -/
  | call (origin : Origin) (site : Nat) (parts : Path) (name : String) (arguments : List Argument)
  | string (origin : Origin) (delimiter : Char) (fragments : List Fragment)
  | number (origin : Origin) (literal : String) (value : Numeral)
  | list (origin : Origin) (kind : ListKind) (items : List Expr)
  | unary (origin : Origin) (site : Nat) (op : Operator) (operand : Expr)
  | binary (origin : Origin) (site : Nat) (op : Operator) (left right : Expr)
  | lambda (origin : Origin) (parameters body : Expr)

/-- An argument of a call, with its name if it is given by name. -/
structure Argument where
  name : Option String
  span : Span
  expr : Expr

end

/-- The characters that a literal stands for. -/
def Fragment.chars : List Fragment → List Char
  | [] => []
  | .text cs :: rest => cs ++ Fragment.chars rest
  | .escape c :: rest => c :: Fragment.chars rest

/-- The text that a literal stands for. -/
def Fragment.value (fragments : List Fragment) : String :=
  String.ofList (Fragment.chars fragments)

/-- A value that does not depend on where an expression is evaluated. -/
inductive Literal where
  | null
  | bool (b : Bool)
  | number (n : Numeral)
  | string (s : String)

/-- A call with an empty name and one argument is a group: nothing is called. -/
def isBracketCall (name : String) (arguments : List Argument) : Bool :=
  name == "" && arguments.length == 1

namespace Expr

def origin : Expr → Origin
  | path o _ | call o _ _ _ _ | string o _ _ | number o _ _ | list o _ _ | unary o _ _ _
  | binary o _ _ _ _ | lambda o _ _ => o

def span (e : Expr) : Span :=
  e.origin.span

/-- The text that the node was read from. -/
def source (e : Expr) : Option String :=
  e.origin.source

/-- The literal that an expression is, if it is one. -/
def literal? : Expr → Option Literal
  | string _ _ fragments => some (.string (Fragment.value fragments))
  | number _ _ value => some (.number value)
  | path _ [⟨.boolean, key⟩] => some (.bool (key == some "true"))
  | path _ [⟨.null, _⟩] => some .null
  | path _ [⟨.number, some key⟩] => (Numeral.ofLiteral? key).map .number
  | _ => none

/-- The key of a path of one part. -/
def soleKey? : Expr → Option String
  | path _ [p] => p.key
  | _ => none

/-- The names that a parameter list declares, in order. -/
def parameterNames : Expr → List String
  | list _ _ items => items.filterMap soleKey?
  | e => e.soleKey?.toList

end Expr

/-! ## Changing all nodes -/

mutual

/-- The tree with every origin changed by `f`. -/
def Expr.mapOrigin (f : Origin → Origin) : Expr → Expr
  | .path o parts => .path (f o) parts
  | .call o site parts name args => .call (f o) site parts name (Argument.mapOrigins f args)
  | .string o delimiter fragments => .string (f o) delimiter fragments
  | .number o literal value => .number (f o) literal value
  | .list o kind items => .list (f o) kind (Expr.mapOrigins f items)
  | .unary o site op operand => .unary (f o) site op (operand.mapOrigin f)
  | .binary o site op left right => .binary (f o) site op (left.mapOrigin f) (right.mapOrigin f)
  | .lambda o parameters body => .lambda (f o) (parameters.mapOrigin f) (body.mapOrigin f)

def Expr.mapOrigins (f : Origin → Origin) : List Expr → List Expr
  | [] => []
  | e :: rest => e.mapOrigin f :: Expr.mapOrigins f rest

def Argument.mapOrigins (f : Origin → Origin) : List Argument → List Argument
  | [] => []
  | ⟨name, span, e⟩ :: rest => ⟨name, span, e.mapOrigin f⟩ :: Argument.mapOrigins f rest

end

mutual

/-- The tree with its sites numbered from `next` on, and the first number that is left. -/
def Expr.numberSites (next : Nat) : Expr → Expr × Nat
  | .call o _ parts name args =>
    let (args, after) := Argument.numberSites (next + 1) args
    (.call o next parts name args, after)
  | .list o kind items =>
    let (items, after) := Expr.numberAllSites next items
    (.list o kind items, after)
  | .unary o _ op operand =>
    let (operand, after) := operand.numberSites (next + 1)
    (.unary o next op operand, after)
  | .binary o _ op left right =>
    let (left, mid) := left.numberSites (next + 1)
    let (right, after) := right.numberSites mid
    (.binary o next op left right, after)
  | .lambda o parameters body =>
    let (parameters, mid) := parameters.numberSites next
    let (body, after) := body.numberSites mid
    (.lambda o parameters body, after)
  | .path o parts => (.path o parts, next)
  | .string o delimiter fragments => (.string o delimiter fragments, next)
  | .number o literal value => (.number o literal value, next)

def Expr.numberAllSites (next : Nat) : List Expr → List Expr × Nat
  | [] => ([], next)
  | e :: rest =>
    let (e, mid) := e.numberSites next
    let (rest, after) := Expr.numberAllSites mid rest
    (e :: rest, after)

def Argument.numberSites (next : Nat) : List Argument → List Argument × Nat
  | [] => ([], next)
  | ⟨name, span, e⟩ :: rest =>
    let (e, mid) := e.numberSites next
    let (rest, after) := Argument.numberSites mid rest
    (⟨name, span, e⟩ :: rest, after)

end

end Stencil
