/-!
# Operators

Each operator is a formatter under a name of its own, called on the left operand; what it does for
a type of values is decided by the formatters registered for it.
-/

namespace Stencil

inductive Operator where
  | add | subtract | multiply | divide | modulus | power
  | shiftLeft | shiftRight
  | equal | notEqual | less | greater | lessOrEqual | greaterOrEqual
  | and | or
  /-- The only operator with one operand. -/
  | not
  /-- The left operand unless it is null. -/
  | coalesce
  | larger | smaller
deriving DecidableEq, Repr

namespace Operator

/-- All operators, in the order in which a scan tries them: a symbol comes before its own
beginnings. -/
def all : List Operator :=
  [shiftLeft, shiftRight, equal, notEqual, lessOrEqual, greaterOrEqual, and, or, coalesce, larger,
    smaller, add, subtract, multiply, divide, modulus, power, less, greater, not]

def symbol : Operator → String
  | add => "+"
  | subtract => "-"
  | multiply => "*"
  | divide => "/"
  | modulus => "%"
  | power => "^"
  | shiftLeft => "<<"
  | shiftRight => ">>"
  | equal => "=="
  | notEqual => "!="
  | less => "<"
  | greater => ">"
  | lessOrEqual => "<="
  | greaterOrEqual => ">="
  | and => "&&"
  | or => "||"
  | not => "!"
  | coalesce => "??"
  | larger => ">?"
  | smaller => "<?"

/-- The name of the formatter that carries the operator out. -/
def formatterName : Operator → String
  | add => "op_Add"
  | subtract => "op_Subtract"
  | multiply => "op_Multiply"
  | divide => "op_Divide"
  | modulus => "op_Modulus"
  | power => "op_Pow"
  | shiftLeft => "op_ShiftLeft"
  | shiftRight => "op_ShiftRight"
  | equal => "op_Equals"
  | notEqual => "op_UnEquals"
  | less => "op_LessThen"
  | greater => "op_GreaterThen"
  | lessOrEqual => "op_LessOrEquals"
  | greaterOrEqual => "op_GreaterOrEquals"
  | and => "op_And"
  | or => "op_Or"
  | not => "op_Invert"
  | coalesce => "op_NullCoalescing"
  | larger => "op_Bigger"
  | smaller => "op_Smaller"

def isUnary : Operator → Bool
  | not => true
  | _ => false

/-- How tightly the operator binds. Operators of one precedence associate to the left. -/
def precedence : Operator → Nat
  | not => 9
  | power => 8
  | multiply | divide | modulus => 7
  | add | subtract => 6
  | shiftLeft | shiftRight => 5
  | less | greater | lessOrEqual | greaterOrEqual | larger | smaller => 4
  | equal | notEqual => 3
  | and => 2
  | or => 1
  | coalesce => 0

/-- Number of characters of the symbol. -/
def width (op : Operator) : Nat :=
  op.symbol.toList.length

/-- The binary operator that the text begins with. -/
def atStart? (text : List Char) : Option Operator :=
  all.find? fun op => !op.isUnary && op.symbol.toList.isPrefixOf text

end Operator

end Stencil
