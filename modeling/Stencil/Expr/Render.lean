import Stencil.Expr

/-!
# The canonical text of an expression

Binary operators get one space on each side, arguments and parameters are separated by a comma and a
space, and a lambda has its arrow between spaces. String escapes, number literals and brackets are
written as they were read.
-/

namespace Stencil

/-- The literal between its delimiters, escapes as they were written. -/
def Fragment.render : List Fragment → List Char
  | [] => []
  | .text cs :: rest => cs ++ Fragment.render rest
  | .escape c :: rest => '\\' :: c :: Fragment.render rest

mutual

/-- The canonical text as characters. -/
def Expr.render : Expr → List Char
  | .path _ parts => Path.render parts
  | .call _ _ parts name args =>
    Path.render parts ++ (if Path.needsDot parts then ['.'] else []) ++ name.toList ++ ['(']
      ++ Argument.renderAll args ++ [')']
  | .string _ delimiter fragments => delimiter :: Fragment.render fragments ++ [delimiter]
  | .number _ literal _ => literal.toList
  | .list _ .chain items => Expr.renderAll ['.'] items
  | .list _ .bracket items => ['('] ++ Expr.renderAll [',', ' '] items ++ [')']
  | .list _ .arguments items => ['('] ++ Expr.renderAll [',', ' '] items ++ [')']
  | .unary _ _ op operand => op.symbol.toList ++ operand.render
  | .binary _ _ op left right => left.render ++ [' '] ++ op.symbol.toList ++ [' '] ++ right.render
  | .lambda _ parameters body => parameters.render ++ [' ', '=', '>', ' '] ++ body.render

/-- The texts of the expressions with a separator between them. -/
def Expr.renderAll (separator : List Char) : List Expr → List Char
  | [] => []
  | [e] => e.render
  | e :: f :: rest => e.render ++ separator ++ Expr.renderAll separator (f :: rest)

/-- The texts of the arguments, each with its name in front. -/
def Argument.renderAll : List Argument → List Char
  | [] => []
  | [⟨name, _, e⟩] => (name.elim [] fun n => ['['] ++ n.toList ++ [']']) ++ e.render
  | ⟨name, _, e⟩ :: a :: rest =>
    (name.elim [] fun n => ['['] ++ n.toList ++ [']']) ++ e.render ++ [',', ' ']
      ++ Argument.renderAll (a :: rest)

end

/-- The canonical text. -/
def Expr.canonical (e : Expr) : String :=
  String.ofList e.render

/-- The canonical text of an argument. -/
def Argument.canonical (a : Argument) : String :=
  String.ofList (Argument.renderAll [a])

/-- The text that the expression was read from, or else its canonical text. -/
def Expr.written (e : Expr) : String :=
  e.source.getD e.canonical

end Stencil
