import Stencil.Expr

/-!
# Compiled expressions

Code is what is left of an expression once everything is decided that depends on the tree alone:
literals are constants, groups have no call around them, and each link of a chain knows where its
path starts. Sites are kept, so that tree and code share what was chosen at a site.
-/

namespace Stencil

/-- Where the first member of a path is looked up. -/
inductive PathStart where
  /-- Variables in scope first, then the members of the context. -/
  | scope
  /-- Only the members of the context: for the links of a chain. -/
  | member
deriving DecidableEq, Repr

mutual

inductive Code where
  | constant (value : Literal)
  /-- The empty path: the context itself. -/
  | stay
  | resolve (start : PathStart) (parts : Path)
  /-- A bracket call: its argument, on the context that arguments see. -/
  | group (inner : Code)
  | call (site : Nat) (start : PathStart) (parts : Path) (name : String)
    (arguments : List CodeArgument)
  /-- Each link works on the result of the one before. -/
  | chain (links : List Code)
  /-- The last result of several codes on one context. -/
  | sequence (items : List Code)
  /-- The array of the results of several codes on one context. -/
  | collect (items : List Code)
  | unary (site : Nat) (op : Operator) (operand : Code)
  | binary (site : Nat) (op : Operator) (left right : Code)
  | lambda (parameters : List String) (body : Code)

/-- An argument of a call: a value known beforehand, or code. -/
inductive CodeArgument where
  | constant (name : Option String) (value : Literal)
  | computed (name : Option String) (code : Code)

end

namespace Code

/-- The code of a path without a call. -/
def ofPath (start : PathStart) : Path → Code
  | [] => .stay
  | parts => .resolve start parts

/-- A constant in place of the code, if the expression is a literal. -/
def folded (literal : Option Literal) (code : Code) : Code :=
  match literal with
  | some value => .constant value
  | none => code

end Code

namespace CodeArgument

/-- A constant argument in place of a computed one, if the expression is a literal. -/
def folded (name : Option String) (literal : Option Literal) (code : Code) : CodeArgument :=
  match literal with
  | some value => .constant name value
  | none => .computed name code

/-- The argument as code. -/
def code : CodeArgument → Code
  | constant _ value => .constant value
  | computed _ code => code

end CodeArgument

mutual

/-- The code of an expression, where a path starts as given. -/
def Expr.codeFrom (start : PathStart) : Expr → Code
  | .path _ parts => .ofPath start parts
  | .call _ site parts name args =>
    match Argument.codes args with
    | [argument] =>
      if name == "" then .group argument.code else .call site start parts name [argument]
    | arguments => .call site start parts name arguments
  | .string _ _ fragments => .constant (.string (Fragment.value fragments))
  | .number _ _ value => .constant (.number value)
  | .list _ .chain items => .chain (Expr.linkCodes .scope items)
  | .list _ .bracket items => .sequence (Expr.codes items)
  | .list _ .arguments items => .collect (Expr.codes items)
  | .unary _ site op operand => .unary site op (.folded operand.literal? (operand.codeFrom .scope))
  | .binary _ site op left right =>
    .binary site op (.folded left.literal? (left.codeFrom .scope))
      (.folded right.literal? (right.codeFrom .scope))
  | .lambda _ parameters body =>
    .lambda parameters.parameterNames (.folded body.literal? (body.codeFrom .scope))

/-- The codes of the links of a chain. Only the first one can begin with a variable. -/
def Expr.linkCodes (start : PathStart) : List Expr → List Code
  | [] => []
  | e :: rest =>
    (match start with
      | .scope => .folded e.literal? (e.codeFrom .scope)
      | .member => e.codeFrom .member) :: Expr.linkCodes .member rest

/-- The codes of expressions that are evaluated on one context. -/
def Expr.codes : List Expr → List Code
  | [] => []
  | e :: rest => .folded e.literal? (e.codeFrom .scope) :: Expr.codes rest

/-- The arguments of a call. -/
def Argument.codes : List Argument → List CodeArgument
  | [] => []
  | ⟨name, _, e⟩ :: rest =>
    .folded name e.literal? (e.codeFrom .scope) :: Argument.codes rest

end

/-- The code of an expression. -/
def Expr.code (e : Expr) : Code :=
  .folded e.literal? (e.codeFrom .scope)

end Stencil
