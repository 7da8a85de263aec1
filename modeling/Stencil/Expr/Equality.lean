import Stencil.Expr

/-!
# Structural equality

Two trees are the same when they have the same shape and the same names, literals and operators.
Where they were read and how their sites are numbered does not matter, nor does the way a string
literal is cut into fragments. `Expr.digest` gives the data by which trees can be told apart without
comparing them: it consists of everything that equality looks at.
-/

namespace Stencil

mutual

def Expr.same : Expr → Expr → Bool
  | .path _ p, .path _ q => p == q
  | .call _ _ p f as, .call _ _ q g bs => p == q && f == g && Argument.sameAll as bs
  | .string _ d fs, .string _ e gs => d == e && Fragment.value fs == Fragment.value gs
  | .number _ l _, .number _ m _ => l == m
  | .list _ k xs, .list _ l ys => k == l && Expr.sameAll xs ys
  | .unary _ _ o x, .unary _ _ p y => o == p && x.same y
  | .binary _ _ o x y, .binary _ _ p z w => o == p && x.same z && y.same w
  | .lambda _ p b, .lambda _ q c => p.same q && b.same c
  | _, _ => false

def Expr.sameAll : List Expr → List Expr → Bool
  | [], [] => true
  | x :: xs, y :: ys => x.same y && Expr.sameAll xs ys
  | _, _ => false

def Argument.sameAll : List Argument → List Argument → Bool
  | [], [] => true
  | ⟨n, _, x⟩ :: xs, ⟨m, _, y⟩ :: ys => n == m && x.same y && Argument.sameAll xs ys
  | _, _ => false

end

/-- One datum of a digest. -/
inductive DigestItem where
  /-- Which kind of node begins. -/
  | node (tag : Nat)
  | count (n : Nat)
  | name (s : Option String)
  | part (p : Part)
  | delimiter (c : Char)
  | list (k : ListKind)
  | operator (o : Operator)
deriving DecidableEq, Repr

mutual

/-- Everything that structural equality looks at, in order. -/
def Expr.digest : Expr → List DigestItem
  | .path _ p => [.node 0, .count p.length] ++ p.map .part
  | .call _ _ p f as =>
    [.node 1, .count p.length] ++ p.map .part ++ [.name f, .count as.length]
      ++ Argument.digestAll as
  | .string _ d fs => [.node 2, .delimiter d, .name (Fragment.value fs)]
  | .number _ l _ => [.node 3, .name l]
  | .list _ k xs => [.node 4, .list k, .count xs.length] ++ Expr.digestAll xs
  | .unary _ _ o x => [.node 5, .operator o] ++ x.digest
  | .binary _ _ o x y => [.node 6, .operator o] ++ x.digest ++ y.digest
  | .lambda _ p b => [.node 7] ++ p.digest ++ b.digest

def Expr.digestAll : List Expr → List DigestItem
  | [] => []
  | x :: xs => x.digest ++ Expr.digestAll xs

def Argument.digestAll : List Argument → List DigestItem
  | [] => []
  | ⟨n, _, x⟩ :: xs => .name n :: x.digest ++ Argument.digestAll xs

end

end Stencil
