import Stencil.Proofs.Forms
import Stencil.Proofs.Lambdas

/-!
# Values that agree

Walking a tree makes lambdas whose bodies are trees, and running code makes lambdas whose bodies
are code. Other than that the values of the two are the same: `agreement` is the likeness of values
whose lambdas have bodies made of the same expressions, in whatever form. `Value.compiled` replaces
the trees in a value by their code, so values that agree are equal afterwards.

A second thing has to be known of lambdas. What is remembered at a site was chosen for one name, so
the sites of all expressions in reach have to belong to one formatter each. `Expr.Sited` says so for
given names of the sites.
-/

namespace Stencil

/-! ## Sites -/

mutual

/-- The sites at which an expression calls formatters, with the names of these. Groups call none,
and parameters are not evaluated. -/
def Expr.callSites : Expr → List (Nat × String)
  | .path _ _ | .string _ _ _ | .number _ _ _ => []
  | .call _ site _ name args =>
    if isBracketCall name args then Argument.callSites args
    else (site, name) :: Argument.callSites args
  | .list _ _ items => Expr.allCallSites items
  | .unary _ site op operand => (site, op.formatterName) :: operand.callSites
  | .binary _ site op left right =>
    (site, op.formatterName) :: (left.callSites ++ right.callSites)
  | .lambda _ _ body => body.callSites

def Expr.allCallSites : List Expr → List (Nat × String)
  | [] => []
  | e :: rest => e.callSites ++ Expr.allCallSites rest

def Argument.callSites : List Argument → List (Nat × String)
  | [] => []
  | ⟨_, _, e⟩ :: rest => e.callSites ++ Argument.callSites rest

end

/-- Each of the calls is at a site of the formatter that it calls. -/
def SitesNamed (names : Nat → String) (calls : List (Nat × String)) : Prop :=
  ∀ call ∈ calls, names call.1 = call.2

/-- All calls of the expression are at sites of the formatters they call. -/
def Expr.Sited (names : Nat → String) (e : Expr) : Prop :=
  SitesNamed names e.callSites

section

variable {names : Nat → String}

@[simp] theorem sitesNamed_nil : SitesNamed names [] := by
  rintro _ ⟨⟩

@[simp] theorem sitesNamed_cons {site : Nat} {name : String} {calls : List (Nat × String)} :
    SitesNamed names ((site, name) :: calls) ↔ names site = name ∧ SitesNamed names calls := by
  simp only [SitesNamed, List.forall_mem_cons]

@[simp] theorem sitesNamed_append {calls calls' : List (Nat × String)} :
    SitesNamed names (calls ++ calls') ↔ SitesNamed names calls ∧ SitesNamed names calls' := by
  simp only [SitesNamed, List.forall_mem_append]

end

/-! ## Lambdas -/

namespace LambdaBody

/-- What the body is once it is code. -/
def toCode : LambdaBody → Code
  | tree e => e.code
  | code c => c

/-- The bodies are made of one expression, whose sites have the given names. -/
def Agree (names : Nat → String) (b b' : LambdaBody) : Prop :=
  ∃ form form' : Form, ∃ e : Expr, b = form.body e ∧ b' = form'.body e ∧ e.Sited names

/-- The body is made of an expression whose sites have the given names. -/
def Sited (names : Nat → String) (b : LambdaBody) : Prop :=
  ∃ form : Form, ∃ e : Expr, b = form.body e ∧ e.Sited names

variable {names : Nat → String} {b b' : LambdaBody}

theorem toCode_body (form : Form) (e : Expr) : (form.body e).toCode = e.code := by
  cases form <;> rfl

theorem Agree.toCode_eq (h : b.Agree names b') : b.toCode = b'.toCode := by
  obtain ⟨form, form', e, rfl, rfl, -⟩ := h
  rw [toCode_body, toCode_body]

theorem Sited.agree_self (h : b.Sited names) : b.Agree names b := by
  obtain ⟨form, e, rfl, he⟩ := h
  exact ⟨form, form, e, rfl, rfl, he⟩

end LambdaBody

/-- The lambdas are the same but for the form of their bodies, which are sited. -/
structure Lambda.Agree (names : Nat → String) (l k : Lambda) : Prop where
  id : l.id = k.id
  parameters : l.parameters = k.parameters
  body : l.body.Agree names k.body

/-- Values agree if they are the same but for the form of bodies of lambdas, which are sited. -/
def agreement (names : Nat → String) : Likeness :=
  .ofLambdas Eq.congr (Lambda.Agree names) Lambda.Agree.id

/-! ## Values in reach of sited lambdas -/

/-- All lambdas in reach of the context are sited. -/
def Context.Sited (names : Nat → String) (c : Context) : Prop :=
  ∀ l : Lambda, c.Reaches l → l.body.Sited names

/-- All lambdas in reach of the variables of the scope are sited. -/
def Scope.Sited (names : Nat → String) (s : Scope) : Prop :=
  ∀ l : Lambda, s.Reaches l → l.body.Sited names

section

variable {names : Nat → String}

theorem LambdaBody.Sited.lambda_agree {l : Lambda} (h : l.body.Sited names) :
    l.Agree names l :=
  ⟨rfl, rfl, h.agree_self⟩

theorem Context.Sited.agree {c : Context} (h : c.Sited names) :
    (agreement names).AlikeContext c c :=
  c.alikeBy_self fun l hl => (h l hl).lambda_agree

theorem Scope.Sited.agree {s : Scope} (h : s.Sited names) :
    ∀ f ∈ s.frames, List.Forall₂ (agreement names).AlikeMember f f := fun f hf =>
  List.forall₂_same.mpr fun m hm =>
    ⟨rfl, m.2.alikeBy_self fun l hl => (h l ⟨f, hf, m, hm, hl⟩).lambda_agree⟩

end

/-! ## Trees replaced by code -/

/-- The value with code in place of all trees in lambdas. -/
def Value.compiled (v : Value) : Value :=
  v.mapBodies fun b => .code b.toCode

/-- The context with code in place of all trees in lambdas. -/
def Context.compiled (c : Context) : Context :=
  c.mapBodies fun b => .code b.toCode

section

variable {names : Nat → String}

theorem merges_agree : LambdaBody.Merges (fun b => .code b.toCode) (Lambda.Agree names) :=
  fun _ _ h => ⟨h.id, h.parameters, congrArg LambdaBody.code h.body.toCode_eq⟩

/-- Values that agree are the same but for the form of lambda bodies. -/
theorem Likeness.Alike.compiled_eq {v w : Value} (h : (agreement names).Alike v w) :
    v.compiled = w.compiled :=
  Value.AlikeBy.mapBodies_eq merges_agree h

theorem Likeness.AlikeContext.compiled_eq {c d : Context}
    (h : (agreement names).AlikeContext c d) : c.compiled = d.compiled :=
  Context.AlikeBy.mapBodies_eq merges_agree h

end

end Stencil
