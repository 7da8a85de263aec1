import Stencil.Proofs.Composition
import Stencil.Proofs.Outcome

/-!
# Both forms of evaluation at once

Walking a tree and running its code differ in little: where the evaluation looks whether it was
given up, which is before each link of a chain in code but not before each one in a tree; in that
constant arguments are not evaluated in code; and in the form that bodies of lambdas have.

`Expr.evalFrom` evaluates an expression in either form. It is what walking the tree is
(`Expr.walkFrom_eq`), and what running its code is (`Expr.enter_eq`). So what has to be said of both
is shown by one induction over trees.
-/

namespace Stencil

/-- Evaluates after a look at whether the evaluation was given up, or without one. -/
def EvalM.guardedIf {α : Type} (b : Bool) (x : EvalM α) : EvalM α :=
  if b then guarded x else x

theorem EvalM.outcome_guardedIf {α : Type} (b : Bool) (x : EvalM α) (s : RunState) :
    outcome (guardedIf b x) s =
      if b && s.cancelled then (.error .cancelled, s) else outcome x s := by
  cases b with
  | false => rfl
  | true =>
    cases hcancelled : s.cancelled with
    | true => exact outcome_guarded_cancelled hcancelled
    | false => exact outcome_guarded hcancelled

/-- The forms in which an expression is evaluated. -/
inductive Form where
  | tree
  | code

namespace Form

/-- The body of a lambda made of an expression. -/
def body : Form → Expr → LambdaBody
  | tree, e => .tree e
  | code, e => .code e.code

/-- Whether a link of a chain is evaluated only after a look at whether the evaluation was given
up. -/
def checks : Form → PathStart → Expr → Bool
  | tree, start, e => !(start == .member && e.isPath)
  | code, _, _ => true

/-- The literal that an argument is, if it is known before the evaluation. -/
def constant? : Form → Expr → Option Literal
  | tree, _ => none
  | code, e => e.literal?

/-- The value of an argument, which is evaluated unless it is known. -/
def valueOf (form : Form) (e : Expr) (x : EvalM Context) : EvalM Value :=
  match form.constant? e with
  | some l => return l.toValue
  | none => Context.value <$> EvalM.guarded x

/-- Evaluates the links of a chain, by walking them or by running their code. -/
def links (form : Form) (invoke : Invoke) (scope : Scope) (start : PathStart) (items : List Expr)
    (c : Context) : EvalM Context :=
  match form with
  | tree => Expr.walkLinks invoke scope start items c
  | code => Code.runLinks invoke scope (Expr.linkCodes start items) c

/-- Evaluates the arguments of a call, by walking them or by running their code. -/
def supplied (form : Form) (invoke : Invoke) (scope : Scope) (args : List Argument) (c : Context) :
    EvalM (List Supplied) :=
  match form with
  | tree => Argument.walkEach invoke scope args c
  | code => CodeArgument.runEach invoke scope (Argument.codes args) c

theorem valueOf_tree (e : Expr) (x : EvalM Context) :
    tree.valueOf e x = Context.value <$> EvalM.guarded x := rfl

end Form

open EvalM

section

variable (form : Form) (invoke : Invoke) (scope : Scope)

mutual

/-- Evaluates an expression without a look at whether the evaluation was given up. -/
def Expr.evalFrom (start : PathStart) : Expr → Context → EvalM Context
  | .path _ parts, c => resolve scope start parts c
  | .call _ site parts name args, c =>
    if isBracketCall name args then Argument.evalFirst args c.nearestNatural
    else do
      let target ← resolve scope start parts c
      let supplied ← Argument.evalEach args c.nearestNatural
      callFormatter invoke scope site name target supplied
  | .string _ _ fragments, c => return c.synthetic (.string (Fragment.value fragments))
  | .number _ _ value, c => return c.synthetic (Literal.number value).toValue
  | .list _ .chain items, c => Expr.evalLinks .scope items c
  | .list _ .bracket items, c => Expr.evalLast items c (c.synthetic .null)
  | .list _ .arguments items, c => do
    return c.synthetic (.array (← Expr.evalEach items c))
  | .unary _ site op operand, c => do
    let target ← guarded (operand.evalFrom .scope c)
    callFormatter invoke scope site op.formatterName target []
  | .binary _ site op left right, c => do
    let target ← guarded (left.evalFrom .scope c)
    let other ← guarded (right.evalFrom .scope c)
    callFormatter invoke scope site op.formatterName target [⟨none, other.value⟩]
  | .lambda _ parameters body, c => makeLambda parameters.parameterNames (form.body body) c

/-- Evaluates the links of a chain, each on the result of the one before. -/
def Expr.evalLinks (start : PathStart) : List Expr → Context → EvalM Context
  | [], c => return c
  | e :: rest, c => do
    let next ← guardedIf (form.checks start e) (e.evalFrom start c)
    Expr.evalLinks .member rest next

/-- Evaluates expressions on one context and gives the last result. -/
def Expr.evalLast : List Expr → Context → Context → EvalM Context
  | [], _, last => return last
  | e :: rest, c, _ => do
    let last ← guarded (e.evalFrom .scope c)
    Expr.evalLast rest c last

/-- The values of expressions on one context. -/
def Expr.evalEach : List Expr → Context → EvalM (List Value)
  | [], _ => return []
  | e :: rest, c => do
    let result ← guarded (e.evalFrom .scope c)
    return result.value :: (← Expr.evalEach rest c)

/-- Evaluates the argument of a group. -/
def Argument.evalFirst : List Argument → Context → EvalM Context
  | [], c => return c
  | ⟨_, _, e⟩ :: _, c => guarded (e.evalFrom .scope c)

/-- Evaluates the arguments of a call, but for those that are known. -/
def Argument.evalEach : List Argument → Context → EvalM (List Supplied)
  | [], _ => return []
  | ⟨name, _, e⟩ :: rest, c => do
    let value ← form.valueOf e (e.evalFrom .scope c)
    return ⟨name, value⟩ :: (← Argument.evalEach rest c)

end

end

section

variable {invoke : Invoke} {scope : Scope}

theorem guardedIf_bind {α β : Type} (b : Bool) (x : EvalM α) (f : α → EvalM β) :
    guardedIf b x >>= f = (do
      unless !b do checkpoint
      x >>= f) := by
  cases b with
  | true => exact bind_assoc _ _ _
  | false => rfl

/-! ## Walking -/

mutual

/-- By induction over the tree. -/
theorem Expr.walkFrom_eq : ∀ (e : Expr) (start : PathStart) (c : Context),
    e.walkFrom invoke scope start c = e.evalFrom .tree invoke scope start c
  | .path _ _, _, _ => rfl
  | .call _ _ _ _ args, _, c => by
    unfold Expr.walkFrom Expr.evalFrom
    simp only [Argument.walkFirst_eq args, Argument.walkEach_eq args]
  | .string _ _ _, _, _ | .number _ _ _, _, _ => rfl
  | .list _ .chain items, _, c => Expr.walkLinks_eq items .scope c
  | .list _ .bracket items, _, c => Expr.walkLast_eq items c _
  | .list _ .arguments items, _, c => by
    unfold Expr.walkFrom Expr.evalFrom
    simp only [Expr.walkEach_eq items]
  | .unary _ _ _ operand, _, _ => by
    unfold Expr.walkFrom Expr.evalFrom
    simp only [Expr.walkFrom_eq operand]
  | .binary _ _ _ left right, _, _ => by
    unfold Expr.walkFrom Expr.evalFrom
    simp only [Expr.walkFrom_eq left, Expr.walkFrom_eq right]
  | .lambda _ _ _, _, _ => rfl

theorem Expr.walkLinks_eq : ∀ (items : List Expr) (start : PathStart) (c : Context),
    Expr.walkLinks invoke scope start items c = Expr.evalLinks .tree invoke scope start items c
  | [], _, _ => rfl
  | e :: rest, start, c => by
    unfold Expr.walkLinks Expr.evalLinks
    rw [guardedIf_bind]
    simp only [Expr.walkFrom_eq e, Expr.walkLinks_eq rest, Form.checks, Bool.not_not]

theorem Expr.walkLast_eq : ∀ (items : List Expr) (c last : Context),
    Expr.walkLast invoke scope items c last = Expr.evalLast .tree invoke scope items c last
  | [], _, _ => rfl
  | e :: rest, _, _ => by
    unfold Expr.walkLast Expr.evalLast
    simp only [Expr.walkFrom_eq e, Expr.walkLast_eq rest]

theorem Expr.walkEach_eq : ∀ (items : List Expr) (c : Context),
    Expr.walkEach invoke scope items c = Expr.evalEach .tree invoke scope items c
  | [], _ => rfl
  | e :: rest, _ => by
    unfold Expr.walkEach Expr.evalEach
    simp only [Expr.walkFrom_eq e, Expr.walkEach_eq rest]

theorem Argument.walkFirst_eq : ∀ (args : List Argument) (c : Context),
    Argument.walkFirst invoke scope args c = Argument.evalFirst .tree invoke scope args c
  | [], _ => rfl
  | ⟨_, _, e⟩ :: _, _ => congrArg guarded (e.walkFrom_eq .scope _)

theorem Argument.walkEach_eq : ∀ (args : List Argument) (c : Context),
    Argument.walkEach invoke scope args c = Argument.evalEach .tree invoke scope args c
  | [], _ => rfl
  | ⟨_, _, e⟩ :: rest, _ => by
    unfold Argument.walkEach Argument.evalEach
    simp only [Expr.walkFrom_eq e, Argument.walkEach_eq rest, Form.valueOf_tree, map_eq_pure_bind,
      bind_assoc, pure_bind]

end

/-! ## Running -/

/-- A literal leaves no trace in either form. -/
theorem Expr.evalFrom_literal (form : Form) {e : Expr} {l : Literal} (h : e.literal? = some l)
    (start : PathStart) (c : Context) :
    e.evalFrom form invoke scope start c = pure (c.synthetic l.toValue) := by
  unfold literal? at h
  split at h
  case h_1 | h_2 | h_4 =>
    obtain rfl := Option.some.inj h
    rfl
  case h_3 key =>
    obtain rfl := Option.some.inj h
    cases key <;> rfl
  case h_5 key =>
    obtain ⟨n, hn, rfl⟩ := Option.map_eq_some_iff.mp h
    have hstep : Part.step? scope start c ⟨.number, some key⟩ =
        some (c.synthetic (Literal.number n).toValue) := by
      simp only [Part.step?, Part.keyText, Option.getD_some, hn]
    unfold evalFrom EvalM.resolve EvalM.reach Path.reach Path.roots Path.follow
    rw [hstep]
    rfl
  case h_6 => cases h

/-- A literal argument is known, or looked at like others. -/
theorem Form.exists_valueOf_literal (form : Form) {e : Expr} {l : Literal}
    (h : e.literal? = some l) (c : Context) :
    ∃ b, form.valueOf e (e.evalFrom form invoke scope .scope c) =
      guardedIf b (pure l.toValue) := by
  rw [e.evalFrom_literal form h]
  cases form with
  | tree =>
    refine ⟨true, ?_⟩
    rw [valueOf_tree, guardedIf, if_pos rfl]
    simp only [guarded, map_bind, map_pure]
    rfl
  | code =>
    refine ⟨false, ?_⟩
    simp only [valueOf, constant?, h]
    rfl

theorem Code.enter_folded {e : Expr} {c : Context}
    (h : (e.codeFrom .scope).enter invoke scope c = e.evalFrom .code invoke scope .scope c) :
    (Code.folded e.literal? (e.codeFrom .scope)).enter invoke scope c =
      e.evalFrom .code invoke scope .scope c := by
  cases hliteral : e.literal? with
  | some l => exact (e.evalFrom_literal .code hliteral .scope c).symm
  | none => exact h

/-- The code of an argument is that of its expression. -/
theorem CodeArgument.code_folded (name : Option String) (e : Expr) :
    (CodeArgument.folded name e.literal? (e.codeFrom .scope)).code = e.code := by
  unfold Expr.code CodeArgument.folded Code.folded
  cases e.literal? <;> rfl

mutual

/-- By induction over the tree. -/
theorem Expr.enter_codeFrom_eq : ∀ (e : Expr) (start : PathStart) (c : Context),
    (e.codeFrom start).enter invoke scope c = e.evalFrom .code invoke scope start c
  | .path _ [], _, _ => rfl
  | .path _ (_ :: _), _, _ => rfl
  | .call o site parts name args, start, c => by
    have hcall : (Code.call site start parts name (Argument.codes args)).enter invoke scope c = (do
        let target ← resolve scope start parts c
        let supplied ← Argument.evalEach .code invoke scope args c.nearestNatural
        callFormatter invoke scope site name target supplied) := by
      unfold Code.enter
      simp only [Argument.runEach_eq args]
    unfold Expr.evalFrom
    -- Code has groups in place of calls that have one argument and no name.
    cases args with
    | nil =>
      have hbracket : isBracketCall name [] = false := Bool.and_false _
      rw [hbracket]
      exact hcall
    | cons a rest =>
      obtain ⟨argument, span, e⟩ := a
      cases rest with
      | nil =>
        by_cases hname : name = ""
        · subst hname
          have hcode : (Expr.call o site parts "" [⟨argument, span, e⟩]).codeFrom start =
              .group e.code := congrArg Code.group (CodeArgument.code_folded argument e)
          rw [hcode]
          exact congrArg guarded (Code.enter_folded (Expr.enter_codeFrom_eq e .scope _))
        · have hbracket : isBracketCall name [⟨argument, span, e⟩] = false := by
            simp [isBracketCall, hname]
          have hcode : (Expr.call o site parts name [⟨argument, span, e⟩]).codeFrom start =
              .call site start parts name (Argument.codes [⟨argument, span, e⟩]) := by
            simp [Expr.codeFrom, Argument.codes, hname]
          rw [hcode, hbracket]
          exact hcall
      | cons b rest =>
        obtain ⟨argument', span', e'⟩ := b
        have hbracket :
            isBracketCall name (⟨argument, span, e⟩ :: ⟨argument', span', e'⟩ :: rest) = false := by
          simp [isBracketCall]
        rw [hbracket]
        exact hcall
  | .string _ _ _, _, _ | .number _ _ _, _, _ => rfl
  | .list _ .chain items, _, c => Expr.runLinks_eq items .scope c
  | .list _ .bracket items, _, c => Expr.runLast_eq items c _
  | .list _ .arguments items, _, c => by
    unfold Expr.codeFrom Expr.evalFrom Code.enter
    simp only [Expr.runEach_eq items]
  | .unary _ _ _ operand, _, c => by
    unfold Expr.codeFrom Expr.evalFrom Code.enter
    simp only [Code.enter_folded (Expr.enter_codeFrom_eq operand .scope c)]
  | .binary _ _ _ left right, _, c => by
    unfold Expr.codeFrom Expr.evalFrom Code.enter
    simp only [Code.enter_folded (Expr.enter_codeFrom_eq left .scope c),
      Code.enter_folded (Expr.enter_codeFrom_eq right .scope c)]
  | .lambda _ _ _, _, _ => rfl

/-- Running the links of a chain. -/
theorem Expr.runLinks_eq : ∀ (items : List Expr) (start : PathStart) (c : Context),
    Code.runLinks invoke scope (Expr.linkCodes start items) c =
      Expr.evalLinks .code invoke scope start items c
  | [], _, _ => rfl
  | e :: rest, start, c => by
    have hrest := fun next => Expr.runLinks_eq rest .member next
    unfold Expr.linkCodes Expr.evalLinks Code.runLinks
    simp only [hrest]
    cases start with
    | scope =>
      simp only [Code.enter_folded (Expr.enter_codeFrom_eq e .scope c)]
      rfl
    | member =>
      simp only [Expr.enter_codeFrom_eq e .member c]
      rfl

theorem Expr.runLast_eq : ∀ (items : List Expr) (c last : Context),
    Code.runLast invoke scope (Expr.codes items) c last =
      Expr.evalLast .code invoke scope items c last
  | [], _, _ => rfl
  | e :: rest, c, _ => by
    unfold Expr.codes Expr.evalLast Code.runLast
    simp only [Code.enter_folded (Expr.enter_codeFrom_eq e .scope c), Expr.runLast_eq rest]

theorem Expr.runEach_eq : ∀ (items : List Expr) (c : Context),
    Code.runEach invoke scope (Expr.codes items) c = Expr.evalEach .code invoke scope items c
  | [], _ => rfl
  | e :: rest, c => by
    unfold Expr.codes Expr.evalEach Code.runEach
    simp only [Code.enter_folded (Expr.enter_codeFrom_eq e .scope c), Expr.runEach_eq rest]

theorem Argument.runEach_eq : ∀ (args : List Argument) (c : Context),
    CodeArgument.runEach invoke scope (Argument.codes args) c =
      Argument.evalEach .code invoke scope args c
  | [], _ => rfl
  | ⟨name, _, e⟩ :: rest, c => by
    have he := Expr.enter_codeFrom_eq e .scope c
    unfold Argument.codes Argument.evalEach CodeArgument.folded Form.valueOf Form.constant?
    dsimp only
    cases e.literal? with
    | some l =>
      unfold CodeArgument.runEach
      simp only [Argument.runEach_eq rest, pure_bind]
    | none =>
      unfold CodeArgument.runEach
      simp only [he, Argument.runEach_eq rest, map_eq_pure_bind, bind_assoc, pure_bind]

end

theorem Form.links_eq (form : Form) (start : PathStart) (items : List Expr) (c : Context) :
    form.links invoke scope start items c = Expr.evalLinks form invoke scope start items c := by
  cases form with
  | tree => exact Expr.walkLinks_eq items start c
  | code => exact Expr.runLinks_eq items start c

/-- Running the code of an expression. -/
theorem Expr.enter_eq (e : Expr) (c : Context) :
    e.code.enter invoke scope c = e.evalFrom .code invoke scope .scope c :=
  Code.enter_folded (e.enter_codeFrom_eq .scope c)

/-- Evaluating the body of a lambda. -/
theorem Form.evaluate_body (form : Form) (e : Expr) (c : Context) :
    (form.body e).evaluate invoke scope c = guarded (e.evalFrom form invoke scope .scope c) := by
  cases form with
  | tree => exact congrArg guarded (e.walkFrom_eq .scope c)
  | code => exact congrArg guarded (e.enter_eq c)

end

end Stencil
