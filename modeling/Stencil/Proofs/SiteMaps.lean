import Stencil.Proofs.PlainTrees

/-!
# The same code at other sites

Sites are numbers, and which number a call has is of no account as long as no other call has it.
`Code.Moved rel` says of two codes that they are the same but for their sites, and that these are
related by `rel`; likewise `Expr.Moved`, which also leaves out where a tree was read.

A tree whose sites are numbered from one number on has the code that it has when they are numbered
from another one, moved (`Expr.numberSites_moved`).
-/

namespace Stencil

/-! ## Code and trees -/

section Moved

variable (rel : Nat → Nat → Prop)

mutual

/-- The code is the same but for its sites, which are related. -/
inductive Code.Moved : Code → Code → Prop
  | constant (value : Literal) : Code.Moved (.constant value) (.constant value)
  | stay : Code.Moved .stay .stay
  | resolve (start : PathStart) (parts : Path) :
    Code.Moved (.resolve start parts) (.resolve start parts)
  | group {inner inner' : Code} (h : Code.Moved inner inner') :
    Code.Moved (.group inner) (.group inner')
  | call {site site' : Nat} (hsite : rel site site') (start : PathStart) (parts : Path)
    (name : String) {args args' : List CodeArgument}
    (hargs : List.Forall₂ CodeArgument.Moved args args') :
    Code.Moved (.call site start parts name args) (.call site' start parts name args')
  | chain {links links' : List Code} (h : List.Forall₂ Code.Moved links links') :
    Code.Moved (.chain links) (.chain links')
  | sequence {items items' : List Code} (h : List.Forall₂ Code.Moved items items') :
    Code.Moved (.sequence items) (.sequence items')
  | collect {items items' : List Code} (h : List.Forall₂ Code.Moved items items') :
    Code.Moved (.collect items) (.collect items')
  | unary {site site' : Nat} (hsite : rel site site') (op : Operator) {operand operand' : Code}
    (h : Code.Moved operand operand') :
    Code.Moved (.unary site op operand) (.unary site' op operand')
  | binary {site site' : Nat} (hsite : rel site site') (op : Operator)
    {left left' right right' : Code} (hleft : Code.Moved left left')
    (hright : Code.Moved right right') :
    Code.Moved (.binary site op left right) (.binary site' op left' right')
  | lambda (parameters : List String) {body body' : Code} (h : Code.Moved body body') :
    Code.Moved (.lambda parameters body) (.lambda parameters body')

inductive CodeArgument.Moved : CodeArgument → CodeArgument → Prop
  | constant (name : Option String) (value : Literal) :
    CodeArgument.Moved (.constant name value) (.constant name value)
  | computed (name : Option String) {code code' : Code} (h : Code.Moved code code') :
    CodeArgument.Moved (.computed name code) (.computed name code')

end

mutual

/-- The tree is the same but for where it was read, and for its sites, which are related. -/
inductive Expr.Moved : Expr → Expr → Prop
  | path {o o' : Origin} (parts : Path) : Expr.Moved (.path o parts) (.path o' parts)
  | call {o o' : Origin} {site site' : Nat} (hsite : rel site site') (parts : Path) (name : String)
    {args args' : List Argument} (hargs : List.Forall₂ Argument.Moved args args') :
    Expr.Moved (.call o site parts name args) (.call o' site' parts name args')
  | string {o o' : Origin} (delimiter : Char) {fragments fragments' : List Fragment}
    (h : Fragment.value fragments = Fragment.value fragments') :
    Expr.Moved (.string o delimiter fragments) (.string o' delimiter fragments')
  | number {o o' : Origin} (literal : String) (value : Numeral) :
    Expr.Moved (.number o literal value) (.number o' literal value)
  | list {o o' : Origin} (kind : ListKind) {items items' : List Expr}
    (h : List.Forall₂ Expr.Moved items items') :
    Expr.Moved (.list o kind items) (.list o' kind items')
  | unary {o o' : Origin} {site site' : Nat} (hsite : rel site site') (op : Operator)
    {operand operand' : Expr} (h : Expr.Moved operand operand') :
    Expr.Moved (.unary o site op operand) (.unary o' site' op operand')
  | binary {o o' : Origin} {site site' : Nat} (hsite : rel site site') (op : Operator)
    {left left' right right' : Expr} (hleft : Expr.Moved left left')
    (hright : Expr.Moved right right') :
    Expr.Moved (.binary o site op left right) (.binary o' site' op left' right')
  | lambda {o o' : Origin} {parameters parameters' body body' : Expr}
    (hparameters : parameters.plain = parameters'.plain) (hbody : Expr.Moved body body') :
    Expr.Moved (.lambda o parameters body) (.lambda o' parameters' body')

inductive Argument.Moved : Argument → Argument → Prop
  | mk (name : Option String) {span span' : Span} {e e' : Expr} (h : Expr.Moved e e') :
    Argument.Moved ⟨name, span, e⟩ ⟨name, span', e'⟩

end

/-- The body is moved, and of the same form. -/
inductive LambdaBody.Moved : LambdaBody → LambdaBody → Prop
  | tree {e e' : Expr} (h : e.Moved rel e') : LambdaBody.Moved (.tree e) (.tree e')
  | code {c c' : Code} (h : c.Moved rel c') : LambdaBody.Moved (.code c) (.code c')

end Moved

/-! ## Numbering from another number on -/

namespace Expr

@[simp] theorem literal?_numberSites (e : Expr) (next : Nat) :
    (e.numberSites next).1.literal? = e.literal? := by
  cases e <;> rfl

@[simp] theorem parameterNames_numberSites (e : Expr) (next : Nat) :
    (e.numberSites next).1.parameterNames = e.parameterNames := by
  rw [← parameterNames_bare, Expr.bare_numberSites, parameterNames_bare]

end Expr

/-- The numbers from `a` up to `a'` are as many as those from `b` up to `b'`, and relations that
relate them in order have the property. -/
def InStep (a a' b b' : Nat) (P : (Nat → Nat → Prop) → Prop) : Prop :=
  ∃ n, a' = a + n ∧ b' = b + n ∧ ∀ rel : Nat → Nat → Prop, (∀ i < n, rel (a + i) (b + i)) → P rel

namespace InStep

variable {a a' b b' mid mid' : Nat} {P Q : (Nat → Nat → Prop) → Prop}

theorem none (h : ∀ rel, P rel) : InStep a a b b P :=
  ⟨0, rfl, rfl, fun rel _ => h rel⟩

theorem site : InStep a (a + 1) b (b + 1) fun rel => rel a b :=
  ⟨1, rfl, rfl, fun _ h => h 0 Nat.zero_lt_one⟩

theorem and (hP : InStep a mid b mid' P) (hQ : InStep mid a' mid' b' Q) :
    InStep a a' b b' fun rel => P rel ∧ Q rel := by
  obtain ⟨n, rfl, rfl, hP⟩ := hP
  obtain ⟨m, rfl, rfl, hQ⟩ := hQ
  refine ⟨n + m, Nat.add_assoc a n m, Nat.add_assoc b n m, fun rel h => ⟨hP rel fun i hi => ?_, ?_⟩⟩
  · exact h i (Nat.lt_of_lt_of_le hi (Nat.le_add_right n m))
  · refine hQ rel fun i hi => ?_
    rw [Nat.add_assoc, Nat.add_assoc]
    exact h (n + i) (Nat.add_lt_add_left hi n)

theorem imp (hP : InStep a a' b b' P) (h : ∀ rel, P rel → Q rel) : InStep a a' b b' Q := by
  obtain ⟨n, ha, hb, hP⟩ := hP
  exact ⟨n, ha, hb, fun rel hrel => h rel (hP rel hrel)⟩

end InStep

section Numbering

variable {rel : Nat → Nat → Prop}

theorem Code.Moved.ofPath (start : PathStart) (parts : Path) :
    Code.Moved rel (.ofPath start parts) (.ofPath start parts) := by
  cases parts with
  | nil => exact .stay
  | cons p rest => exact .resolve start (p :: rest)

theorem Code.Moved.folded {code code' : Code} (literal : Option Literal)
    (h : Code.Moved rel code code') :
    Code.Moved rel (.folded literal code) (.folded literal code') := by
  cases literal with
  | none => exact h
  | some value => exact .constant value

theorem CodeArgument.Moved.folded (name : Option String) {code code' : Code}
    (literal : Option Literal) (h : Code.Moved rel code code') :
    CodeArgument.Moved rel (.folded name literal code) (.folded name literal code') := by
  cases literal with
  | none => exact .computed name h
  | some value => exact .constant name value

theorem CodeArgument.Moved.code {a b : CodeArgument} (h : CodeArgument.Moved rel a b) :
    Code.Moved rel a.code b.code := by
  cases h with
  | constant name value => exact .constant value
  | computed name h => exact h

end Numbering

mutual

/-- The code of a tree whose sites are numbered from `a` on, and that of the tree with sites
numbered from `b` on. -/
theorem Expr.numberSites_moved : ∀ (e : Expr) (a b : Nat),
    InStep a (e.numberSites a).2 b (e.numberSites b).2 fun rel => ∀ start,
      ((e.numberSites a).1.codeFrom start).Moved rel ((e.numberSites b).1.codeFrom start)
  | .path _ parts, _, _ => .none fun _ start => .ofPath start parts
  | .string _ _ _, _, _ | .number _ _ _, _, _ => .none fun _ _ => .constant _
  | .call _ _ parts name args, a, b => by
    refine (InStep.site.and (Argument.numberSites_moved args (a + 1) (b + 1))).imp
      fun rel h start => ?_
    obtain ⟨hsite, hargs⟩ := h
    simp only [Expr.numberSites, Expr.codeFrom]
    generalize Argument.codes (Argument.numberSites (a + 1) args).1 = codes at hargs
    generalize Argument.codes (Argument.numberSites (b + 1) args).1 = codes' at hargs
    -- A call with one argument may be a group.
    rcases hargs with _ | ⟨harg, _ | ⟨hnext, hrest⟩⟩
    · exact .call hsite start parts name .nil
    · dsimp only
      split
      · exact .group harg.code
      · exact .call hsite start parts name (.cons harg .nil)
    · exact .call hsite start parts name (.cons harg (.cons hnext hrest))
  | .list _ kind items, a, b => by
    refine (Expr.numberAllSites_moved items a b).imp fun rel h start => ?_
    cases kind with
    | chain => exact .chain (h.1 .scope)
    | bracket => exact .sequence h.2
    | arguments => exact .collect h.2
  | .unary _ _ op operand, a, b => by
    refine (InStep.site.and (Expr.numberSites_moved operand (a + 1) (b + 1))).imp fun rel h _ => ?_
    simp only [Expr.numberSites, Expr.codeFrom, Expr.literal?_numberSites]
    exact .unary h.1 op (.folded _ (h.2 .scope))
  | .binary _ _ op left right, a, b => by
    refine (InStep.site.and ((Expr.numberSites_moved left (a + 1) (b + 1)).and
      (Expr.numberSites_moved right _ _))).imp fun rel h _ => ?_
    simp only [Expr.numberSites, Expr.codeFrom, Expr.literal?_numberSites]
    exact .binary h.1 op (.folded _ (h.2.1 .scope)) (.folded _ (h.2.2 .scope))
  | .lambda _ parameters body, a, b => by
    refine ((Expr.numberSites_moved parameters a b).and (Expr.numberSites_moved body _ _)).imp
      fun rel h _ => ?_
    simp only [Expr.numberSites, Expr.codeFrom, Expr.literal?_numberSites,
      Expr.parameterNames_numberSites]
    exact .lambda _ (.folded _ (h.2 .scope))

theorem Expr.numberAllSites_moved : ∀ (items : List Expr) (a b : Nat),
    InStep a (Expr.numberAllSites a items).2 b (Expr.numberAllSites b items).2 fun rel =>
      (∀ start, List.Forall₂ (Code.Moved rel)
        (Expr.linkCodes start (Expr.numberAllSites a items).1)
        (Expr.linkCodes start (Expr.numberAllSites b items).1)) ∧
      List.Forall₂ (Code.Moved rel) (Expr.codes (Expr.numberAllSites a items).1)
        (Expr.codes (Expr.numberAllSites b items).1)
  | [], _, _ => .none fun _ => ⟨fun _ => .nil, .nil⟩
  | e :: rest, a, b => by
    refine ((Expr.numberSites_moved e a b).and (Expr.numberAllSites_moved rest _ _)).imp
      fun rel h => ?_
    obtain ⟨hfirst, hlinks, hcodes⟩ := h
    have hfolded := (hfirst .scope).folded e.literal?
    simp only [Expr.numberAllSites, Expr.linkCodes, Expr.codes, Expr.literal?_numberSites]
    refine ⟨fun start => ?_, .cons hfolded hcodes⟩
    cases start with
    | scope => exact .cons hfolded (hlinks .member)
    | member => exact .cons (hfirst .member) (hlinks .member)

theorem Argument.numberSites_moved : ∀ (args : List Argument) (a b : Nat),
    InStep a (Argument.numberSites a args).2 b (Argument.numberSites b args).2 fun rel =>
      List.Forall₂ (CodeArgument.Moved rel) (Argument.codes (Argument.numberSites a args).1)
        (Argument.codes (Argument.numberSites b args).1)
  | [], _, _ => .none fun _ => .nil
  | ⟨name, _, e⟩ :: rest, a, b => by
    refine ((Expr.numberSites_moved e a b).and (Argument.numberSites_moved rest _ _)).imp
      fun rel h => ?_
    simp only [Argument.numberSites, Argument.codes, Expr.literal?_numberSites]
    exact .cons (.folded name _ (h.1 .scope)) h.2

end

end Stencil
