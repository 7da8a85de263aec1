import Stencil.Proofs.ParserRules
import Stencil.Proofs.Writing

/-!
# Trees of operators

The binary operators of a tree that no other node stands between form a run: an operand, and then
operators each with the operand after it, as they come in the text. The parser joins the operands of
a run over two stacks. This module says what it joins them to, whatever the operands are.

A tree is arranged if every operator in its run binds at most as tightly as one directly below it on
the left, and less tightly than one directly below it on the right. `Holds` is the invariant of the
stacks: laid side by side they have the run read so far. It is kept by `reduce` (`Holds.reduce`) and
by each further operator (`Holds.push`), so by a whole run (`Holds.pushAll`).

Main statements: `exists_treeOf`, the stacks come to an arranged tree with the run that was pushed,
and `bare_eq_of_arranged`, a run has one arranged tree. Its root is the last of the operators that
bind least tightly (`eq_of_split`).
-/

namespace Stencil

/-! ## Runs -/

/-- An operand, and operators with the operands after them. -/
abbrev Run := Expr × List (Operator × Expr)

/-- All operands of a run. -/
def Run.operands (r : Run) : List Expr :=
  r.1 :: r.2.map Prod.snd

/-- A run, an operator, and another run. -/
def Run.extend (r : Run) (op : Operator) (s : Run) : Run :=
  (r.1, r.2 ++ (op, s.1) :: s.2)

theorem Run.extend_assoc (r s t : Run) (op op' : Operator) :
    (r.extend op s).extend op' t = r.extend op (s.extend op' t) := by
  simp [Run.extend]

theorem Run.operands_extend (r s : Run) (op : Operator) :
    (r.extend op s).operands = r.operands ++ s.operands := by
  simp [Run.extend, Run.operands]

namespace Expr

/-- The operator of a node that joins two operands. -/
def operator? : Expr → Option Operator
  | binary _ _ op _ _ => some op
  | _ => none

/-- The run of a tree, as it is read from the left. -/
def run : Expr → Run
  | binary _ _ op left right => left.run.extend op right.run
  | e => (e, [])

/-- Whether an operator stands where its precedence puts it: below it on the left are operators that
bind at least as tightly, and on the right ones that bind more tightly. -/
def FollowsPrecedence : Expr → Prop
  | binary _ _ op left right =>
    (∀ below ∈ left.operator?, op.precedence ≤ below.precedence) ∧
      ∀ below ∈ right.operator?, op.precedence < below.precedence
  | _ => True

/-- Whether all operators in the run of a tree stand where their precedence puts them. -/
def Arranged : Expr → Prop
  | binary o site op left right =>
    (binary o site op left right).FollowsPrecedence ∧ left.Arranged ∧ right.Arranged
  | _ => True

theorem run_of_operator?_none {e : Expr} (h : e.operator? = none) : e.run = (e, []) := by
  cases e with
  | binary => cases h
  | _ => rfl

theorem arranged_of_operator?_none {e : Expr} (h : e.operator? = none) : e.Arranged := by
  cases e with
  | binary => cases h
  | _ => trivial

theorem tightness_of_operator?_none {e : Expr} (h : e.operator? = none) : e.tightness = 10 := by
  cases e with
  | binary => cases h
  | _ => rfl

theorem le_tightness_iff (op : Operator) (e : Expr) :
    op.precedence ≤ e.tightness ↔ ∀ below ∈ e.operator?, op.precedence ≤ below.precedence := by
  have hlt := op.precedence_lt
  cases e with
  | binary o site below left right => simp [tightness, operator?]
  | _ => simpa [tightness, operator?] using Nat.le_of_lt hlt

theorem lt_tightness_iff (op : Operator) (e : Expr) :
    op.precedence < e.tightness ↔ ∀ below ∈ e.operator?, op.precedence < below.precedence := by
  have hlt := op.precedence_lt
  cases e with
  | binary o site below left right => simp [tightness, operator?]
  | _ => simpa [tightness, operator?] using hlt

/-- No operator in the run of an arranged tree binds less tightly than its root. -/
theorem precedence_le_of_mem_run {p : Nat} :
    ∀ {e : Expr}, e.Arranged → p ≤ e.tightness → ∀ pair ∈ e.run.2, p ≤ pair.1.precedence
  | binary _ _ op left right, he, hp => by
    obtain ⟨⟨hl, hr⟩, hal, har⟩ := he
    have hpop : p ≤ op.precedence := hp
    have hlt : op.precedence ≤ left.tightness := (le_tightness_iff op left).mpr hl
    have hrt : op.precedence < right.tightness := (lt_tightness_iff op right).mpr hr
    intro pair hpair
    rcases List.mem_append.mp hpair with hpair | hpair
    · exact precedence_le_of_mem_run hal (Nat.le_trans hpop hlt) pair hpair
    · rcases List.mem_cons.mp hpair with rfl | hpair
      · exact hpop
      · exact precedence_le_of_mem_run har (Nat.le_trans hpop (Nat.le_of_lt hrt)) pair hpair
  | path .., _, _ | string .., _, _ | number .., _, _ | list .., _, _ | call .., _, _
  | unary .., _, _ | lambda .., _, _ => nofun

end Expr

/-! ## A run has one arranged tree -/

/-- The last of the operators that bind least tightly can be told from the run. -/
theorem eq_of_split {before after before' after' : List (Operator × Expr)}
    {op op' : Operator} {e e' : Expr}
    (h : before ++ (op, e) :: after = before' ++ (op', e') :: after')
    (hbefore : ∀ pair ∈ before, op.precedence ≤ pair.1.precedence)
    (hafter : ∀ pair ∈ after, op.precedence < pair.1.precedence)
    (hbefore' : ∀ pair ∈ before', op'.precedence ≤ pair.1.precedence)
    (hafter' : ∀ pair ∈ after', op'.precedence < pair.1.precedence) :
    before = before' ∧ op = op' ∧ e = e' ∧ after = after' := by
  rcases List.append_eq_append_iff.mp h with ⟨mid, hmid, hrest⟩ | ⟨mid, hmid, hrest⟩
  · cases mid with
    | nil =>
      obtain ⟨hpair, rfl⟩ := List.cons.inj hrest
      obtain ⟨rfl, rfl⟩ := Prod.mk.inj hpair
      exact ⟨by simpa using hmid.symm, rfl, rfl, rfl⟩
    | cons pair mid =>
      -- Each would stand to the left of the other.
      obtain ⟨rfl, rfl⟩ := List.cons.inj hrest
      have h₁ : op.precedence < op'.precedence := hafter (op', e') (by simp)
      have h₂ : op'.precedence ≤ op.precedence := hbefore' (op, e) (by rw [hmid]; simp)
      omega
  · cases mid with
    | nil =>
      obtain ⟨hpair, rfl⟩ := List.cons.inj hrest
      obtain ⟨rfl, rfl⟩ := Prod.mk.inj hpair
      exact ⟨by simpa using hmid, rfl, rfl, rfl⟩
    | cons pair mid =>
      obtain ⟨rfl, rfl⟩ := List.cons.inj hrest
      have h₁ : op'.precedence < op.precedence := hafter' (op, e) (by simp)
      have h₂ : op.precedence ≤ op'.precedence := hbefore (op', e') (by rw [hmid]; simp)
      omega

/-- A tree that is not an operator cannot have the run of one. -/
theorem operator?_none_of_run {x y : Expr} (hx : x.operator? = none) (h : x.run = y.run) :
    y.operator? = none := by
  rw [Expr.run_of_operator?_none hx] at h
  cases y with
  | binary o site op left right =>
    have hnil : [] = (left.run.extend op right.run).2 := congrArg Prod.snd h
    simp [Run.extend] at hnil
  | _ => rfl

/-- A tree that is not an operator is all of its run. -/
theorem bare_eq_of_operator?_none {x y : Expr} (hx : x.operator? = none) (h : x.run = y.run) :
    x.bare = y.bare := by
  have hy := operator?_none_of_run hx h
  rw [Expr.run_of_operator?_none hx, Expr.run_of_operator?_none hy] at h
  exact congrArg (fun r => Expr.bare r.1) h

/-- Arranged trees with the same run are the same, but for origins and sites. -/
theorem bare_eq_of_arranged :
    ∀ {x y : Expr}, x.Arranged → y.Arranged → x.run = y.run → x.bare = y.bare
  | .binary _ _ op left right, .binary _ _ op' left' right', hx, hy, h => by
    obtain ⟨⟨hl, hr⟩, hal, har⟩ := hx
    obtain ⟨⟨hl', hr'⟩, hal', har'⟩ := hy
    obtain ⟨hfirst, hpairs⟩ := Prod.mk.inj h
    -- Both have the same operator on top, so what is below it is the same run on each side.
    obtain ⟨hbefore, rfl, he, hafter⟩ := eq_of_split hpairs
      (Expr.precedence_le_of_mem_run hal ((Expr.le_tightness_iff op left).mpr hl))
      (Expr.precedence_le_of_mem_run har ((Expr.lt_tightness_iff op right).mpr hr))
      (Expr.precedence_le_of_mem_run hal' ((Expr.le_tightness_iff op' left').mpr hl'))
      (Expr.precedence_le_of_mem_run har' ((Expr.lt_tightness_iff op' right').mpr hr'))
    have hleft := bare_eq_of_arranged hal hal' (Prod.ext hfirst hbefore)
    have hright := bare_eq_of_arranged har har' (Prod.ext he hafter)
    simp only [Expr.bare, hleft, hright]
  | .path .., _, _, _, h | .string .., _, _, _, h | .number .., _, _, _, h | .list .., _, _, _, h
  | .call .., _, _, _, h | .unary .., _, _, _, h | .lambda .., _, _, _, h =>
    bare_eq_of_operator?_none rfl h
  | .binary .., .path .., _, _, h | .binary .., .string .., _, _, h
  | .binary .., .number .., _, _, h | .binary .., .list .., _, _, h
  | .binary .., .call .., _, _, h | .binary .., .unary .., _, _, h
  | .binary .., .lambda .., _, _, h => (bare_eq_of_operator?_none rfl h.symm).symm

/-! ## Stacks -/

namespace Parser

/-- Stacks, their tops first, whose operands and operators laid side by side have a run. Operators
bind the more tightly the higher they stand, and operands are arranged and fit between them. -/
inductive Holds : List Expr → List Operator → Run → Prop where
  | one {e : Expr} (h : e.Arranged) : Holds [e] [] e.run
  | more {left right : Expr} {operands : List Expr} {op : Operator} {ops : List Operator} {r : Run}
    (h : Holds (left :: operands) ops r) (hright : right.Arranged)
    (hbelow : ∀ below ∈ ops.head?, below.precedence < op.precedence)
    (htl : op.precedence ≤ left.tightness) (htr : op.precedence < right.tightness) :
    Holds (right :: left :: operands) (op :: ops) (r.extend op right.run)

/-- Two arranged trees between which an operator fits. -/
theorem arranged_join {op : Operator} {left right : Expr} (hl : left.Arranged) (hr : right.Arranged)
    (htl : op.precedence ≤ left.tightness) (htr : op.precedence < right.tightness) :
    (join op left right).Arranged :=
  ⟨⟨(Expr.le_tightness_iff op left).mp htl, (Expr.lt_tightness_iff op right).mp htr⟩, hl, hr⟩

/-- There is always an operand. -/
theorem Holds.exists_cons {operands : List Expr} {ops : List Operator} {r : Run}
    (h : Holds operands ops r) : ∃ top below, operands = top :: below := by
  cases h with
  | one => exact ⟨_, _, rfl⟩
  | more => exact ⟨_, _, rfl⟩

/-- The operator on top of the stack may join the operands on top. -/
theorem Holds.join {left right : Expr} {operands : List Expr} {op : Operator} {ops : List Operator}
    {r : Run} (h : Holds (right :: left :: operands) (op :: ops) r) :
    Holds (Parser.join op left right :: operands) ops r := by
  cases h with
  | more h hright hbelow htl htr =>
    cases h with
    | one hleft => exact .one (arranged_join hleft hright htl htr)
    | @more below _ operands op₁ ops r h hleft hbelow₁ htl₁ htr₁ =>
      rw [Run.extend_assoc]
      exact .more h (arranged_join hleft hright htl htr) hbelow₁ htl₁ (hbelow op₁ rfl)

/-- After operators that bind as tightly as `p` joined their operands, none of them is left, and the
operand on top binds as tightly. -/
theorem Holds.reduce (p : Nat) {operands : List Expr} {ops : List Operator} {r : Run}
    (h : Holds operands ops r) (htop : ∀ top ∈ operands.head?, p ≤ top.tightness) :
    Holds (Parser.reduce p operands ops).1 (Parser.reduce p operands ops).2 r ∧
      (∀ top ∈ (Parser.reduce p operands ops).1.head?, p ≤ top.tightness) ∧
        ∀ op ∈ (Parser.reduce p operands ops).2.head?, op.precedence < p := by
  fun_induction Parser.reduce p operands ops with
  | case1 right left operands op ops hlt =>
    refine ⟨h, htop, ?_⟩
    rintro _ ⟨⟩
    exact hlt
  | case2 right left operands op ops hge ih =>
    refine ih h.join ?_
    rintro _ ⟨⟩
    exact Nat.not_lt.mp hge
  | case3 operands ops hno =>
    refine ⟨h, htop, fun op hop => ?_⟩
    cases h with
    | one => cases hop
    | more => exact absurd rfl (hno _ _ _ _ _ rfl)

/-- Pushes operators with the operands after them, as the parser does: before an operator, those
that bind as tightly have joined their operands. -/
def pushAll (operands : List Expr) (ops : List Operator) :
    List (Operator × Expr) → List Expr × List Operator
  | [] => (operands, ops)
  | (op, right) :: more =>
    let reduced := Parser.reduce op.precedence operands ops
    pushAll (right :: reduced.1) (op :: reduced.2) more

/-- One more operator and operand. -/
theorem Holds.push {operands : List Expr} {ops : List Operator} {r : Run}
    (h : Holds operands ops r) (htop : ∀ top ∈ operands.head?, top.tightness = 10) (op : Operator)
    {right : Expr} (hright : right.operator? = none) :
    Holds (right :: (Parser.reduce op.precedence operands ops).1)
      (op :: (Parser.reduce op.precedence operands ops).2) (r.extend op (right, [])) := by
  have hlt := op.precedence_lt
  obtain ⟨hreduced, htight, hbelow⟩ := h.reduce op.precedence fun top htop' => by
    rw [htop top htop']
    omega
  have hfits : op.precedence < right.tightness := by
    rw [Expr.tightness_of_operator?_none hright]
    exact hlt
  have harranged := Expr.arranged_of_operator?_none hright
  rw [← Expr.run_of_operator?_none hright]
  obtain ⟨left, below, hoperands⟩ := hreduced.exists_cons
  rw [hoperands] at hreduced htight ⊢
  exact .more hreduced harranged hbelow (htight left rfl) hfits

theorem Holds.pushAll {pairs : List (Operator × Expr)} {operands : List Expr}
    {ops : List Operator} {r : Run} (h : Holds operands ops r)
    (htop : ∀ top ∈ operands.head?, top.tightness = 10)
    (hpairs : ∀ pair ∈ pairs, pair.2.operator? = none) :
    Holds (Parser.pushAll operands ops pairs).1 (Parser.pushAll operands ops pairs).2
      (r.1, r.2 ++ pairs) := by
  induction pairs generalizing operands ops r with
  | nil =>
    rw [List.append_nil]
    exact h
  | cons pair pairs ih =>
    obtain ⟨op, right⟩ := pair
    obtain ⟨hright, hpairs⟩ := List.forall_mem_cons.mp hpairs
    have hnext := ih (h.push htop op hright) (by
      rintro _ ⟨⟩
      exact Expr.tightness_of_operator?_none hright) hpairs
    rw [Run.extend, List.append_assoc] at hnext
    exact hnext

/-- The tree that the parser makes of a run. -/
def treeOf (r : Run) : Option Expr :=
  let pushed := pushAll [r.1] [] r.2
  (reduce 0 pushed.1 pushed.2).1.head?

/-- The tree of a run that was read is arranged and has that run. -/
theorem exists_treeOf {r : Run} (h : ∀ e ∈ r.operands, e.operator? = none) :
    ∃ e, treeOf r = some e ∧ e.run = r ∧ e.Arranged := by
  obtain ⟨hfirst, hpairs⟩ := List.forall_mem_cons.mp h
  have hone : Holds [r.1] [] (r.1, []) := by
    rw [← Expr.run_of_operator?_none hfirst]
    exact .one (Expr.arranged_of_operator?_none hfirst)
  have hpushed : Holds (Parser.pushAll [r.1] [] r.2).1 (Parser.pushAll [r.1] [] r.2).2 r :=
    hone.pushAll (by
      rintro _ ⟨⟩
      exact Expr.tightness_of_operator?_none hfirst) (List.forall_mem_map.mp hpairs)
  -- No operator binds less tightly than all, so all of them join their operands.
  obtain ⟨hreduced, -, hnone⟩ := hpushed.reduce 0 fun _ _ => Nat.zero_le _
  simp only [treeOf]
  generalize Parser.reduce 0 (Parser.pushAll [r.1] [] r.2).1 (Parser.pushAll [r.1] [] r.2).2 =
    reduced at hreduced hnone ⊢
  obtain ⟨operands, ops⟩ := reduced
  cases hreduced with
  | @one e harranged => exact ⟨e, rfl, rfl, harranged⟩
  | @more _ _ _ op => exact absurd (hnone op rfl) (Nat.not_lt_zero _)

/-- Joining all that binds as tightly as `p` first makes no difference to joining everything. -/
theorem reduce_zero_reduce (p : Nat) (operands : List Expr) (ops : List Operator) :
    reduce 0 (reduce p operands ops).1 (reduce p operands ops).2 = reduce 0 operands ops := by
  fun_induction Parser.reduce p operands ops with
  | case1 => rfl
  | case2 right left operands op ops hge ih => rw [ih, reduce_cons (Nat.zero_le _)]
  | case3 => rfl

end Parser

end Stencil
