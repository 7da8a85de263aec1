import Stencil.Proofs.Forms
import Stencil.Proofs.Surroundings

/-!
# Where results stand

What is around a result depends on the expression alone, and not on what formatters do. A path leads
to a context, and a computed value stands in the place of the context it was computed from: the
target of a call, the result of the left operand, or where the expression was evaluated.

`Expr.CanGive` says which contexts an expression can come to if formatters give any values. Whatever
form an expression is evaluated in, it comes to one of these (`Expr.canGive_evalFrom`).
-/

namespace Stencil

section

variable (scope : Scope)

mutual

/-- Evaluated on a context the expression can come to a result, if formatters give any values. -/
inductive Expr.CanGive : PathStart → Expr → Context → Context → Prop
  | path {start : PathStart} {o : Origin} {parts : Path} {c : Context} :
    CanGive start (.path o parts) c (Path.reach scope start parts c).context
  /-- In the place of the target. -/
  | call {start : PathStart} {o : Origin} {site : Nat} {parts : Path} {name : String}
    {args : List Argument} {c : Context} (h : isBracketCall name args = false) (v : Value) :
    CanGive start (.call o site parts name args) c
      ((Path.reach scope start parts c).context.synthetic v)
  /-- What the argument gives on the context that arguments see. -/
  | group {start : PathStart} {o : Origin} {site : Nat} {parts : Path} {name : String}
    {args : List Argument} {a : Argument} {c result : Context}
    (hbracket : isBracketCall name args = true) (ha : args.head? = some a)
    (h : CanGive .scope a.expr c.nearestNatural result) :
    CanGive start (.call o site parts name args) c result
  | string {start : PathStart} {o : Origin} {delimiter : Char} {fragments : List Fragment}
    {c : Context} :
    CanGive start (.string o delimiter fragments) c
      (c.synthetic (.string (Fragment.value fragments)))
  | number {start : PathStart} {o : Origin} {literal : String} {value : Numeral} {c : Context} :
    CanGive start (.number o literal value) c (c.synthetic (Literal.number value).toValue)
  | chain {start : PathStart} {o : Origin} {items : List Expr} {c result : Context}
    (h : Expr.LinksCanGive .scope items c result) : CanGive start (.list o .chain items) c result
  | nothing {start : PathStart} {o : Origin} {c : Context} :
    CanGive start (.list o .bracket []) c (c.synthetic .null)
  /-- Of several items on one context the last one counts. -/
  | last {start : PathStart} {o : Origin} {items : List Expr} {e : Expr} {c result : Context}
    (he : items.getLast? = some e) (h : CanGive .scope e c result) :
    CanGive start (.list o .bracket items) c result
  | array {start : PathStart} {o : Origin} {items : List Expr} {c : Context} (v : Value) :
    CanGive start (.list o .arguments items) c (c.synthetic v)
  /-- In the place of the operand. -/
  | unary {start : PathStart} {o : Origin} {site : Nat} {op : Operator} {operand : Expr}
    {c target : Context} (h : CanGive .scope operand c target) (v : Value) :
    CanGive start (.unary o site op operand) c (target.synthetic v)
  /-- In the place of the left operand. -/
  | binary {start : PathStart} {o : Origin} {site : Nat} {op : Operator} {left right : Expr}
    {c target : Context} (h : CanGive .scope left c target) (v : Value) :
    CanGive start (.binary o site op left right) c (target.synthetic v)
  | lambda {start : PathStart} {o : Origin} {parameters body : Expr} {c : Context} (v : Value) :
    CanGive start (.lambda o parameters body) c (c.synthetic v)

/-- The links of a chain can come to a result, each from what the one before can come to. -/
inductive Expr.LinksCanGive : PathStart → List Expr → Context → Context → Prop
  | nil {start : PathStart} {c : Context} : LinksCanGive start [] c c
  | cons {start : PathStart} {e : Expr} {rest : List Expr} {c next result : Context}
    (h : Expr.CanGive start e c next) (hrest : LinksCanGive .member rest next result) :
    LinksCanGive start (e :: rest) c result

end

end

/-- What a call gives stands in the place of its target. -/
theorem Expr.CanGive.exists_synthetic {scope : Scope} {o : Origin} {site : Nat} {parts : Path}
    {name : String} {args : List Argument} {start : PathStart} {c result : Context}
    (h : (Expr.call o site parts name args).CanGive scope start c result)
    (hbracket : isBracketCall name args = false) :
    ∃ v, result = (Path.reach scope start parts c).context.synthetic v := by
  cases h with
  | call _ v => exact ⟨v, rfl⟩
  | group hgroup _ _ =>
    rw [hbracket] at hgroup
    cases hgroup

open EvalM

section

variable {form : Form} {invoke : Invoke} {scope : Scope}

theorem Yields.guardedIf {α : Type} {P : α → Prop} (b : Bool) {x : EvalM α} (h : Yields P x) :
    Yields P (EvalM.guardedIf b x) := by
  cases b with
  | true => exact h.guarded
  | false => exact h

mutual

/-- By induction over the tree. -/
theorem Expr.canGive_evalFrom : ∀ (e : Expr) (start : PathStart) (c : Context),
    Yields (Expr.CanGive scope start e c) (e.evalFrom form invoke scope start c)
  | .path _ parts, start, c => (Yields.resolve scope start parts c).mono fun _ h => h ▸ .path
  | .call _ site parts name args, start, c => by
    unfold Expr.evalFrom
    cases hbracket : isBracketCall name args with
    | true =>
      refine (Argument.canGive_evalFirst args c.nearestNatural).mono fun result h => ?_
      obtain ⟨a, ha, h⟩ := h (by rintro rfl; simp [isBracketCall] at hbracket)
      exact .group hbracket ha h
    | false =>
      refine (Yields.resolve scope start parts c).bind fun target htarget => .after fun supplied =>
        (Yields.callFormatter invoke scope site name target supplied).mono ?_
      rintro _ ⟨v, rfl⟩
      rw [htarget]
      exact .call hbracket v
  | .string _ _ _, _, _ => .pure .string
  | .number _ _ _, _, _ => .pure .number
  | .list _ .chain items, _, c => (Expr.canGive_evalLinks items .scope c).mono fun _ => .chain
  | .list _ .bracket items, _, c => by
    refine (Expr.canGive_evalLast items c (c.synthetic .null)).mono fun result h => ?_
    rcases h with ⟨rfl, rfl⟩ | ⟨e, he, h⟩
    · exact .nothing
    · exact .last he h
  | .list _ .arguments _, _, _ => .after fun _ => .pure (.array _)
  | .unary _ site op operand, _, c =>
    (Expr.canGive_evalFrom operand .scope c).guarded.bind fun target h =>
      (Yields.callFormatter invoke scope site op.formatterName target []).mono fun _ ⟨v, hv⟩ =>
        hv ▸ .unary h v
  | .binary _ site op left _, _, c =>
    (Expr.canGive_evalFrom left .scope c).guarded.bind fun target h => .after fun other =>
      (Yields.callFormatter invoke scope site op.formatterName target [⟨none, other.value⟩]).mono
        fun _ ⟨v, hv⟩ => hv ▸ .binary h v
  | .lambda _ _ _, _, _ => .after fun _ => .pure (.lambda _)

theorem Expr.canGive_evalLinks : ∀ (items : List Expr) (start : PathStart) (c : Context),
    Yields (Expr.LinksCanGive scope start items c) (Expr.evalLinks form invoke scope start items c)
  | [], _, _ => .pure .nil
  | e :: rest, start, c =>
    ((Expr.canGive_evalFrom e start c).guardedIf _).bind fun next h =>
      (Expr.canGive_evalLinks rest .member next).mono fun _ => .cons h

theorem Expr.canGive_evalLast : ∀ (items : List Expr) (c last : Context),
    Yields (fun result => (items = [] ∧ result = last) ∨
        ∃ e, items.getLast? = some e ∧ Expr.CanGive scope .scope e c result)
      (Expr.evalLast form invoke scope items c last)
  | [], _, _ => .pure (.inl ⟨rfl, rfl⟩)
  | [e], c, _ =>
    (Expr.canGive_evalFrom e .scope c).guarded.bind fun _ h => .pure (.inr ⟨e, rfl, h⟩)
  | _ :: next :: rest, c, _ =>
    .after fun last => (Expr.canGive_evalLast (next :: rest) c last).mono fun _ h => by
      obtain ⟨⟨⟩, -⟩ | h := h
      exact .inr h

theorem Argument.canGive_evalFirst : ∀ (args : List Argument) (c : Context),
    Yields (fun result => args ≠ [] →
        ∃ a, args.head? = some a ∧ Expr.CanGive scope .scope a.expr c result)
      (Argument.evalFirst form invoke scope args c)
  | [], _ => .pure fun h => absurd rfl h
  | ⟨_, _, e⟩ :: _, c =>
    (Expr.canGive_evalFrom e .scope c).guarded.mono fun _ h _ => ⟨_, rfl, h⟩

end

end

end Stencil
