import Stencil.Proofs.OperandReading

/-!
# What is written is read

Operators and their operands go onto stacks, and an expression is read as what is left when all
operators have joined their operands. Main statement: `Written.reads`, every way to write a phrase
is read by the parser without a problem, as that phrase up to origins and sites.
-/

namespace Stencil

open Text (Blanks)
open Tokenizer (leading continuation)
open Stencil.Parser

namespace Parser

variable {place : Placement} {c : Cursor} {b : List OpenBracket} {inside : Bool}

/-! ## Operators -/

/-- Reading operators stops where an expression ends. -/
theorem steps_operators_end (fuel : Nat) (operands : List Expr) (ops : List Operator)
    (hb : b.isEmpty = !inside) (hends : EndsExpr inside (Text.trimStart c.rest)) :
    Steps (operators place (fuel + 1) operands ops) c b (operands, ops) c.skipBlanks b := by
  rw [operators]
  refine (steps_step c b).bind ((steps_skipBlanks c b).bind ((steps_current? _ b).bind ?_))
  rw [Cursor.rest_skipBlanks]
  cases htrim : Text.trimStart c.rest with
  | nil => exact steps_pure _ _ _
  | cons x xs =>
    rw [htrim] at hends
    rcases hends with hnil | ⟨rfl, hx⟩
    · cases hnil
    · have hclose : (x == ')' || x == ',') = true := by
        rcases hx with hx | hx <;> (obtain rfl := Option.some.inj hx; rfl)
      intro s hs
      refine ⟨s, ?_, hs, rfl⟩
      have hrun : (get : ParserM ParserState) s = some (s, s) := rfl
      simp only [List.head?_cons]
      rw [run_bind hrun, if_pos (by rw [hclose, hs.brackets, hb]; rfl)]
      rfl

/-- Where an operator stands, reading operators goes on with its right operand. -/
theorem run_operators {fuel : Nat} {operands : List Expr} {ops : List Operator} {op : Operator}
    {ws text : List Char} {s : ParserState} (hs : Sees s c b) (hws : Blanks ws)
    (hop : Operator.atStart? (op.symbol.toList ++ text) = some op)
    (hrest : c.rest = ws ++ (op.symbol.toList ++ text)) :
    ∃ s' c', Sees s' c' b ∧ s'.diagnostics = s.diagnostics ∧ c'.rest = text ∧
      operators place (fuel + 1) operands ops s =
        (operand place fuel >>= fun right =>
          match right with
          | some right =>
            operators place fuel (right :: (reduce op.precedence operands ops).1)
              (op :: (reduce op.precedence operands ops).2)
          | none => pure (reduce op.precedence operands ops)) s' := by
  have hbegins := beginsOperator hop
  obtain ⟨ch, hhead, hblank, hopen, hclose, hcomma, hquote, hquote'⟩ := hbegins.first
  obtain ⟨more, hmore⟩ : ∃ more, op.symbol.toList ++ text = ch :: more := by
    cases htext : op.symbol.toList ++ text with
    | nil => rw [htext] at hhead; cases hhead
    | cons x xs =>
      rw [htext] at hhead
      exact ⟨xs, by rw [Option.some.inj hhead]⟩
  have hskip : c.skipBlanks = c.advance ws.length :=
    Cursor.skipBlanks_eq hws hrest (by rw [hmore, Text.trimStart_cons hblank])
  have hrest₁ := Cursor.rest_advance_length hrest
  obtain ⟨s₁, h₁, hs₁, d₁⟩ := steps_step c b s hs
  obtain ⟨s₂, h₂, hs₂, d₂⟩ := steps_skipBlanks c b s₁ hs₁
  rw [hskip] at hs₂
  obtain ⟨s₃, h₃, hs₃, d₃⟩ := steps_current? _ b s₂ hs₂
  have hget : (get : ParserM ParserState) s₃ = some (s₃, s₃) := rfl
  obtain ⟨s₄, h₄, hs₄, d₄⟩ := steps_rest _ b s₃ hs₃
  obtain ⟨s₅, h₅, hs₅, d₅⟩ := steps_rest _ b s₄ hs₄
  obtain ⟨s₆, h₆, hs₆, d₆⟩ := steps_advance _ b op.width s₅ hs₅
  obtain ⟨s₇, h₇, hs₇, d₇⟩ := steps_step _ b s₆ hs₆
  rw [hrest₁, hmore] at h₃
  rw [hrest₁] at h₄ h₅
  refine ⟨s₇, _, hs₇, ?_, Cursor.rest_advance_length hrest₁, ?_⟩
  · rw [d₇, d₆, d₅, d₄, d₃, d₂, d₁]
  -- The checks that come before the one for operators all fail at the first character.
  · have hc : (ch == ')') = false := beq_eq_false_iff_ne.mpr hclose
    have hc' : (ch == ',') = false := beq_eq_false_iff_ne.mpr hcomma
    have hq : (ch == '\'') = false := beq_eq_false_iff_ne.mpr hquote
    have hq' : (ch == '"') = false := beq_eq_false_iff_ne.mpr hquote'
    rw [operators, run_bind h₁, run_bind h₂, run_bind h₃]
    simp only [List.head?_cons]
    rw [run_bind hget]
    simp only [hc, hc', hq, hq', Bool.or_self, Bool.false_and, Bool.false_eq_true, if_false]
    rw [run_bind h₄, hbegins.noArrow, if_neg Bool.false_ne_true, run_bind h₅, hop]
    simp only []
    rw [run_bind h₆]
    exact run_bind h₇

/-! ## Expressions -/

/-- A whole expression is read as the tree, with the blanks after it. -/
theorem succeeds_expression {fuel : Nat} {e : Expr} {ws cs tail : List Char}
    (htree : Phrase.Reads place inside cs tail (.tree e)) (hb : b.isEmpty = !inside)
    (hws : Blanks ws) (hrest : c.rest = ws ++ (cs ++ tail))
    (hends : EndsExpr inside (Text.trimStart tail)) (hfuel : 8 * c.rest.length + 5 ≤ fuel) :
    Succeeds (expression place fuel) c b (Gives e tail b) := by
  obtain ⟨fuel, rfl⟩ : ∃ f, fuel = f + 1 := ⟨fuel - 1, by omega⟩
  rw [expression]
  refine (steps_step c b).succeeds fun s hs => ?_
  obtain ⟨first, s₁, hfirst, fuel', operands, ops, s', c', hresume, hs', hsame, hfuel', hblanks,
    halike⟩ := htree fuel c b ws [] [] s hs hb hws hrest (by omega) (by simp)
  obtain ⟨bl, hbl, rfl⟩ := hblanks
  rw [Text.trimStart_append hbl] at hends
  obtain ⟨fuel', rfl⟩ : ∃ f, fuel' = f + 1 := ⟨fuel' - 1, by omega⟩
  obtain ⟨s₂, hend, hs₂, hsame₂⟩ := steps_operators_end fuel' operands ops hb hends s' hs'
  -- In the end every operator joins its operands, and the tree alone would stay as it is.
  obtain ⟨halike, -⟩ := halike 0 (Nat.zero_le _)
  have hdone : ∃ e', (reduce 0 operands ops).1 = [e'] ∧ e'.bare = e.bare := by
    have hone : reduce 0 [e] [] = ([e], []) := rfl
    rw [hone] at halike
    exact Expr.exists_of_bareAll_singleton halike
  obtain ⟨e', hstack, hbare⟩ := hdone
  obtain ⟨ws', hws', hrest'⟩ := Text.exists_blanks c'.rest
  refine ⟨some e', s₂, c'.skipBlanks, b, ?_, hs₂, hsame₂.trans hsame, rfl, ⟨e', rfl, hbare⟩,
    bl ++ ws', hbl.append hws', ?_⟩
  · rw [run_bind hfirst]
    simp only []
    rw [run_bind (hresume.trans hend)]
    simp only [hstack, List.head?_cons]
    rfl
  · rw [Cursor.rest_skipBlanks, List.append_assoc, ← hrest']

theorem resumes_operand {fuel : Nat} {e : Expr} {ws cs tail : List Char} {operands : List Expr}
    {ops : List Operator} {s : ParserState}
    (hoperand : Phrase.Reads place inside cs tail (.operand e)) (hne : cs ≠ [])
    (hs : Sees s c b) (hb : b.isEmpty = !inside) (hws : Blanks ws)
    (hrest : c.rest = ws ++ (cs ++ tail)) (hfuel : 8 * c.rest.length + 4 ≤ fuel) :
    Resumes place e tail b fuel operands ops s := by
  obtain ⟨r, s', c', b', hrun, hs', hsame, rfl, ⟨e', rfl, hbare⟩, bl, hbl, rfl⟩ :=
    hoperand fuel c b ws hb hws hrest hfuel s hs
  have hlength : c'.rest.length < c.rest.length := by
    have hpos : 0 < cs.length := List.length_pos_iff.mpr hne
    rw [hrest]
    simp only [List.length_append]
    omega
  refine ⟨e', s', hrun, fuel, e' :: operands, ops, s', c', rfl, hs', hsame, by omega,
    ⟨bl, hbl, rfl⟩, fun p _ => alikeStacks_reduce p ?_⟩
  simp only [Expr.bareAll, hbare]

/-- Where blanks were skipped already, fewer are left. -/
theorem exists_blanks_left {bl ws rest text : List Char} (hbl : Blanks bl) (hws : Blanks ws)
    (h : ws ++ text = bl ++ rest) (htext : Text.trimStart text = text) :
    ∃ ws', Blanks ws' ∧ rest = ws' ++ text := by
  obtain ⟨ws', hws', hrest⟩ := Text.exists_blanks rest
  have htrim : Text.trimStart rest = text := by
    rw [← Text.trimStart_append hbl, ← h, Text.trimStart_append hws, htext]
  rw [htrim] at hrest
  exact ⟨ws', hws', hrest⟩

theorem trimStart_operator {text : List Char} (h : BeginsOperator text) :
    Text.trimStart text = text := by
  obtain ⟨c, hhead, hblank, -⟩ := h.first
  cases text with
  | nil => cases hhead
  | cons x xs =>
    obtain rfl : x = c := Option.some.inj hhead
    exact Text.trimStart_cons hblank xs

theorem AlikeStacks.trans {x y z : List Expr × List Operator} (h : AlikeStacks x y)
    (h' : AlikeStacks y z) : AlikeStacks x z :=
  ⟨h.1.trans h'.1, h.2.trans h'.2⟩

theorem resumes_binary {fuel : Nat} {l r : Expr} {op : Operator}
    {ws cs ws₁ ws₂ ds tail : List Char} {operands : List Expr} {ops : List Operator}
    {s : ParserState} (o : Origin) (n : Nat) (hws₁ : Blanks ws₁) (hws₂ : Blanks ws₂)
    (hop : Operator.atStart? (op.symbol.toList ++ (ws₂ ++ (ds ++ tail))) = some op)
    (hl : Phrase.Reads place inside cs (ws₁ ++ (op.symbol.toList ++ (ws₂ ++ (ds ++ tail))))
      (.tree l))
    (hr : Phrase.Reads place inside ds tail (.tree r)) (htl : op.precedence ≤ l.tightness)
    (htr : op.precedence < r.tightness) (hs : Sees s c b) (hb : b.isEmpty = !inside)
    (hws : Blanks ws)
    (hrest : c.rest = ws ++ (cs ++ (ws₁ ++ (op.symbol.toList ++ (ws₂ ++ (ds ++ tail))))))
    (hfuel : 8 * c.rest.length + 4 ≤ fuel)
    (htop : ∀ op' ∈ ops.head?, op'.precedence < op.precedence) :
    Resumes place (.binary o n op l r) tail b fuel operands ops s := by
  obtain ⟨first, s₁, hfirst, fuel₁, operands₁, ops₁, s₂, c₂, hresume₁, hs₂, hsame₂, hfuel₁,
    ⟨bl, hbl, hleft⟩, halike₁⟩ := hl fuel c b ws operands ops s hs hb hws hrest hfuel
      (fun op' hop' => Nat.lt_of_lt_of_le (htop op' hop') htl)
  -- The operator finds the left operand joined, and nothing before it.
  have hstacks := halike₁ op.precedence htl
  rw [reduce_stop htop] at hstacks
  obtain ⟨hoperands, hops⟩ := hstacks
  obtain ⟨ws', hws', hrest₂⟩ :=
    exists_blanks_left hbl hws₁ hleft (trimStart_operator (beginsOperator hop))
  obtain ⟨fuel₁, rfl⟩ : ∃ f, fuel₁ = f + 1 := ⟨fuel₁ - 1, by omega⟩
  obtain ⟨s₃, c₃, hs₃, hsame₃, hrest₃, hrun⟩ :=
    @run_operators place c₂ b fuel₁ operands₁ ops₁ op ws' _ s₂ hs₂ hws' hop hrest₂
  have hfuel₃ : 8 * c₃.rest.length + 4 ≤ fuel₁ := by
    have hpos : 0 < op.symbol.toList.length := op.width_pos
    rw [hrest₂] at hfuel₁
    rw [hrest₃]
    simp only [List.length_append] at hfuel₁ ⊢
    omega
  -- The right operand binds more tightly, so it comes to stand on top of the operator.
  obtain ⟨second, s₄, hsecond, fuel', operands', ops', s', c', hresume₂, hs', hsame', hfuel',
    hblanks, halike₂⟩ := hr fuel₁ c₃ b ws₂ (reduce op.precedence operands₁ ops₁).1
      (op :: (reduce op.precedence operands₁ ops₁).2) s₃ hs₃ hb hws₂ hrest₃ hfuel₃
      (by rintro op' ⟨⟩; exact htr)
  refine ⟨first, s₁, hfirst, fuel', operands', ops', s', c', ?_, hs', ?_, hfuel', hblanks,
    fun p hp => ?_⟩
  · rw [hresume₁, hrun, run_bind hsecond]
    exact hresume₂
  · rw [hsame', hsame₃, hsame₂]
  · refine (halike₂ p (Nat.le_of_lt (Nat.lt_of_le_of_lt hp htr))).trans ?_
    rw [hops]
    -- The operator has its operands on the stack, alike to the two it was written between.
    have hjoined : AlikeStacks
        (reduce p (r :: (reduce op.precedence operands₁ ops₁).1) (op :: ops))
        (reduce p (r :: l :: operands) (op :: ops)) := by
      refine alikeStacks_reduce p ?_
      simp only [Expr.bareAll] at hoperands ⊢
      rw [hoperands]
    refine hjoined.trans ?_
    rw [reduce_cons hp]
    refine alikeStacks_reduce p ?_
    simp only [Expr.bareAll, join, Expr.bare]

/-! ## Lambdas -/

theorem succeeds_operand_lambda {fuel : Nat} {ws cs ws₁ ws₂ ds tail : List Char} {t : Tokenizer}
    {parts : Path} {body : Expr} (o o' : Origin) (hfeed : leading.feed cs = .ok t)
    (hpath : t.path = .ok parts) (hne : cs ≠ [])
    (hparameter : isParameter (.path o' parts) = true) (hws₁ : Blanks ws₁) (hws₂ : Blanks ws₂)
    (hbody : Phrase.Reads place inside ds tail (.tree body))
    (hends : EndsExpr inside (Text.trimStart tail)) (hb : b.isEmpty = !inside) (hws : Blanks ws)
    (hrest : c.rest = ws ++ (cs ++ (ws₁ ++ '=' :: '>' :: (ws₂ ++ ds)) ++ tail))
    (hfuel : 8 * c.rest.length + 4 ≤ fuel + 3) :
    Succeeds (operand place (fuel + 3)) c b
      (Gives (.lambda o (.path o' parts) body) tail b) := by
  have hrest' : c.rest = ws ++ (cs ++ (ws₁ ++ '=' :: '>' :: (ws₂ ++ (ds ++ tail)))) := by
    rw [hrest]
    simp
  refine succeeds_operand_path hfeed hne (closes_arrow hws₁ cs _) hws hrest' fun c' hc' => ?_
  refine succeeds_pathOperand_lambda o o' hfeed hpath hparameter hws₁ hc' fun c₁ hc₁ => ?_
  refine succeeds_expression hbody hb hws₂ hc₁ hends ?_
  rw [hrest'] at hfuel
  rw [hc₁]
  simp only [List.length_append, List.length_cons] at hfuel ⊢
  omega

theorem succeeds_operand_lambdaList {fuel : Nat} {ws as ws₁ ws₂ ds tail : List Char}
    {args : List Argument} {body : Expr} (o o' : Origin)
    (hargs : Phrase.Reads place inside as (ws₁ ++ '=' :: '>' :: (ws₂ ++ (ds ++ tail)))
      (.arguments .group args))
    (hparameters : args.all (fun a => isParameter a.expr) = true) (hws₁ : Blanks ws₁)
    (hws₂ : Blanks ws₂) (hbody : Phrase.Reads place inside ds tail (.tree body))
    (hends : EndsExpr inside (Text.trimStart tail)) (hb : b.isEmpty = !inside) (hws : Blanks ws)
    (hrest : c.rest = ws ++ ('(' :: (as ++ (ws₁ ++ '=' :: '>' :: (ws₂ ++ ds))) ++ tail))
    (hfuel : 8 * c.rest.length + 4 ≤ fuel + 3) :
    Succeeds (operand place (fuel + 3)) c b
      (Gives (.lambda o (.list o' .arguments (args.map Argument.expr)) body) tail b) := by
  have hrest' : c.rest = ws ++ '(' :: (as ++ (ws₁ ++ '=' :: '>' :: (ws₂ ++ (ds ++ tail)))) := by
    rw [hrest]
    simp
  refine succeeds_operand_bracket hws hrest' fun c' hc' hlength => ?_
  refine succeeds_group hargs hc' (by omega) fun args' c₁ o₁ hc₁ hargs' => ?_
  rw [arrowFollows_arrow hws₁, if_pos rfl]
  -- The arguments that were read are parameters too: that does not depend on origins or sites.
  obtain ⟨hexprs, hall⟩ := bareAll_exprs hargs'
  refine succeeds_lambda o hws₁ ?_ ?_ hc₁ fun c₂ hc₂ => ?_
  · rw [← hall] at hparameters
    simpa [areParameters] using hparameters
  · simp only [Expr.bare, hexprs]
  · refine succeeds_expression hbody hb hws₂ hc₂ hends ?_
    rw [hrest'] at hfuel
    rw [hc₂]
    simp only [List.length_append, List.length_cons] at hfuel ⊢
    omega

/-! ## Items -/

/-- What closes an item is found after the blanks that follow its expression. -/
theorem rest_skipBlanks_of {bl ws text : List Char} {ch : Char} (hbl : Blanks bl) (hws : Blanks ws)
    (hch : Text.isBlank ch = false) (h : ws ++ ch :: text = bl ++ c.rest) :
    c.skipBlanks.rest = ch :: text := by
  rw [Cursor.rest_skipBlanks, ← Text.trimStart_append hbl, ← h, Text.trimStart_append hws,
    Text.trimStart_cons hch]

theorem succeeds_lastItem {fuel start : Nat} {kind : BracketKind} {name : Option String} {e : Expr}
    {ws cs ws₂ tail : List Char} (sp : Span) (hws₂ : Blanks ws₂)
    (htree : Phrase.Reads place true cs (ws₂ ++ ')' :: tail) (.tree e)) (hb : b ≠ [])
    (hws : Blanks ws) (hrest : c.rest = ws ++ (cs ++ (ws₂ ++ ')' :: tail)))
    (hfuel : 8 * c.rest.length + 5 ≤ fuel) :
    Succeeds (item place fuel kind start name) c b fun args' c' b' =>
      b' = b.tail ∧ Argument.bareAll args' = Argument.bareAll [⟨name, sp, e⟩] ∧ c'.rest = tail := by
  have hinside : b.isEmpty = !true := by simpa using hb
  -- The bracket ends the expression of the last argument.
  have hends : EndsExpr true (Text.trimStart (ws₂ ++ ')' :: tail)) := by
    rw [Text.trimStart_append hws₂, Text.trimStart_cons (by decide)]
    exact .inr ⟨rfl, .inl rfl⟩
  unfold item
  refine (succeeds_expression htree hinside hws hrest hends hfuel).bind ?_
  rintro r c₁ b₁ ⟨rfl, ⟨e', rfl, hbare⟩, bl, hbl, hleft⟩
  have hrest₁ := rest_skipBlanks_of hbl hws₂ (by decide) hleft
  refine (steps_originFrom place c₁ _ start).succeeds ?_
  refine (steps_skipBlanks c₁ _).succeeds ((steps_current? _ _).succeeds ?_)
  rw [hrest₁]
  refine (steps_advance _ _ 1).succeeds ((steps_closeBracket _ _).succeeds ?_)
  refine succeeds_pure ⟨rfl, ?_, by rw [Cursor.rest_advance, hrest₁]; rfl⟩
  simp [Argument.bareAll, hbare]

theorem succeeds_item {fuel start : Nat} {kind : BracketKind} {name : Option String} {e : Expr}
    {args : List Argument} {ws cs ws₂ as tail : List Char} (sp : Span) (hws₂ : Blanks ws₂)
    (htree : Phrase.Reads place true cs (ws₂ ++ ',' :: (as ++ tail)) (.tree e))
    (hitems : Phrase.Reads place inside as tail (.items kind args)) (hb : b ≠ [])
    (hws : Blanks ws) (hrest : c.rest = ws ++ (cs ++ (ws₂ ++ ',' :: (as ++ tail))))
    (hfuel : 8 * c.rest.length + 5 ≤ fuel) :
    Succeeds (item place fuel kind start name) c b fun args' c' b' =>
      b' = b.tail ∧ Argument.bareAll args' = Argument.bareAll (⟨name, sp, e⟩ :: args) ∧
        c'.rest = tail := by
  have hinside : b.isEmpty = !true := by simpa using hb
  -- The comma ends the expression, and the other arguments are read after it.
  have hends : EndsExpr true (Text.trimStart (ws₂ ++ ',' :: (as ++ tail))) := by
    rw [Text.trimStart_append hws₂, Text.trimStart_cons (by decide)]
    exact .inr ⟨rfl, .inr rfl⟩
  unfold item
  refine (succeeds_expression htree hinside hws hrest hends hfuel).bind ?_
  rintro r c₁ b₁ ⟨rfl, ⟨e', rfl, hbare⟩, bl, hbl, hleft⟩
  have hrest₁ := rest_skipBlanks_of hbl hws₂ (by decide) hleft
  have hrest₂ : (c₁.skipBlanks.advance 1).rest = as ++ tail := by
    rw [Cursor.rest_advance, hrest₁]
    rfl
  have hfuel₂ : 8 * (c₁.skipBlanks.advance 1).rest.length + 6 ≤ fuel := by
    rw [hrest] at hfuel
    rw [hrest₂]
    simp only [List.length_append, List.length_cons] at hfuel ⊢
    omega
  refine (steps_originFrom place c₁ _ start).succeeds ?_
  refine (steps_skipBlanks c₁ _).succeeds ((steps_current? _ _).succeeds ?_)
  rw [hrest₁]
  refine (steps_advance _ _ 1).succeeds ?_
  refine (hitems fuel _ _ hb (by rw [hrest₂]) hfuel₂).bind ?_
  rintro args' c₂ b₂ ⟨rfl, hargs, htail⟩
  refine succeeds_pure ⟨rfl, ?_, htail⟩
  simp [Argument.bareAll, hbare, hargs]

end Parser

/-- Every way to write a phrase is read as the phrase. -/
theorem Written.reads (place : Placement) {inside : Bool} {ph : Phrase} {cs tail : List Char}
    (h : Written inside ph cs tail) : ph.Reads place inside cs tail := by
  induction h with
  -- Operands and links: their lemmas take fuel one or more calls down.
  | @path inside cs tail t parts o hfeed hpath hne hcloses hcall harrow =>
    intro fuel c b ws hb hws hrest hfuel
    obtain ⟨fuel, rfl⟩ : ∃ f, fuel = f + 2 := ⟨fuel - 2, by omega⟩
    refine succeeds_operand_path hfeed hne hcloses hws hrest fun c' hrest' => ?_
    exact succeeds_pathOperand_path o hfeed hpath hcloses hcall harrow hrest'
  | negative o' hdigit _ ih =>
    intro fuel c b ws hb hws hrest hfuel
    obtain ⟨fuel, rfl⟩ : ∃ f, fuel = f + 1 := ⟨fuel - 1, by omega⟩
    exact succeeds_negative o' hdigit ih hb hws hrest hfuel
  | not o n hws' h ih =>
    intro fuel c b ws hb hws hrest hfuel
    obtain ⟨fuel, rfl⟩ : ∃ f, fuel = f + 1 := ⟨fuel - 1, by omega⟩
    exact succeeds_not o n hws' h ih hb hws hrest hfuel
  | string o o' hd hliteral _ ih =>
    intro fuel c b ws hb hws hrest hfuel
    obtain ⟨fuel, rfl⟩ : ∃ f, fuel = f + 1 := ⟨fuel - 1, by omega⟩
    exact succeeds_string o o' hd hliteral ih hb hws hrest hfuel
  | call o o' n hfeed hcall hne _ _ ihargs ihlinks =>
    intro fuel c b ws hb hws hrest hfuel
    obtain ⟨fuel, rfl⟩ : ∃ f, fuel = f + 2 := ⟨fuel - 2, by omega⟩
    exact succeeds_operand_call o o' n hfeed hcall hne ihargs ihlinks hb hws hrest hfuel
  | group o o' _ harrow _ ihargs ihlinks =>
    intro fuel c b ws hb hws hrest hfuel
    obtain ⟨fuel, rfl⟩ : ∃ f, fuel = f + 2 := ⟨fuel - 2, by omega⟩
    exact succeeds_operand_group o o' ihargs harrow ihlinks hb hws hrest hfuel
  | lambda o o' hfeed hpath hne hparameter hws₁ hws₂ _ hends ih =>
    intro fuel c b ws hb hws hrest hfuel
    obtain ⟨fuel, rfl⟩ : ∃ f, fuel = f + 3 := ⟨fuel - 3, by omega⟩
    exact succeeds_operand_lambda o o' hfeed hpath hne hparameter hws₁ hws₂ ih hends hb hws hrest
      hfuel
  | lambdaList o o' _ hparameters hws₁ hws₂ _ hends ihargs ih =>
    intro fuel c b ws hb hws hrest hfuel
    obtain ⟨fuel, rfl⟩ : ∃ f, fuel = f + 3 := ⟨fuel - 3, by omega⟩
    exact succeeds_operand_lambdaList o o' ihargs hparameters hws₁ hws₂ ih hends hb hws hrest hfuel
  | noLinks h =>
    intro fuel c b hb hrest hfuel
    obtain ⟨fuel, rfl⟩ : ∃ f, fuel = f + 1 := ⟨fuel - 1, by omega⟩
    rw [List.nil_append] at hrest
    have hnone := @succeeds_noLinks place c b fuel (by rw [hrest]; exact h)
    rwa [hrest] at hnone
  | link o n hfeed hcall _ _ ihargs ihlinks =>
    intro fuel c b hb hrest hfuel
    obtain ⟨fuel, rfl⟩ : ∃ f, fuel = f + 1 := ⟨fuel - 1, by omega⟩
    exact succeeds_link o n hfeed hcall ihargs ihlinks hb hrest hfuel
  | lastLink o hfeed hpath hne hcloses hcall =>
    intro fuel c b hb hrest hfuel
    obtain ⟨fuel, rfl⟩ : ∃ f, fuel = f + 1 := ⟨fuel - 1, by omega⟩
    exact succeeds_lastLink o hfeed hpath hne hcloses hcall hrest
  | noArguments hws =>
    intro fuel start c b hrest hfuel
    obtain ⟨fuel, rfl⟩ : ∃ f, fuel = f + 1 := ⟨fuel - 1, by omega⟩
    exact succeeds_noArguments hws hrest
  | someArguments h ih =>
    intro fuel start c b hrest hfuel
    obtain ⟨fuel, rfl⟩ : ∃ f, fuel = f + 1 := ⟨fuel - 1, by omega⟩
    exact succeeds_someArguments h ih hrest hfuel
  -- Blanks before an argument were skipped by what reads the arguments.
  | @lastItem inside kind name e ws ns ws₁ cs ws₂ tail sp hws hname hws₁ hws₂ h ih =>
    intro fuel c b hb hrest hfuel
    obtain ⟨fuel, rfl⟩ : ∃ f, fuel = f + 1 := ⟨fuel - 1, by omega⟩
    have hrest' : Text.trimStart c.rest =
        Text.trimStart (ns ++ (ws₁ ++ (cs ++ (ws₂ ++ ')' :: tail)))) := by
      rw [hrest, List.append_assoc, Text.trimStart_append hws]
      simp
    refine succeeds_named hname hws₁ h hrest' fun c' ws' start hws' hc' hlength => ?_
    exact succeeds_lastItem sp hws₂ ih hb hws' hc' (by omega)
  | @item inside kind name e args ws ns ws₁ cs ws₂ as tail sp hws hname hws₁ hws₂ h _ ih ihrest =>
    intro fuel c b hb hrest hfuel
    obtain ⟨fuel, rfl⟩ : ∃ f, fuel = f + 1 := ⟨fuel - 1, by omega⟩
    have hrest' : Text.trimStart c.rest =
        Text.trimStart (ns ++ (ws₁ ++ (cs ++ (ws₂ ++ ',' :: (as ++ tail))))) := by
      rw [hrest, List.append_assoc, Text.trimStart_append hws]
      simp
    refine succeeds_named hname hws₁ h hrest' fun c' ws' start hws' hc' hlength => ?_
    exact succeeds_item sp hws₂ ih ihrest hb hws' hc' (by omega)
  -- Trees are read onto the stacks.
  | operand h ih =>
    intro fuel c b ws operands ops s hs hb hws hrest hfuel _
    exact resumes_operand ih (Written.operand h).ne_nil hs hb hws hrest hfuel
  | @binary inside cs ws₁ ws₂ ds tail op l r o n hws₁ hws₂ hop _ hr htl htr ihl ihr =>
    intro fuel c b ws operands ops s hs hb hws hrest hfuel htop
    refine resumes_binary o n hws₁ hws₂ (atStart?_operand hop hr.ne_nil tail) ihl ihr htl htr hs hb
      hws ?_ hfuel htop
    rw [hrest]
    simp only [List.append_assoc]

end Stencil
