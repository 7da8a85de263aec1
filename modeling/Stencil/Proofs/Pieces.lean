import Stencil.Proofs.Nodes
import Stencil.Proofs.ParserRules
import Stencil.Proofs.Writing

/-!
# Pieces of a text and the nodes they are read as

`Located` says which piece of the text the span of a node covers, `Stands` that the piece is a way
to write that node on its own, and `Covers` both of a node and all nodes below it. On the stacks of
the parser (`Stacked`) the pieces of the operands lie side by side with the operators between them,
and the operators bind more tightly the higher they are. Main statement: `Stacked.reduce`, joining
operands keeps it so, and leaves no operator on top that binds as tightly as the one that comes.
-/

namespace Stencil

open Text (Blanks)

/-! ## Moving over a text -/

/-- Whether the second cursor is where the text has been passed that the first one is at. -/
structure Moves (c : Cursor) (cs : List Char) (c' : Cursor) : Prop where
  rest : c.rest = cs ++ c'.rest
  eq : c' = c.advance cs.length

namespace Moves

variable {c c' c'' : Cursor} {cs ds : List Char}

theorem refl (c : Cursor) : Moves c [] c :=
  ⟨rfl, rfl⟩

theorem of_rest {tail : List Char} (h : c.rest = cs ++ tail) : Moves c cs (c.advance cs.length) :=
  ⟨by rw [Cursor.rest_advance_length h, h], rfl⟩

theorem trans (h : Moves c cs c') (h' : Moves c' ds c'') : Moves c (cs ++ ds) c'' := by
  refine ⟨by rw [h.rest, h'.rest, List.append_assoc], ?_⟩
  rw [h'.eq, h.eq, Cursor.advance_advance, List.length_append]

theorem input (h : Moves c cs c') : c'.input = c.input := by
  rw [h.eq, Cursor.input_advance]

theorem position (h : Moves c cs c') : c'.position = c.position + cs.length := by
  rw [h.eq, Cursor.position_advance]

/-- Passing one character. -/
theorem of_head? {d : Char} (h : c.rest.head? = some d) : Moves c [d] (c.advance 1) := by
  cases hrest : c.rest with
  | nil =>
    rw [hrest] at h
    cases h
  | cons x xs =>
    rw [hrest] at h
    obtain rfl : x = d := Option.some.inj h
    exact ⟨by rw [hrest, Cursor.rest_advance, hrest]; rfl, rfl⟩

end Moves

theorem exists_moves_skipBlanks (c : Cursor) : ∃ ws, Blanks ws ∧ Moves c ws c.skipBlanks := by
  refine ⟨c.rest.takeWhile Text.isBlank, fun w hw => ?_, ?_⟩
  · exact List.all_eq_true.mp List.all_takeWhile w hw
  · exact .of_rest List.takeWhile_append_dropWhile.symm

/-- After blanks were skipped there is none. -/
theorem isBlank_of_skipBlanks {c : Cursor} {ch : Char} (h : c.skipBlanks.rest.head? = some ch) :
    Text.isBlank ch = false := by
  have hnot := List.head?_dropWhile_not Text.isBlank c.rest
  rw [Cursor.rest_skipBlanks] at h
  rw [show c.rest.dropWhile Text.isBlank = Text.trimStart c.rest from rfl, h] at hnot
  exact hnot

/-! ## Nodes and their pieces -/

/-- Whether the span of the node covers the text `cs` at the cursor, and the blanks after it. -/
structure Located (place : Placement) (c : Cursor) (e : Expr) (cs bl : List Char) (c' : Cursor) :
    Prop where
  moves : Moves c (cs ++ bl) c'
  blanks : Blanks bl
  span : e.span = place.span c.position c'.position

/-- Whether the node covers a piece of the input, which is a way to write the node if it is an
expression of its own. -/
def Stands (place : Placement) (input : List Char) (role : Role) (e : Expr) : Prop :=
  ∃ c cs bl c', c.input = input ∧ cs ≠ [] ∧ Located place c e cs bl c' ∧
    (role = .free → Written false (.tree e) cs [])

/-- A piece of the text that is a way to write the phrase of an expression, all nodes of which cover
pieces of their own. -/
structure Covers (place : Placement) (inside : Bool) (phrase : Expr → Phrase) (c : Cursor)
    (e : Expr)
    (cs bl : List Char) (c' : Cursor) : Prop extends Located place c e cs bl c' where
  written : Written inside (phrase e) cs (bl ++ c'.rest)
  nodes : e.everyNode (Stands place c.input) .free

section Pieces

variable {place : Placement} {inside : Bool} {c c' : Cursor} {e : Expr} {cs bl : List Char}

/-- A node whose span covers no blanks after its text. -/
theorem Located.of_moves (h : Moves c cs c') (hspan : e.span = place.span c.position c'.position) :
    Located place c e cs [] c' :=
  ⟨by rwa [List.append_nil], Text.blanks_nil, hspan⟩

/-- What was written before other text stands on its own. -/
theorem Located.stands (h : Located place c e cs bl c') (role : Role) {tail : List Char}
    (hw : Written inside (.tree e) cs tail) : Stands place c.input role e :=
  ⟨c, cs, bl, c', rfl, hw.ne_nil, h, fun _ => hw.follow (.inr (follows_nil _ _ _))⟩

/-- What links may follow stands on its own without them. -/
theorem Located.stands_first (h : Located place c e cs bl c') {o : Origin}
    (hw : Written inside (.operand (chained o e [])) (cs ++ []) []) :
    Stands place c.input .free e := by
  rw [List.append_nil] at hw
  exact h.stands .free (.operand hw)

/-- A node that is no expression of its own only has to cover some text. -/
theorem Located.stands_of_ne (h : Located place c e cs bl c') (hne : cs ≠ []) {role : Role}
    (hrole : role ≠ .free) : Stands place c.input role e :=
  ⟨c, cs, bl, c', rfl, hne, h, fun hfree => absurd hfree hrole⟩

/-- An operand is a piece if the nodes below its root are. -/
theorem Located.covers (h : Located place c e cs bl c')
    (hw : Written inside (.operand e) cs (bl ++ c'.rest))
    (hnodes : Stands place c.input .free e → e.everyNode (Stands place c.input) .free) :
    Covers place inside .operand c e cs bl c' :=
  { toLocated := h, written := hw, nodes := hnodes (h.stands .free (.operand hw)) }

theorem Covers.tree (h : Covers place inside .operand c e cs bl c') :
    Covers place inside .tree c e cs bl c' :=
  { toLocated := h.toLocated, written := .operand h.written, nodes := h.nodes }

end Pieces

theorem span_pathExpr (o : Origin) (parts : Path) : (pathExpr o parts).span = o.span := by
  unfold pathExpr
  split
  · split <;> rfl
  · rfl

/-- There is no node below a path or a number. -/
theorem everyNode_pathExpr {p : Role → Expr → Prop} {role : Role} {o : Origin} {parts : Path} :
    (pathExpr o parts).everyNode p role ↔ p role (pathExpr o parts) := by
  unfold pathExpr
  split
  · split <;> rfl
  · rfl

/-! ## Joined operands -/

/-- Operands bind more tightly than all operators. -/
theorem Written.tightness {inside : Bool} {e : Expr} {cs tail : List Char}
    (h : Written inside (.operand e) cs tail) : e.tightness = 10 := by
  have hchained : ∀ (o : Origin) (first : Expr) (es : List Expr), first.tightness = 10 →
      (chained o first es).tightness = 10 := by
    intro o first es hfirst
    cases es with
    | nil => exact hfirst
    | cons _ _ => rfl
  cases h with
  | @path _ _ _ _ parts o =>
    unfold pathExpr
    split
    · split <;> rfl
    · rfl
  | negative | not | lambda | lambdaList => rfl
  | string => exact hchained _ _ _ rfl
  | call => exact hchained _ _ _ rfl
  | group => exact hchained _ _ _ rfl

section Stacks

variable {place : Placement} {inside : Bool}

/-- Two pieces with an operator between them are a piece. -/
theorem Covers.join {c c₁ c₂ c' : Cursor} {l r : Expr} {op : Operator}
    {cs bl ws ws' ds bl' : List Char} (hl : Covers place inside .tree c l cs bl c₁)
    (hmoves : Moves c₁ (ws ++ (op.symbol.toList ++ ws')) c₂) (hws : Blanks ws) (hws' : Blanks ws')
    (hr : Covers place inside .tree c₂ r ds bl' c')
    (hop : Operator.atStart? (op.symbol.toList ++ (ws' ++ ds)) = some op)
    (htl : op.precedence ≤ l.tightness) (htr : op.precedence < r.tightness) :
    Covers place inside .tree c (Parser.join op l r)
      (cs ++ ((bl ++ ws) ++ (op.symbol.toList ++ (ws' ++ ds)))) bl' c' := by
  have hwhole := (hl.moves.trans hmoves).trans hr.moves
  have hinput : c₂.input = c.input := by rw [hmoves.input, hl.moves.input]
  have htail : bl ++ c₁.rest =
      (bl ++ ws) ++ (op.symbol.toList ++ (ws' ++ (ds ++ (bl' ++ c'.rest)))) := by
    rw [hmoves.rest, hr.moves.rest]
    simp only [List.append_assoc]
  -- The left operand was written before a text that begins with the operator.
  have hwritten := hl.written
  rw [htail] at hwritten
  have hjoined : Written inside (.tree (Parser.join op l r))
      (cs ++ ((bl ++ ws) ++ (op.symbol.toList ++ (ws' ++ ds)))) (bl' ++ c'.rest) :=
    .binary _ 0 (hl.blanks.append hws) hws' hop hwritten hr.written htl htr
  have hlocated : Located place c (Parser.join op l r)
      (cs ++ ((bl ++ ws) ++ (op.symbol.toList ++ (ws' ++ ds)))) bl' c' := by
    refine ⟨?_, hr.blanks, ?_⟩
    · simpa only [List.append_assoc] using hwhole
    · show Span.mk l.span.start r.span.stop = _
      rw [hl.span, hr.span]
      rfl
  refine { toLocated := hlocated, written := hjoined, nodes := ?_ }
  refine ⟨hlocated.stands _ hjoined, hl.nodes, ?_⟩
  rw [← hinput]
  exact hr.nodes

/-- The stacks of the parser, from the first operand on, which begins at `c₀`, up to the end of the
last one. -/
inductive Stacked (place : Placement) (inside : Bool) (c₀ : Cursor) :
    List Expr → List Operator → Cursor → Prop
  | one {e : Expr} {cs bl : List Char} {c : Cursor} (h : Covers place inside .tree c₀ e cs bl c) :
      Stacked place inside c₀ [e] [] c
  | more {l r : Expr} {operands : List Expr} {op : Operator} {ops : List Operator}
      {c₁ c₂ c : Cursor} {ws ws' ds bl : List Char}
      (h : Stacked place inside c₀ (l :: operands) ops c₁)
      (hmoves : Moves c₁ (ws ++ (op.symbol.toList ++ ws')) c₂) (hws : Blanks ws) (hws' : Blanks ws')
      (hr : Covers place inside .tree c₂ r ds bl c)
      (hop : Operator.atStart? (op.symbol.toList ++ (ws' ++ ds)) = some op)
      (hbelow : ∀ below ∈ ops.head?, below.precedence < op.precedence)
      (htl : op.precedence ≤ l.tightness) (htr : op.precedence < r.tightness) :
      Stacked place inside c₀ (r :: l :: operands) (op :: ops) c

/-- The operator on top of the stack may join the operands on top. -/
theorem Stacked.join {c₀ c : Cursor} {l r : Expr} {operands : List Expr} {op : Operator}
    {ops : List Operator} (h : Stacked place inside c₀ (r :: l :: operands) (op :: ops) c) :
    Stacked place inside c₀ (Parser.join op l r :: operands) ops c := by
  cases h with
  | more h hmoves hws hws' hr hop hbelow htl htr =>
    cases h with
    | one hl => exact .one (hl.join hmoves hws hws' hr hop htl htr)
    | more h hmoves₁ hws₁ hws₁' hl hop₁ hbelow₁ htl₁ _ =>
      have hjoined := hl.join hmoves hws hws' hr hop htl htr
      refine .more h hmoves₁ hws₁ hws₁' hjoined ?_ hbelow₁ htl₁ (hbelow _ rfl)
      -- The text of the right operand was extended, after the operator and one character.
      have happend := atStart?_operand hop₁ hl.written.ne_nil
      simpa only [List.append_assoc] using happend _

/-- After operators that bind as tightly as `p` joined their operands, none of them is left, and the
operand on top binds as tightly. -/
theorem Stacked.reduce (p : Nat) {c₀ c : Cursor} {operands : List Expr} {ops : List Operator}
    (h : Stacked place inside c₀ operands ops c)
    (htop : ∀ top ∈ operands.head?, p ≤ top.tightness) :
    Stacked place inside c₀ (Parser.reduce p operands ops).1 (Parser.reduce p operands ops).2 c ∧
      (∀ top ∈ (Parser.reduce p operands ops).1.head?, p ≤ top.tightness) ∧
        ∀ op ∈ (Parser.reduce p operands ops).2.head?, op.precedence < p := by
  fun_induction Parser.reduce p operands ops with
  -- The operator on top binds less tightly, and so do those below it.
  | case1 r l operands op ops hlt =>
    refine ⟨h, htop, ?_⟩
    rintro x ⟨⟩
    exact hlt
  | case2 r l operands op ops hge ih =>
    refine ih h.join ?_
    rintro x ⟨⟩
    exact Nat.not_lt.mp hge
  -- Without an operator there is nothing to join; stacks of other shapes do not occur.
  | case3 operands ops hno =>
    refine ⟨h, htop, fun x hx => ?_⟩
    cases h with
    | one => cases hx
    | more => exact absurd rfl (hno _ _ _ _ _ rfl)

theorem Stacked.exists_cons {c₀ c : Cursor} {operands : List Expr} {ops : List Operator}
    (h : Stacked place inside c₀ operands ops c) : ∃ top below, operands = top :: below := by
  cases h <;> exact ⟨_, _, rfl⟩

/-- An operator and the operand after it go onto the stacks, after operators that bind as tightly
have joined their operands. -/
theorem Stacked.push {c₀ c c₁ c₂ c' : Cursor} {operands : List Expr} {ops : List Operator}
    {op : Operator} {r : Expr} {ws ws' ds bl : List Char}
    (h : Stacked place inside c₀ operands ops c)
    (htop : ∀ top ∈ operands.head?, top.tightness = 10) (hws : Blanks ws) (hskip : Moves c ws c₁)
    (hop : Operator.atStart? c₁.rest = some op) (hws' : Blanks ws')
    (hskip' : Moves (c₁.advance op.width) ws' c₂) (hr : Covers place inside .tree c₂ r ds bl c')
    (htr : r.tightness = 10) :
    Stacked place inside c₀ (r :: (Parser.reduce op.precedence operands ops).1)
      (op :: (Parser.reduce op.precedence operands ops).2) c' := by
  have hlt := op.precedence_lt
  obtain ⟨hreduced, htop, hbelow⟩ := h.reduce op.precedence fun top h => by
    rw [htop top h]
    omega
  obtain ⟨-, tail, htail⟩ := Operator.prefix_of_atStart? hop
  have hsymbol : Moves c₁ op.symbol.toList (c₁.advance op.width) := .of_rest htail.symm
  have hmoves := hskip.trans (hsymbol.trans hskip')
  -- The operator was found in the whole text, but its own text and an operand decide it.
  have hop' : Operator.atStart? (op.symbol.toList ++ (ws' ++ ds)) = some op := by
    have hwidth : 0 < op.symbol.toList.length := op.width_pos
    have hlength : 2 ≤ (op.symbol.toList ++ (ws' ++ ds)).length := by
      have hds := List.length_pos_iff.mpr hr.written.ne_nil
      simp only [List.length_append]
      omega
    rw [← atStart?_append hlength (bl ++ c'.rest), ← hop, hsymbol.rest, hskip'.rest, hr.moves.rest]
    simp only [List.append_assoc]
  obtain ⟨l, below, hl⟩ := hreduced.exists_cons
  rw [hl] at hreduced htop ⊢
  exact .more hreduced hmoves hws hws' hr hop' hbelow (htop l rfl) (by rw [htr]; exact hlt)

/-- When all operators have joined their operands, one piece is left. -/
theorem Stacked.exists_covers {c₀ c : Cursor} {operands : List Expr} {ops : List Operator}
    (h : Stacked place inside c₀ operands ops c) :
    ∃ e cs bl, (Parser.reduce 0 operands ops).1.head? = some e ∧
      Covers place inside .tree c₀ e cs bl c := by
  obtain ⟨hstacked, -, hnone⟩ := h.reduce 0 fun _ _ => Nat.zero_le _
  generalize Parser.reduce 0 operands ops = joined at hstacked hnone ⊢
  obtain ⟨operands', ops'⟩ := joined
  cases hstacked with
  | one hcovers => exact ⟨_, _, _, rfl, hcovers⟩
  | more => exact absurd (hnone _ rfl) (Nat.not_lt_zero _)

end Stacks

end Stencil
