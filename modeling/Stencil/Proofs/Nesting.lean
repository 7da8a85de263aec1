import Mathlib.Data.Nat.Basic
import Mathlib.Order.Basic
import Stencil.Proofs.Lines
import Stencil.Proofs.ProblemSpans

/-!
# Locations nest

Wherever a tree comes from, with problems or without, each node takes up a piece of the text, and
its children take up pieces of that one, one after another (`Sits`). Spans come from offsets that
were kept when a node began, from the place of the cursor when it ended, and, for operators, from
the operands. A row of nodes grows by what is read next, which begins where the row has ended.

Main statement: `locations_nest`.
-/

namespace Stencil

/-! ## Spans in a template -/

/-- Whether a span lies between two offsets of a template, and gives its ends as counting does. -/
structure Span.Lies (template : List Char) (lo hi : Nat) (span : Span) : Prop where
  lower : lo ≤ span.start.offset
  ordered : span.start.offset ≤ span.stop.offset
  upper : span.stop.offset ≤ hi
  start : span.start = Text.positionAt template span.start.offset
  stop : span.stop = Text.positionAt template span.stop.offset

/-- Whether the span lies within the other one. -/
def Span.Inside (inner outer : Span) : Prop :=
  outer.start.offset ≤ inner.start.offset ∧ inner.stop.offset ≤ outer.stop.offset

/-- Whether the span ends before the other one begins, or where it does. -/
def Span.Before (span next : Span) : Prop :=
  span.stop.offset ≤ next.start.offset

/-- Whether a node lies between two offsets of a template, and its children are in order within
it. -/
structure Expr.Nested (template : List Char) (lo hi : Nat) (e : Expr) : Prop where
  lies : e.span.Lies template lo hi
  /-- What a child takes up lies within the node, and the child itself within that. -/
  slots : ∀ x ∈ e.childSpans, x.1.Lies template lo hi ∧ x.1.Inside e.span ∧ x.2.Inside x.1
  ordered : e.childSpans.Pairwise fun x y => x.1.Before y.1

theorem Placement.span_lies (template : List Char) (k : Nat) {start stop n : Nat}
    (hle : start ≤ stop) (hstop : stop ≤ n) :
    ((within template k).span start stop).Lies template k (k + n) where
  lower := Nat.le_add_right k start
  ordered := Nat.add_le_add_left hle k
  upper := Nat.add_le_add_left hstop k
  start := LineTable.locate_ofText template (k + start)
  stop := LineTable.locate_ofText template (k + stop)

/-! ## Rows of nodes -/

mutual

/-- Whether a tree takes up a piece of the text between two offsets, and its children sit in this
piece one after another. -/
inductive Sits (place : Placement) : Nat → Nat → Expr → Prop
  | intro {lo hi start stop : Nat} {e : Expr} : lo ≤ start → start ≤ stop → stop ≤ hi →
    e.span = place.span start stop → Row place start stop e.children → Sits place lo hi e

/-- Whether trees sit one after another between two offsets, each in the span that it takes up. -/
inductive Row (place : Placement) : Nat → Nat → List (Span × Expr) → Prop
  | nil {lo hi : Nat} : Row place lo hi []
  | cons {lo hi start stop : Nat} {span : Span} {e : Expr} {more : List (Span × Expr)} :
    lo ≤ start → stop ≤ hi → span = place.span start stop → Sits place start stop e →
    Row place stop hi more → Row place lo hi ((span, e) :: more)

end

section Rows

variable {place : Placement} {lo lo' hi hi' mid : Nat} {e : Expr} {xs ys : List (Span × Expr)}

theorem Sits.le (h : Sits place lo hi e) : lo ≤ hi := by
  obtain ⟨hlo, hle, hhi, -, -⟩ := h
  omega

theorem Sits.mono (h : Sits place lo hi e) (hlo : lo' ≤ lo) (hhi : hi ≤ hi') :
    Sits place lo' hi' e := by
  obtain ⟨hstart, hle, hstop, hspan, hrow⟩ := h
  exact ⟨hlo.trans hstart, hle, hstop.trans hhi, hspan, hrow⟩

/-- A node that takes up a whole piece sits around its children. -/
theorem sits_node {start stop : Nat} (hle : start ≤ stop) (hspan : e.span = place.span start stop)
    (hrow : Row place start stop e.children) : Sits place start stop e :=
  ⟨Nat.le_refl _, hle, Nat.le_refl _, hspan, hrow⟩

/-- The piece that a tree takes up. -/
theorem Sits.own (h : Sits place lo hi e) : ∃ start stop, lo ≤ start ∧ stop ≤ hi ∧
    e.span = place.span start stop ∧ Sits place start stop e := by
  obtain ⟨hstart, hle, hstop, hspan, hrow⟩ := h
  exact ⟨_, _, hstart, hstop, hspan, sits_node hle hspan hrow⟩

/-- A tree with its own span is a row. -/
theorem Sits.row (h : Sits place lo hi e) : Row place lo hi [(e.span, e)] := by
  obtain ⟨start, stop, hstart, hstop, hspan, he⟩ := h.own
  exact .cons hstart hstop hspan he .nil

theorem Row.mono (h : Row place lo hi xs) (hlo : lo' ≤ lo) (hhi : hi ≤ hi') :
    Row place lo' hi' xs := by
  induction xs generalizing lo lo' with
  | nil => exact .nil
  | cons x xs ih =>
    obtain _ | ⟨hstart, hstop, hspan, he, hrest⟩ := h
    exact .cons (hlo.trans hstart) (hstop.trans hhi) hspan he (ih hrest (Nat.le_refl _))

theorem Row.append (h : Row place lo mid xs) (h' : Row place mid hi ys) (hlo : lo ≤ mid)
    (hhi : mid ≤ hi) : Row place lo hi (xs ++ ys) := by
  induction xs generalizing lo with
  | nil => exact h'.mono hlo (Nat.le_refl _)
  | cons x xs ih =>
    obtain _ | ⟨hstart, hstop, hspan, he, hrest⟩ := h
    exact .cons hstart (hstop.trans hhi) hspan he (ih hrest hstop)

/-- Trees that sit in wider spans also sit in those that are theirs as nodes. -/
theorem Row.own (h : Row place lo hi xs) : Row place lo hi (xs.map fun x => (x.2.span, x.2)) := by
  induction xs generalizing lo with
  | nil => exact .nil
  | cons x xs ih =>
    obtain _ | ⟨hlo, hhi, -, he, hrest⟩ := h
    have hfirst := (he.mono hlo (Nat.le_refl _)).row
    exact hfirst.append (ih hrest) (hlo.trans he.le) hhi

/-- Each tree of a row sits in a piece of its own. -/
theorem Row.mem (h : Row place lo hi xs) : ∀ x ∈ xs, ∃ start stop, lo ≤ start ∧ stop ≤ hi ∧
    x.1 = place.span start stop ∧ Sits place start stop x.2 := by
  induction xs generalizing lo with
  | nil => exact List.forall_mem_nil _
  | cons x xs ih =>
    obtain _ | ⟨hlo, hhi, hspan, he, hrest⟩ := h
    refine List.forall_mem_cons.mpr ⟨⟨_, _, hlo, hhi, hspan, he⟩, fun y hy => ?_⟩
    obtain ⟨start, stop, hstart, hstop, hy⟩ := ih hrest y hy
    exact ⟨start, stop, (hlo.trans he.le).trans hstart, hstop, hy⟩

theorem Row.pairwise (h : Row place lo hi xs) : xs.Pairwise fun x y => x.1.Before y.1 := by
  induction xs generalizing lo with
  | nil => exact .nil
  | cons x xs ih =>
    obtain _ | ⟨hlo, hhi, hspan, he, hrest⟩ := h
    refine .cons (fun y hy => ?_) (ih hrest)
    obtain ⟨start, stop, hstart, hstop, hy, -⟩ := hrest.mem y hy
    rw [hspan, hy]
    exact Nat.add_le_add_left hstart _

end Rows

namespace Parser

variable {α β : Type} {place : Placement} {s : ParserState} {lo : Nat}

/-! ## Stacks -/

/-- Whether the operands on a stack sit one after another between two offsets, the last one on
top. -/
def Piled (place : Placement) (lo : Nat) : Nat → List Expr → Prop
  | hi, [] => lo ≤ hi
  | hi, e :: operands => ∃ start, Sits place start hi e ∧ Piled place lo start operands

theorem Piled.le {hi : Nat} {operands : List Expr} (h : Piled place lo hi operands) :
    lo ≤ hi := by
  induction operands generalizing hi with
  | nil => exact h
  | cons e operands ih =>
    obtain ⟨start, he, hrest⟩ := h
    exact (ih hrest).trans he.le

theorem Piled.mono {hi hi' : Nat} {operands : List Expr} (h : Piled place lo hi operands)
    (hhi : hi ≤ hi') : Piled place lo hi' operands := by
  cases operands with
  | nil => exact Nat.le_trans h hhi
  | cons e operands =>
    obtain ⟨start, he, hrest⟩ := h
    exact ⟨start, he.mono (Nat.le_refl _) hhi, hrest⟩

theorem Piled.head? {hi : Nat} {operands : List Expr} (h : Piled place lo hi operands) :
    ∀ e ∈ operands.head?, Sits place lo hi e := by
  cases operands with
  | nil => exact fun _ he => nomatch he
  | cons e operands =>
    obtain ⟨start, he, hrest⟩ := h
    rintro _ ⟨⟩
    exact he.mono hrest.le (Nat.le_refl _)

/-- Operands that are joined take up what both do, and what is between them. -/
theorem sits_join {mid hi : Nat} {left right : Expr} (op : Operator)
    (hleft : Sits place lo mid left) (hright : Sits place mid hi right) :
    Sits place lo hi (join op left right) := by
  obtain ⟨start, stop, hlo, hmid, hspan, hleft⟩ := hleft.own
  obtain ⟨start', stop', hmid', hhi, hspan', hright⟩ := hright.own
  have hbetween : stop ≤ start' := hmid.trans hmid'
  have hwhole : start ≤ stop' := (hleft.le.trans hbetween).trans hright.le
  have hjoined : (join op left right).span = place.span start stop' := by
    show Span.mk left.span.start right.span.stop = _
    rw [hspan, hspan']
    rfl
  have hchildren : Row place start stop' (join op left right).children :=
    hleft.row.append (hright.row.mono hbetween (Nat.le_refl _)) hleft.le
      (hbetween.trans hright.le)
  exact (sits_node hwhole hjoined hchildren).mono hlo hhi

theorem piled_reduce (p : Nat) {hi : Nat} {operands : List Expr} (ops : List Operator)
    (h : Piled place lo hi operands) : Piled place lo hi (reduce p operands ops).1 := by
  fun_induction reduce p operands ops with
  | case1 => exact h
  | case2 right left operands op ops _ ih =>
    obtain ⟨mid, hright, start, hleft, hrest⟩ := h
    exact ih ⟨start, sits_join op hleft hright, hrest⟩
  | case3 => exact h

/-! ## What is read -/

/-- Reading came to an offset after `lo`, and the tree it gave, if any, sits between the two. -/
structure SitsFrom (place : Placement) (lo : Nat) (e : Option Expr) (t : ParserState) : Prop where
  onward : lo ≤ t.cursor.position
  sits : ∀ x ∈ e, Sits place lo t.cursor.position x

theorem SitsFrom.mono {lo' : Nat} {e : Option Expr} {t : ParserState} (h : SitsFrom place lo e t)
    (hlo : lo' ≤ lo) : SitsFrom place lo' e t :=
  ⟨hlo.trans h.onward, fun x hx => (h.sits x hx).mono hlo (Nat.le_refl _)⟩

theorem sitsFrom_none {t : ParserState} (h : lo ≤ t.cursor.position) : SitsFrom place lo none t :=
  ⟨h, fun _ hx => nomatch hx⟩

theorem sitsFrom_some {t : ParserState} {e : Expr} (h : Sits place lo t.cursor.position e) :
    SitsFrom place lo (some e) t :=
  ⟨h.le, fun _ hx => Option.some.inj hx ▸ h⟩

/-- Reading came to an offset after `lo`, and the trees it gave sit one after another between the
two. -/
structure RowFrom (place : Placement) (lo : Nat) (items : List (Span × Expr)) (t : ParserState) :
    Prop where
  onward : lo ≤ t.cursor.position
  row : Row place lo t.cursor.position items

theorem RowFrom.mono {lo' : Nat} {items : List (Span × Expr)} {t : ParserState}
    (h : RowFrom place lo items t) (hlo : lo' ≤ lo) : RowFrom place lo' items t :=
  ⟨hlo.trans h.onward, h.row.mono hlo (Nat.le_refl _)⟩

/-- Reading came to an offset after `before`, and the operands it left on the stack sit one after
another between `lo` and there. -/
structure PileFrom (place : Placement) (lo before : Nat) (operands : List Expr) (t : ParserState) :
    Prop where
  onward : before ≤ t.cursor.position
  piled : Piled place lo t.cursor.position operands

theorem PileFrom.mono {before before' : Nat} {operands : List Expr} {t : ParserState}
    (h : PileFrom place lo before operands t) (hle : before' ≤ before) :
    PileFrom place lo before' operands t :=
  ⟨hle.trans h.onward, h.piled⟩

/-- Arguments with the spans that they take up. -/
abbrev slots (args : List Argument) : List (Span × Expr) :=
  args.map fun a => (a.span, a.expr)

/-- Trees with their own spans. -/
abbrev spots (items : List Expr) : List (Span × Expr) :=
  items.map fun e => (e.span, e)

theorem sits_readString (delimiter : Char) : Leaves (readString place delimiter) s fun e t =>
    Sits place s.cursor.position t.cursor.position e := by
  refine leaves_step (leaves_position (leaves_advance (leaves_rest ?_)))
  refine leaves_onward (forward.across_advance _) fun _ t ht => ?_
  have hstart : s.cursor.position ≤ t.cursor.position := (Nat.le_add_right _ 1).trans ht
  split
  · exact leaves_position (leaves_report (leaves_originFrom (leaves_pure
      (sits_node hstart rfl .nil))))
  · exact leaves_originFrom (leaves_pure (sits_node hstart rfl .nil))

/-! ## The reading functions -/

section Ending

variable {start : Nat} (hstart : start ≤ s.cursor.position)
include hstart

theorem sits_somePlaceholder : Leaves (do return some (← placeholder place start)) s
    (SitsFrom place start) :=
  leaves_placeholder (leaves_pure (sitsFrom_some (sits_node hstart rfl .nil)))

theorem row_onlyPlaceholder : Leaves (do return [← placeholder place start]) s
    fun es => RowFrom place start (spots es) := by
  refine leaves_placeholder (leaves_pure ⟨hstart, ?_⟩)
  exact (sits_node hstart rfl .nil).row

theorem sits_afterNot {e : Option Expr} (h : SitsFrom place start e s) :
    Leaves (afterNot place start e) s (SitsFrom place start) := by
  cases e with
  | none => exact leaves_pure h
  | some e =>
    exact leaves_originFrom (leaves_pure (sitsFrom_some
      (sits_node hstart rfl (h.sits e rfl).row)))

theorem sits_afterMinus {e : Option Expr} (h : SitsFrom place start e s) :
    Leaves (afterMinus place start e) s (SitsFrom place start) := by
  unfold afterMinus
  split
  · exact leaves_pure h
  · exact leaves_originFrom (leaves_pure (sitsFrom_some (sits_node hstart rfl .nil)))
  · exact leaves_report (leaves_pure ⟨h.onward, h.sits⟩)

end Ending

/-- The lambda sits around its parameters and its body. -/
theorem sits_afterBody {start mid : Nat} {parameters : Expr} {body : Option Expr}
    (hparameters : Sits place start mid parameters) (h : SitsFrom place mid body s) :
    Leaves (afterBody place parameters start body) s (SitsFrom place start) := by
  have hstart : start ≤ s.cursor.position := hparameters.le.trans h.onward
  cases body with
  | none => exact leaves_pure (sitsFrom_none hstart)
  | some body =>
    refine leaves_originFrom (leaves_pure (sitsFrom_some (sits_node hstart rfl ?_)))
    exact hparameters.row.append (h.sits body rfl).row hparameters.le h.onward

/-- What is claimed of all reading functions for one amount of fuel. -/
structure ReadingNests (place : Placement) (fuel : Nat) : Prop where
  expression : ∀ s, Leaves (expression place fuel) s (SitsFrom place s.cursor.position)
  operators : ∀ s lo operands ops, Piled place lo s.cursor.position operands →
    Leaves (operators place fuel operands ops) s fun r =>
      PileFrom place lo s.cursor.position r.1
  operand : ∀ s, Leaves (operand place fuel) s (SitsFrom place s.cursor.position)
  pathOperand : ∀ s : ParserState, ∀ start ≤ s.cursor.position,
    Leaves (pathOperand place fuel start) s (SitsFrom place start)
  call : ∀ (s : ParserState) t, ∀ start ≤ s.cursor.position,
    Leaves (call place fuel t start) s (SitsFrom place start)
  chain : ∀ s first start, Sits place start s.cursor.position first →
    Leaves (chain place fuel first start) s (SitsFrom place start)
  links : ∀ s, Leaves (links place fuel) s fun es => RowFrom place s.cursor.position (spots es)
  group : ∀ s, Leaves (group place fuel) s (SitsFrom place s.cursor.position)
  lambda : ∀ s parameters start, Sits place start s.cursor.position parameters →
    Leaves (lambda place fuel parameters start) s (SitsFrom place start)
  arguments : ∀ s kind start, Leaves (arguments place fuel kind start) s fun args =>
    RowFrom place s.cursor.position (slots args)
  argumentList : ∀ s kind, Leaves (argumentList place fuel kind) s fun args =>
    RowFrom place s.cursor.position (slots args)

namespace ReadingNests

variable {fuel : Nat} (ih : ReadingNests place fuel)
include ih

theorem expression_succ :
    Leaves (Parser.expression place (fuel + 1)) s (SitsFrom place s.cursor.position) := by
  rw [Parser.expression]
  refine leaves_step ((ih.operand _).bind fun first t ht => ?_)
  cases first with
  | none => exact leaves_pure ht
  | some first =>
    have hfirst : Piled place s.cursor.position t.cursor.position [first] :=
      ⟨_, ht.sits first rfl, Nat.le_refl _⟩
    refine (ih.operators t _ _ _ hfirst).bind fun r u hu => leaves_pure ?_
    exact ⟨ht.onward.trans hu.onward, (piled_reduce 0 _ hu.piled).head?⟩

theorem operators_succ {operands : List Expr} (ops : List Operator)
    (h : Piled place lo s.cursor.position operands) :
    Leaves (Parser.operators place (fuel + 1) operands ops) s fun r =>
      PileFrom place lo s.cursor.position r.1 := by
  rw [Parser.operators]
  refine leaves_step (leaves_onward forward.across_skipBlanks fun _ t ht => leaves_current? ?_)
  have hstop : PileFrom place lo s.cursor.position operands t := ⟨ht, h.mono ht⟩
  -- Where no operator is taken, the stack stays as it was.
  have hagain (u : ParserState) (hu : t.cursor.position ≤ u.cursor.position) :
      Leaves (Parser.operators place fuel operands ops) u fun r =>
        PileFrom place lo s.cursor.position r.1 :=
    (ih.operators u _ _ _ (h.mono (ht.trans hu))).imp fun _ _ hr => hr.mono (ht.trans hu)
  have hskip (fault : Fault) : Leaves (do
      reportHere place fault
      advance 1
      Parser.operators place fuel operands ops) t fun r =>
        PileFrom place lo s.cursor.position r.1 :=
    leaves_reportHere (leaves_advance (hagain _ (Nat.le_add_right _ _)))
  cases t.cursor.current? with
  | none => exact leaves_pure hstop
  | some c =>
    refine leaves_get ?_
    dsimp only
    split
    · exact leaves_pure hstop
    split
    · exact hskip _
    split
    · exact hskip _
    split
    · exact leaves_reportHere (leaves_onward (forward.across_readString place c) fun _ u hu =>
        hagain u hu)
    refine leaves_rest ?_
    split
    · exact leaves_position (leaves_advance (leaves_report (hagain _ (Nat.le_add_right _ _))))
    refine leaves_rest ?_
    split
    · exact hskip _
    · next op _ =>
      refine leaves_onward (forward.across_advance _) fun _ u hu => leaves_step ?_
      have hreduced := (piled_reduce op.precedence ops h).mono (ht.trans hu)
      refine (ih.operand _).bind fun right v hv => ?_
      have honward : s.cursor.position ≤ v.cursor.position := (ht.trans hu).trans hv.onward
      cases right with
      | none => exact leaves_pure ⟨honward, hreduced.mono hv.onward⟩
      | some right =>
        have hpushed : Piled place lo v.cursor.position
            (right :: (reduce op.precedence operands ops).1) :=
          ⟨_, hv.sits right rfl, hreduced⟩
        exact (ih.operators v lo _ _ hpushed).imp fun _ _ hr => hr.mono honward

theorem operandAt_nests (c : Char) (next : Option Char) :
    Leaves (operandAt place fuel s.cursor.position c next) s
      (SitsFrom place s.cursor.position) := by
  have hnext : s.cursor.position ≤ s.cursor.position + 1 := Nat.le_add_right _ _
  unfold operandAt
  split
  · exact (sits_readString c).bind fun literal t ht => ih.chain t literal _ ht
  split
  · exact ih.group s
  split
  · exact leaves_advance ((ih.operand _).bind fun e t ht =>
      sits_afterNot (hnext.trans ht.onward) (ht.mono hnext))
  split
  · exact leaves_advance ((ih.operand _).bind fun e t ht =>
      sits_afterMinus (hnext.trans ht.onward) (ht.mono hnext))
  split
  · exact leaves_reportHere (leaves_pure (sitsFrom_none (Nat.le_refl _)))
  split
  · exact leaves_reportHere (leaves_advance (leaves_pure (sitsFrom_none hnext)))
  refine leaves_rest ?_
  split
  · exact leaves_report (leaves_advance ((ih.operand _).imp fun _ _ ht =>
      ht.mono (Nat.le_add_right _ _)))
  · exact ih.pathOperand s _ (Nat.le_refl _)

theorem operand_succ :
    Leaves (Parser.operand place (fuel + 1)) s (SitsFrom place s.cursor.position) := by
  rw [operand_eq]
  refine leaves_step (leaves_onward forward.across_skipBlanks fun _ t ht => ?_)
  refine leaves_position (leaves_current? ?_)
  cases t.cursor.current? with
  | none => exact leaves_report (leaves_pure (sitsFrom_none ht))
  | some c => exact leaves_get ((ih.operandAt_nests c _).imp fun _ _ hu => hu.mono ht)

theorem afterPath_nests {start : Nat} (hstart : start ≤ s.cursor.position) (t : Option Tokenizer) :
    Leaves (afterPath place fuel start t) s (SitsFrom place start) := by
  cases t with
  | none =>
    exact leaves_onward (reading_forward place fuel).skipCall fun _ u hu =>
      sits_somePlaceholder (hstart.trans hu)
  | some t =>
    have hleaf {e : Expr} (hspan : e.span = place.span start s.cursor.position)
        (hchildren : e.children = []) : Sits place start s.cursor.position e :=
      sits_node hstart hspan (hchildren ▸ .nil)
    refine leaves_current? ?_
    split
    · exact ih.call s t start hstart
    split
    · exact leaves_position (leaves_report (sits_somePlaceholder hstart))
    · refine leaves_originFrom ?_
      split
      · dsimp only
        split <;> exact leaves_pure (sitsFrom_some (hleaf rfl rfl))
      · refine leaves_arrowAhead fun _ => ?_
        split
        · exact ih.lambda _ _ start (hleaf rfl rfl)
        · exact leaves_pure (sitsFrom_some (hleaf rfl rfl))
      · exact leaves_pure (sitsFrom_some (hleaf rfl rfl))

theorem pathOperand_succ {start : Nat} (hstart : start ≤ s.cursor.position) :
    Leaves (Parser.pathOperand place (fuel + 1) start) s (SitsFrom place start) := by
  rw [pathOperand_eq]
  exact leaves_step (leaves_onward (forward.across_readPath place _) fun path t ht =>
    ih.afterPath_nests (hstart.trans ht) path)

theorem call_succ (t : Tokenizer) {start : Nat} (hstart : start ≤ s.cursor.position) :
    Leaves (Parser.call place (fuel + 1) t start) s (SitsFrom place start) := by
  rw [Parser.call]
  refine leaves_step (leaves_position (leaves_advance ?_))
  refine (ih.arguments _ _ _).bind fun args u hu => ?_
  have hrow := hu.mono (hstart.trans (Nat.le_add_right _ 1))
  split
  · exact leaves_originFrom (ih.chain u _ start (sits_node hrow.onward rfl hrow.row))
  · exact leaves_report (sits_somePlaceholder hrow.onward)

theorem chain_succ {first : Expr} {start : Nat} (h : Sits place start s.cursor.position first) :
    Leaves (Parser.chain place (fuel + 1) first start) s (SitsFrom place start) := by
  rw [Parser.chain]
  refine leaves_step ((ih.links _).bind fun links t ht => ?_)
  cases links with
  | nil => exact leaves_pure (sitsFrom_some (h.mono (Nat.le_refl _) ht.onward))
  | cons link more =>
    have hchildren := h.row.append ht.row h.le ht.onward
    exact leaves_originFrom (leaves_pure (sitsFrom_some
      (sits_node (h.le.trans ht.onward) rfl hchildren)))

theorem afterLink_nests {start : Nat} (hstart : start ≤ s.cursor.position) (t : Option Tokenizer) :
    Leaves (afterLink place fuel start t) s fun es => RowFrom place start (spots es) := by
  cases t with
  | none =>
    exact leaves_onward (reading_forward place fuel).skipCall fun _ u hu =>
      row_onlyPlaceholder (hstart.trans hu)
  | some t =>
    refine leaves_current? ?_
    split
    · refine leaves_position (leaves_advance ?_)
      refine (ih.arguments _ _ _).bind fun args u hu => ?_
      have hrow := hu.mono (hstart.trans (Nat.le_add_right _ 1))
      split
      · next parts name _ =>
        have hlink (o : Origin) (ho : o.span = place.span start u.cursor.position) :
            Sits place start u.cursor.position (.call o 0 parts name args) :=
          sits_node hrow.onward ho hrow.row
        refine leaves_originFrom ((ih.links u).bind fun links v hv => leaves_pure ?_)
        exact ⟨hrow.onward.trans hv.onward,
          (hlink _ rfl).row.append hv.row hrow.onward hv.onward⟩
      · exact leaves_report (row_onlyPlaceholder hrow.onward)
    split
    · exact leaves_report (leaves_pure ⟨hstart, .nil⟩)
    split
    · refine leaves_originFrom (leaves_pure ⟨hstart, ?_⟩)
      exact (sits_node hstart rfl .nil).row
    · exact leaves_position (leaves_report (row_onlyPlaceholder hstart))

theorem links_succ : Leaves (Parser.links place (fuel + 1)) s fun es =>
    RowFrom place s.cursor.position (spots es) := by
  rw [links_eq]
  refine leaves_step (leaves_current? ?_)
  split
  · exact leaves_pure ⟨Nat.le_refl _, .nil⟩
  · refine leaves_advance (leaves_position ?_)
    refine leaves_onward (forward.across_readPath place _) fun path t ht => ?_
    exact (ih.afterLink_nests ht path).imp fun _ _ hes => hes.mono (Nat.le_add_right _ 1)

theorem afterGroup_nests {start : Nat} {args : List Argument}
    (h : RowFrom place start (slots args) s) :
    Leaves (afterGroup place fuel start args) s (SitsFrom place start) := by
  have hitems : Row place start s.cursor.position (spots (args.map Argument.expr)) := by
    have hown := h.row.own
    rw [List.map_map] at hown
    rwa [spots, List.map_map]
  refine leaves_get ?_
  split
  · exact leaves_pure (sitsFrom_none h.onward)
  refine leaves_arrowAhead fun _ => ?_
  split
  · exact leaves_originFrom (ih.lambda _ _ start (sits_node h.onward rfl hitems))
  have hchain (t : ParserState) (ht : t.cursor = s.cursor) : Leaves
      (originFrom place start >>= fun o =>
        Parser.chain place fuel (.list o .bracket (args.map Argument.expr)) start) t
      (SitsFrom place start) := by
    refine leaves_originFrom (ih.chain t _ start ?_)
    rw [ht]
    exact sits_node h.onward rfl hitems
  split
  · exact leaves_position (leaves_report (hchain _ rfl))
  · exact hchain _ rfl
  · exact leaves_position (leaves_report (hchain _ rfl))

theorem group_succ :
    Leaves (Parser.group place (fuel + 1)) s (SitsFrom place s.cursor.position) := by
  rw [group_eq]
  refine leaves_step (leaves_position (leaves_advance ?_))
  exact (ih.arguments _ _ _).bind fun args t ht =>
    ih.afterGroup_nests (ht.mono (Nat.le_add_right _ 1))

theorem lambda_succ {parameters : Expr} {start : Nat}
    (h : Sits place start s.cursor.position parameters) :
    Leaves (Parser.lambda place (fuel + 1) parameters start) s (SitsFrom place start) := by
  rw [lambda_eq]
  refine leaves_step (leaves_onward forward.across_skipBlanks fun _ t ht => ?_)
  refine leaves_onward (forward.across_advance 2) fun _ u hu => ?_
  have hparameters := h.mono (Nat.le_refl _) (ht.trans hu)
  have hbody (v : ParserState) (hv : v.cursor = u.cursor) : Leaves
      (Parser.expression place fuel >>= afterBody place parameters start) v
      (SitsFrom place start) := by
    refine (ih.expression v).bind fun body w hw => sits_afterBody hparameters ?_
    rwa [hv] at hw
  dsimp only
  split
  · exact leaves_position (leaves_report (hbody _ rfl))
  · exact hbody _ rfl

theorem arguments_succ (kind : BracketKind) (start : Nat) :
    Leaves (Parser.arguments place (fuel + 1) kind start) s fun args =>
      RowFrom place s.cursor.position (slots args) := by
  rw [Parser.arguments]
  refine leaves_step (leaves_openBracket ?_)
  refine leaves_onward forward.across_skipBlanks fun _ t ht => leaves_current? ?_
  split
  · exact leaves_advance (leaves_closeBracket (leaves_pure
      ⟨ht.trans (Nat.le_add_right _ 1), .nil⟩))
  · exact (ih.argumentList t kind).imp fun _ _ hargs => hargs.mono ht

/-- An argument takes up what was read from its name on. -/
theorem afterItem_nests (kind : BracketKind) {start : Nat} (name : Option String)
    {e : Option Expr} (h : SitsFrom place start e s) :
    Leaves (afterItem place fuel kind start name e) s fun args =>
      RowFrom place start (slots args) := by
  refine leaves_originFrom ?_
  have hread : Row place start s.cursor.position
      (slots (e.toList.map fun e => ⟨name, place.span start s.cursor.position, e⟩)) := by
    cases e with
    | none => exact .nil
    | some e => exact .cons (Nat.le_refl _) (Nat.le_refl _) rfl (h.sits e rfl) .nil
  refine leaves_onward forward.across_skipBlanks fun _ t ht => leaves_current? ?_
  generalize e.toList.map _ = read at hread
  have hnext (u : ParserState) (hu : u.cursor = t.cursor) : Leaves (do
      advance 1
      return read ++ (← Parser.argumentList place fuel kind)) u fun args =>
        RowFrom place start (slots args) := by
    refine leaves_onward (forward.across_advance 1) fun _ v hv => ?_
    rw [hu] at hv
    refine (ih.argumentList v kind).bind fun more w hw => leaves_pure ?_
    have hmid := ht.trans hv
    refine ⟨(h.onward.trans hmid).trans hw.onward, ?_⟩
    rw [slots, List.map_append]
    exact (hread.mono (Nat.le_refl _) hmid).append hw.row (h.onward.trans hmid) hw.onward
  have hend (u : ParserState) (hu : t.cursor.position ≤ u.cursor.position) :
      RowFrom place start (slots read) u :=
    ⟨h.onward.trans (ht.trans hu), hread.mono (Nat.le_refl _) (ht.trans hu)⟩
  cases t.cursor.current? with
  | none =>
    exact leaves_onward (forward.across_giveUp place) fun _ u hu => leaves_pure (hend u hu)
  | some c =>
    dsimp only
    split
    · exact leaves_advance (leaves_closeBracket (leaves_pure (hend _ (Nat.le_add_right _ 1))))
    split
    · exact leaves_reportHere (hnext _ rfl)
    · exact hnext t rfl

theorem item_nests (kind : BracketKind) {start : Nat} (hstart : start ≤ s.cursor.position)
    (name : Option String) : Leaves (item place fuel kind start name) s fun args =>
      RowFrom place start (slots args) :=
  (ih.expression s).bind fun _ _ ht => ih.afterItem_nests kind name (ht.mono hstart)

theorem argumentList_succ (kind : BracketKind) :
    Leaves (Parser.argumentList place (fuel + 1) kind) s fun args =>
      RowFrom place s.cursor.position (slots args) := by
  rw [argumentList_eq]
  refine leaves_step (leaves_onward forward.across_skipBlanks fun _ t ht => ?_)
  refine leaves_position (leaves_current? ?_)
  split
  · refine leaves_onward (forward.across_readArgumentName place kind) fun name u hu => ?_
    exact (ih.item_nests kind hu name).imp fun _ _ hargs => hargs.mono ht
  · exact (ih.item_nests kind (Nat.le_refl _) none).imp fun _ _ hargs => hargs.mono ht

end ReadingNests

/-- All reading functions give trees that sit where they were read. -/
theorem reading_nests (place : Placement) : ∀ fuel, ReadingNests place fuel
  | 0 => by
    constructor <;> intros <;>
      simp only [expression, operators, operand, pathOperand, call, chain, links, group, lambda,
        arguments, argumentList, leaves_failure]
  | fuel + 1 =>
    have ih := reading_nests place fuel
    { expression := fun _ => ih.expression_succ
      operators := fun _ _ _ ops h => ih.operators_succ ops h
      operand := fun _ => ih.operand_succ
      pathOperand := fun _ _ hstart => ih.pathOperand_succ hstart
      call := fun _ t _ hstart => ih.call_succ t hstart
      chain := fun _ _ _ h => ih.chain_succ h
      links := fun _ => ih.links_succ
      group := fun _ => ih.group_succ
      lambda := fun _ _ _ h => ih.lambda_succ h
      arguments := fun _ kind start => ih.arguments_succ kind start
      argumentList := fun _ kind => ih.argumentList_succ kind }

theorem nests_whole (place : Placement) (fuel : Nat) :
    Leaves (whole place fuel) s (SitsFrom place s.cursor.position) := by
  refine leaves_onward forward.across_skipBlanks fun _ t ht => leaves_current? ?_
  cases t.cursor.current? with
  | none => exact leaves_position (leaves_report (leaves_pure (sitsFrom_none ht)))
  | some c =>
    refine ((reading_nests place fuel).expression t).bind fun e u hu => leaves_get ?_
    split
    · exact leaves_pure (sitsFrom_none (ht.trans hu.onward))
    · exact leaves_pure (hu.mono ht)

end Parser

/-! ## Trees that were read -/

/-- A tree that sits in a text is nested where the text is. -/
theorem Sits.nested {template : List Char} {k n : Nat} {e : Expr}
    (h : Sits (.within template k) 0 n e) : e.Nested template k (k + n) := by
  obtain ⟨hlo, hle, hhi, hspan, hrow⟩ := h
  refine ⟨hspan ▸ Placement.span_lies template k hle hhi, ?_, ?_⟩
  · refine List.forall_mem_map.mpr fun x hx => ?_
    obtain ⟨start, stop, hstart, hstop, hslot, he⟩ := hrow.mem x hx
    obtain ⟨start', stop', hstart', hstop', hspan', -⟩ := he.own
    rw [hslot, hspan, hspan']
    exact ⟨Placement.span_lies template k he.le (hstop.trans hhi),
      ⟨Nat.add_le_add_left hstart k, Nat.add_le_add_left hstop k⟩,
      ⟨Nat.add_le_add_left hstart' k, Nat.add_le_add_left hstop' k⟩⟩
  · exact List.pairwise_map.mpr hrow.pairwise

/-- What sits in a text has children that do. -/
theorem Sits.children {place : Placement} {n : Nat} {e : Expr} (h : Sits place 0 n e) :
    ∀ x ∈ e.children, Sits place 0 n x.2 := by
  obtain ⟨-, -, hhi, -, hrow⟩ := h
  intro x hx
  obtain ⟨start, stop, -, hstop, -, he⟩ := hrow.mem x hx
  exact he.mono (Nat.zero_le start) (hstop.trans hhi)

/-- Being nested is about spans only. -/
theorem Expr.Nested.of_spans {template : List Char} {lo hi : Nat} {e e' : Expr}
    (h : e.Nested template lo hi) (hspan : e'.span = e.span)
    (hchildren : e'.childSpans = e.childSpans) : e'.Nested template lo hi := by
  obtain ⟨hlies, hslots, hordered⟩ := h
  constructor <;> simpa only [hspan, hchildren]

/-- Wherever a text sits in a template, all problems and all nodes that are read of it lie in it,
with the lines and columns that counting gives, and the children of each node are one after another
within it. This is so whether there are problems or not. -/
theorem locations_nest (template text : List Char) (k : Nat) :
    (∀ d ∈ (parseAt text (.within template k)).diagnostics,
      d.span.Lies template k (k + text.length)) ∧
    ∀ e ∈ (parseAt text (.within template k)).expr,
      e.everyNode (fun _ node => node.Nested template k (k + text.length)) .free := by
  refine ⟨fun d hd => ?_, fun t ht => ?_⟩
  · obtain ⟨start, stop, hle, hstop, hspan⟩ := covers_of_mem_parseAt hd
    exact hspan ▸ Placement.span_lies template k hle hstop
  unfold parseAt at ht
  split at ht
  · cases ht
  · next e s hrun =>
    obtain ⟨e, rfl, rfl⟩ := Option.map_eq_some_iff.mp ht
    have hle := (Parser.stays_whole (Parser.within_start _ text) _ _ s hrun).position_le
    have hsits : Sits (.within template k) 0 text.length e :=
      ((Parser.nests_whole _ _ _ s hrun).sits e rfl).mono (Nat.le_refl _) hle
    have hall : e.everyNode (fun _ node => Sits (.within template k) 0 text.length node) .free :=
      Expr.everyNode_of_hereditary (fun _ => Sits.children) hsits
    -- The texts and sites that are added in the end leave all spans as they are.
    have hkept (o : Origin) :
        ({ o with source := sourceText text k o.span } : Origin).span = o.span := rfl
    have hsources : (e.withSources text k).everyNode
        (fun _ node => node.Nested template k (k + text.length)) .free :=
      Expr.everyNode_mapOrigin (fun _ node hnode => hnode.nested.of_spans
        (node.span_mapOrigin hkept) (node.childSpans_mapOrigin hkept)) hall
    exact Expr.everyNode_numberSites (fun _ node n hnode => hnode.of_spans
      (node.span_numberSites n) (node.childSpans_numberSites n)) 0 hsources

end Stencil
