import Stencil.Parser
import Stencil.Proofs.Nodes

/-!
# Rules for what the parser does

Statements about a reading step, each with one rule for every way in which steps are put together.
`Across`: a relation holds between the states before and after the step; one such relation is that
problems are only added (`Grows`). `Leaves`: whatever the step gives and leaves in one state is as
stated. `Ensures`: whatever the step gives without a problem is as
stated. `Succeeds`: the step gives a result without a problem, which is as stated. A step that
reports a problem is of no account for what is ensured, as long as nothing after it takes the
problem back (`ensures_report`).
-/

namespace Stencil

/-! ## Cursors -/

namespace Cursor

@[simp] theorem rest_advance (c : Cursor) (n : Nat) : (c.advance n).rest = c.rest.drop n := rfl

@[simp] theorem position_advance (c : Cursor) (n : Nat) :
    (c.advance n).position = c.position + n := rfl

@[simp] theorem input_advance (c : Cursor) (n : Nat) : (c.advance n).input = c.input := rfl

theorem advance_advance (c : Cursor) (m n : Nat) : (c.advance m).advance n = c.advance (m + n) := by
  simp only [advance, List.drop_drop, Nat.add_assoc]

theorem rest_advance_length {c : Cursor} {cs tail : List Char} (h : c.rest = cs ++ tail) :
    (c.advance cs.length).rest = tail := by
  rw [rest_advance, h, List.drop_left]

/-- Skipping blanks is advancing past the blanks that there are. -/
theorem skipBlanks_eq {c : Cursor} {ws text : List Char} (hws : ∀ w ∈ ws, Text.isBlank w = true)
    (h : c.rest = ws ++ text) (htext : Text.trimStart text = text) :
    c.skipBlanks = c.advance ws.length := by
  have htake : c.rest.takeWhile Text.isBlank = ws := by
    rw [h, List.takeWhile_append_of_pos hws]
    have hnone : text.takeWhile Text.isBlank = [] := by
      have hsplit := List.takeWhile_append_dropWhile (p := Text.isBlank) (l := text)
      rw [show text.dropWhile Text.isBlank = text from htext] at hsplit
      exact List.append_left_eq_self.mp hsplit
    rw [hnone, List.append_nil]
  rw [skipBlanks, htake]

theorem length_pos {c : Cursor} {ch : Char} (h : c.current? = some ch) : 0 < c.rest.length := by
  obtain ⟨rest, hrest⟩ := List.head?_eq_some_iff.mp h
  rw [hrest]
  exact Nat.succ_pos _

/-- Past the characters before `d` there is `d`, if there is anything. -/
theorem head?_advance_takeWhile {c : Cursor} {d ch : Char}
    (h : (c.advance (c.rest.takeWhile (· != d)).length).rest.head? = some ch) : ch = d := by
  have hnot := List.head?_dropWhile_not (· != d) c.rest
  rw [← rest_advance_length (List.takeWhile_append_dropWhile (p := (· != d))).symm, h] at hnot
  simpa using hnot

@[simp] theorem rest_skipBlanks (c : Cursor) : c.skipBlanks.rest = Text.trimStart c.rest := by
  have hsplit := List.takeWhile_append_dropWhile (p := Text.isBlank) (l := c.rest)
  exact rest_advance_length hsplit.symm

end Cursor

namespace Parser

variable {α β : Type}

/-! ## Joining operands -/

/-- Whether stacks hold the same operators, and operands that differ in origins and sites only. -/
def AlikeStacks (x y : List Expr × List Operator) : Prop :=
  Expr.bareAll x.1 = Expr.bareAll y.1 ∧ x.2 = y.2

theorem reduce_cons {p : Nat} {op : Operator} (h : p ≤ op.precedence) (l r : Expr)
    (operands : List Expr) (ops : List Operator) :
    reduce p (r :: l :: operands) (op :: ops) = reduce p (join op l r :: operands) ops := by
  rw [reduce, if_neg (Nat.not_lt.mpr h)]

theorem reduce_stop {p : Nat} {operands : List Expr} {ops : List Operator}
    (h : ∀ op ∈ ops.head?, op.precedence < p) : reduce p operands ops = (operands, ops) := by
  unfold reduce
  split
  · next op more => rw [if_pos (h op rfl)]
  · rfl

theorem alikeStacks_reduce (p : Nat) {operands operands' : List Expr} {ops : List Operator}
    (h : Expr.bareAll operands = Expr.bareAll operands') :
    AlikeStacks (reduce p operands ops) (reduce p operands' ops) := by
  fun_induction reduce p operands ops generalizing operands' with
  | case1 r l operands op ops hlt =>
    rw [reduce_stop (by rintro x ⟨⟩; exact hlt)]
    exact ⟨h, rfl⟩
  | case2 r l operands op ops hge ih =>
    match operands', h with
    | [], h => cases h
    | [_], h => cases (List.cons.inj h).2
    | r' :: l' :: more, h =>
      obtain ⟨hr, hrest⟩ := List.cons.inj h
      obtain ⟨hl, hmore⟩ := List.cons.inj hrest
      rw [reduce_cons (Nat.not_lt.mp hge)]
      refine ih ?_
      simp only [Expr.bareAll, join, Expr.bare, hl, hr, hmore]
  -- Whether there are two operands and an operator depends on the lengths only.
  | case3 operands ops hno =>
    have hstop : reduce p operands' ops = (operands', ops) := by
      unfold reduce
      split
      · next r l more op ops =>
        match operands, h, hno with
        | [], h, _ => cases h
        | [_], h, _ => cases (List.cons.inj h).2
        | r :: l :: more', _, hno => exact absurd rfl (hno r l more' op ops rfl)
      · rfl
    rw [hstop]
    exact ⟨h, rfl⟩

/-! ## Relations that hold across steps -/

/-- Whether the relation holds between the states before and after the step. -/
def Across (R : ParserState → ParserState → Prop) (m : ParserM α) : Prop :=
  ∀ s a s', m s = some (a, s') → R s s'

/-- A relation that holds across every change that is ever made to the state, and then across
several changes. -/
structure Steady (R : ParserState → ParserState → Prop) : Prop where
  refl : ∀ s, R s s
  trans : ∀ {s t u}, R s t → R t u → R s u
  count : ∀ s n, R s { s with steps := s.steps + n }
  advance : ∀ s n, R s { s with cursor := s.cursor.advance n }
  report : ∀ s d, R s { s with diagnostics := s.diagnostics ++ [d] }
  openBracket : ∀ s b, R s { s with brackets := b :: s.brackets, opened := b :: s.opened }
  closeBracket : ∀ s, R s { s with
    brackets := s.brackets.tail
    closed := s.brackets.head?.toList.map (·, s.cursor.position - 1) ++ s.closed }
  dropBracket : ∀ s, R s { s with brackets := s.brackets.tail }
  giveUp : ∀ s, R s { s with gaveUp := true }

theorem exists_of_bind {m : ParserM α} {f : α → ParserM β} {s s' : ParserState} {b : β}
    (h : (m >>= f) s = some (b, s')) : ∃ a s₁, m s = some (a, s₁) ∧ f a s₁ = some (b, s') := by
  change (m s).bind (fun r => f r.1 r.2) = some (b, s') at h
  obtain ⟨⟨a, s₁⟩, hm, hf⟩ := Option.bind_eq_some_iff.mp h
  exact ⟨a, s₁, hm, hf⟩

theorem run_bind {m : ParserM α} {f : α → ParserM β} {s s₁ : ParserState} {a : α}
    (h : m s = some (a, s₁)) : (m >>= f) s = f a s₁ := by
  change (m s).bind (fun r => f r.1 r.2) = f a s₁
  rw [h]
  rfl

section Across

variable {R : ParserState → ParserState → Prop}

theorem across_failure : Across R (failure : ParserM α) := by
  rintro s a s' ⟨⟩

theorem across_modify {u : ParserState → ParserState} (h : ∀ s, R s (u s)) :
    Across R (modify u) := by
  rintro s a s' ⟨⟩
  exact h s

namespace Steady

variable (hR : Steady R)
include hR

theorem across_pure (a : α) : Across R (pure a) := by
  rintro s a s' ⟨⟩
  exact hR.refl s

theorem across_bind {m : ParserM α} {f : α → ParserM β} (hm : Across R m)
    (hf : ∀ a, Across R (f a)) : Across R (m >>= f) := by
  intro s b s' h
  obtain ⟨a, s₁, h₁, h₂⟩ := exists_of_bind h
  exact hR.trans (hm s a s₁ h₁) (hf a s₁ b s' h₂)

theorem across_get : Across R (get : ParserM ParserState) := by
  rintro s a s' ⟨⟩
  exact hR.refl _

theorem across_position : Across R position :=
  hR.across_bind hR.across_get fun _ => hR.across_pure _

theorem across_rest : Across R rest :=
  hR.across_bind hR.across_get fun _ => hR.across_pure _

theorem across_current? : Across R current? :=
  hR.across_bind hR.across_get fun _ => hR.across_pure _

theorem across_advance (n : Nat) : Across R (Parser.advance n) :=
  across_modify fun s => hR.advance s n

theorem across_skipBlanks : Across R skipBlanks :=
  across_modify fun s => hR.advance s _

theorem across_step : Across R step :=
  across_modify fun s => hR.count s 1

theorem across_arrowAhead : Across R arrowAhead :=
  hR.across_bind hR.across_rest fun _ =>
    hR.across_bind (across_modify fun s => hR.count s _) fun _ => hR.across_pure _

theorem across_openBracket (kind : BracketKind) (start : Nat) :
    Across R (Parser.openBracket kind start) :=
  across_modify fun s => hR.openBracket s _

theorem across_closeBracket : Across R Parser.closeBracket :=
  across_modify hR.closeBracket

theorem across_dropBracket : Across R Parser.dropBracket :=
  across_modify hR.dropBracket

variable (place : Placement)

theorem across_report (start stop : Nat) (fault : Fault) :
    Across R (Parser.report place start stop fault) :=
  across_modify fun s => hR.report s _

theorem across_reportHere (fault : Fault) : Across R (reportHere place fault) :=
  hR.across_bind hR.across_position fun _ => hR.across_report place _ _ _

theorem across_originFrom (start : Nat) : Across R (originFrom place start) :=
  hR.across_bind hR.across_position fun _ => hR.across_pure _

theorem across_placeholder (start : Nat) : Across R (placeholder place start) :=
  hR.across_bind (hR.across_originFrom place start) fun _ => hR.across_pure _

theorem across_giveUp : Across R (Parser.giveUp place) := by
  refine hR.across_bind hR.across_get fun s => ?_
  cases s.brackets with
  | nil => exact across_modify hR.giveUp
  | cons bracket _ =>
    refine hR.across_bind hR.across_dropBracket fun _ => ?_
    exact hR.across_bind (hR.across_report place _ _ _) fun _ => across_modify hR.giveUp

theorem across_readPath (t : Tokenizer) : Across R (readPath place t) := by
  refine hR.across_bind hR.across_step fun _ => hR.across_bind hR.across_rest fun text => ?_
  refine hR.across_bind (hR.across_advance _) fun _ => ?_
  cases (scanPath t text).fault with
  | none => exact hR.across_pure _
  | some fault =>
    refine hR.across_bind (hR.across_reportHere place fault) fun _ => ?_
    refine hR.across_bind (hR.across_advance 1) fun _ => hR.across_bind hR.across_rest fun _ => ?_
    exact hR.across_bind (hR.across_advance _) fun _ => hR.across_pure _

theorem across_readString (delimiter : Char) : Across R (readString place delimiter) := by
  refine hR.across_bind hR.across_step fun _ => hR.across_bind hR.across_position fun start => ?_
  refine hR.across_bind (hR.across_advance 1) fun _ => hR.across_bind hR.across_rest fun text => ?_
  refine hR.across_bind (hR.across_advance _) fun _ => ?_
  have hend := hR.across_bind (hR.across_originFrom place start) fun o =>
    hR.across_pure (Expr.string o delimiter (scanString delimiter text).fragments)
  cases (scanString delimiter text).closed with
  | true => exact hend
  | false =>
    exact hR.across_bind hR.across_position fun _ =>
      hR.across_bind (hR.across_report place _ _ _) fun _ => hend

theorem across_readArgumentName (kind : BracketKind) :
    Across R (readArgumentName place kind) := by
  refine hR.across_bind hR.across_step fun _ => hR.across_bind hR.across_position fun start => ?_
  refine hR.across_bind (hR.across_openBracket _ _) fun _ => ?_
  refine hR.across_bind (hR.across_advance 1) fun _ => hR.across_bind hR.across_rest fun text => ?_
  refine hR.across_bind (hR.across_advance _) fun _ => hR.across_bind hR.across_current? fun c => ?_
  cases c with
  | none => exact hR.across_bind (hR.across_giveUp place) fun _ => hR.across_pure _
  | some c =>
    refine hR.across_bind (hR.across_advance 1) fun _ => ?_
    refine hR.across_bind hR.across_closeBracket fun _ => ?_
    split
    · exact hR.across_pure _
    · exact hR.across_bind hR.across_position fun _ =>
        hR.across_bind (hR.across_report place _ _ _) fun _ => hR.across_pure _

end Steady

end Across

/-! ## Problems are only added -/

/-- Whether the step never takes back a problem. -/
def Grows (m : ParserM α) : Prop :=
  Across (fun s t => s.diagnostics.length ≤ t.diagnostics.length) m

theorem growing : Steady fun s t => s.diagnostics.length ≤ t.diagnostics.length where
  refl _ := Nat.le_refl _
  trans := Nat.le_trans
  count _ _ := Nat.le_refl _
  advance _ _ := Nat.le_refl _
  report _ _ := List.length_append ▸ Nat.le_add_right _ _
  openBracket _ _ := Nat.le_refl _
  closeBracket _ := Nat.le_refl _
  dropBracket _ := Nat.le_refl _
  giveUp _ := Nat.le_refl _

theorem grows_pure (a : α) : Grows (pure a) :=
  growing.across_pure a

theorem Grows.bind {m : ParserM α} {f : α → ParserM β} (hm : Grows m) (hf : ∀ a, Grows (f a)) :
    Grows (m >>= f) :=
  growing.across_bind hm hf

theorem grows_get : Grows (get : ParserM ParserState) :=
  growing.across_get

theorem grows_rest : Grows rest :=
  growing.across_rest

theorem grows_advance (n : Nat) : Grows (advance n) :=
  growing.across_advance n

variable (place : Placement)

theorem grows_report (start stop : Nat) (fault : Fault) : Grows (report place start stop fault) :=
  growing.across_report place start stop fault

theorem grows_originFrom (start : Nat) : Grows (originFrom place start) :=
  growing.across_originFrom place start

theorem grows_placeholder (start : Nat) : Grows (placeholder place start) :=
  growing.across_placeholder place start

theorem grows_readPath (t : Tokenizer) : Grows (readPath place t) :=
  growing.across_readPath place t

theorem grows_readString (delimiter : Char) : Grows (readString place delimiter) :=
  growing.across_readString place delimiter

theorem grows_readArgumentName (kind : BracketKind) : Grows (readArgumentName place kind) :=
  growing.across_readArgumentName place kind

/-! ## What a step leaves -/

/-- Whether every result of the step in this state is as `Q` says, and so is what is left then. -/
def Leaves (m : ParserM α) (s : ParserState) (Q : α → ParserState → Prop) : Prop :=
  ∀ a t, m s = some (a, t) → Q a t

section Leaves

variable {s : ParserState} {P : α → ParserState → Prop} {Q : β → ParserState → Prop}

theorem leaves_pure {a : α} (h : P a s) : Leaves (pure a) s P := by
  rintro _ _ ⟨⟩
  exact h

theorem leaves_failure : Leaves (failure : ParserM α) s P := by
  rintro _ _ ⟨⟩

theorem Leaves.bind {m : ParserM α} {f : α → ParserM β} (hm : Leaves m s P)
    (hf : ∀ a t, P a t → Leaves (f a) t Q) : Leaves (m >>= f) s Q := by
  intro b u h
  obtain ⟨a, t, hfirst, hsecond⟩ := exists_of_bind h
  exact hf a t (hm a t hfirst) b u hsecond

theorem Leaves.imp {m : ParserM α} {P' : α → ParserState → Prop} (hm : Leaves m s P)
    (h : ∀ a t, P a t → P' a t) : Leaves m s P' :=
  fun a t hrun => h a t (hm a t hrun)

theorem Leaves.and {m : ParserM α} {P' : α → ParserState → Prop} (hm : Leaves m s P)
    (hm' : Leaves m s P') : Leaves m s fun a t => P a t ∧ P' a t :=
  fun a t hrun => ⟨hm a t hrun, hm' a t hrun⟩

/-! Single steps have one result each, so what is left is that of what comes after them. -/

theorem leaves_get {f : ParserState → ParserM β} (h : Leaves (f s) s Q) :
    Leaves (get >>= f) s Q := h

theorem leaves_position {f : Nat → ParserM β} (h : Leaves (f s.cursor.position) s Q) :
    Leaves (position >>= f) s Q := h

theorem leaves_rest {f : List Char → ParserM β} (h : Leaves (f s.cursor.rest) s Q) :
    Leaves (rest >>= f) s Q := h

theorem leaves_current? {f : Option Char → ParserM β} (h : Leaves (f s.cursor.current?) s Q) :
    Leaves (current? >>= f) s Q := h

theorem leaves_originFrom {place : Placement} {start : Nat} {f : Origin → ParserM β}
    (h : Leaves (f ⟨place.span start s.cursor.position, none⟩) s Q) :
    Leaves (originFrom place start >>= f) s Q := h

theorem leaves_placeholder {place : Placement} {start : Nat} {f : Expr → ParserM β}
    (h : Leaves (f (.path ⟨place.span start s.cursor.position, none⟩ [])) s Q) :
    Leaves (placeholder place start >>= f) s Q := h

theorem leaves_step {f : Unit → ParserM β} (h : Leaves (f ()) { s with steps := s.steps + 1 } Q) :
    Leaves (step >>= f) s Q := h

theorem leaves_arrowAhead {f : Bool → ParserM β}
    (h : ∀ steps, Leaves (f (arrowFollows s.cursor.rest)) { s with steps } Q) :
    Leaves (arrowAhead >>= f) s Q := h _

theorem leaves_report {place : Placement} {start stop : Nat} {fault : Fault} {f : Unit → ParserM β}
    (h : Leaves (f ()) { s with
      diagnostics := s.diagnostics ++ [⟨place.span start (max start stop), fault⟩] } Q) :
    Leaves (report place start stop fault >>= f) s Q := h

theorem leaves_reportHere {place : Placement} {fault : Fault} {f : Unit → ParserM β}
    (h : Leaves (f ()) { s with diagnostics := s.diagnostics ++
      [⟨place.span s.cursor.position (max s.cursor.position (s.cursor.position + 1)), fault⟩] } Q) :
    Leaves (reportHere place fault >>= f) s Q := h

theorem leaves_advance {k : Nat} {f : Unit → ParserM β}
    (h : Leaves (f ()) { s with cursor := s.cursor.advance k } Q) :
    Leaves (advance k >>= f) s Q := h

theorem leaves_skipBlanks {f : Unit → ParserM β}
    (h : Leaves (f ()) { s with cursor := s.cursor.skipBlanks } Q) :
    Leaves (skipBlanks >>= f) s Q := h

theorem leaves_openBracket {kind : BracketKind} {start : Nat} {f : Unit → ParserM β}
    (h : Leaves (f ()) { s with
      brackets := ⟨kind, start⟩ :: s.brackets, opened := ⟨kind, start⟩ :: s.opened } Q) :
    Leaves (openBracket kind start >>= f) s Q := h

theorem leaves_closeBracket {f : Unit → ParserM β}
    (h : Leaves (f ()) { s with
      brackets := s.brackets.tail
      closed := s.brackets.head?.toList.map (·, s.cursor.position - 1) ++ s.closed } Q) :
    Leaves (closeBracket >>= f) s Q := h

end Leaves

/-! ## Steps that cannot fail -/

/-- The state is at the cursor, the brackets are open, and none was found to be never closed. -/
structure Sees (s : ParserState) (c : Cursor) (b : List OpenBracket) : Prop where
  cursor : s.cursor = c
  brackets : s.brackets = b
  going : s.gaveUp = false

/-- Whether the step has just this result and this effect, and reports nothing. -/
def Steps (m : ParserM α) (c : Cursor) (b : List OpenBracket) (a : α) (c' : Cursor)
    (b' : List OpenBracket) : Prop :=
  ∀ s, Sees s c b → ∃ s', m s = some (a, s') ∧ Sees s' c' b' ∧ s'.diagnostics = s.diagnostics

theorem Steps.bind {m : ParserM α} {f : α → ParserM β} {c c' c'' : Cursor}
    {b b' b'' : List OpenBracket} {a : α} {r : β} (hm : Steps m c b a c' b')
    (hf : Steps (f a) c' b' r c'' b'') : Steps (m >>= f) c b r c'' b'' := by
  intro s hs
  obtain ⟨s₁, h₁, hs₁, hsame₁⟩ := hm s hs
  obtain ⟨s₂, h₂, hs₂, hsame₂⟩ := hf s₁ hs₁
  exact ⟨s₂, by rw [run_bind h₁, h₂], hs₂, hsame₂.trans hsame₁⟩

section Primitive

variable (c : Cursor) (b : List OpenBracket)

theorem steps_pure (a : α) : Steps (pure a) c b a c b :=
  fun s hs => ⟨s, rfl, hs, rfl⟩

theorem steps_position : Steps position c b c.position c b :=
  fun s hs => ⟨s, by rw [← hs.cursor]; rfl, hs, rfl⟩

theorem steps_rest : Steps rest c b c.rest c b :=
  fun s hs => ⟨s, by rw [← hs.cursor]; rfl, hs, rfl⟩

theorem steps_current? : Steps current? c b c.rest.head? c b :=
  fun s hs => ⟨s, by rw [← hs.cursor]; rfl, hs, rfl⟩

theorem steps_advance (n : Nat) : Steps (advance n) c b () (c.advance n) b :=
  fun s hs => ⟨_, rfl, ⟨by rw [← hs.cursor], hs.brackets, hs.going⟩, rfl⟩

theorem steps_skipBlanks : Steps skipBlanks c b () c.skipBlanks b :=
  fun s hs => ⟨_, rfl, ⟨by rw [← hs.cursor], hs.brackets, hs.going⟩, rfl⟩

theorem steps_step : Steps step c b () c b :=
  fun _ hs => ⟨_, rfl, ⟨hs.cursor, hs.brackets, hs.going⟩, rfl⟩

theorem steps_arrowAhead : Steps arrowAhead c b (arrowFollows c.rest) c b := by
  rintro s ⟨rfl, hbrackets, hgoing⟩
  exact ⟨_, rfl, ⟨rfl, hbrackets, hgoing⟩, rfl⟩

theorem steps_openBracket (kind : BracketKind) (start : Nat) :
    Steps (openBracket kind start) c b () c (⟨kind, start⟩ :: b) :=
  fun s hs => ⟨_, rfl, ⟨hs.cursor, by rw [← hs.brackets], hs.going⟩, rfl⟩

theorem steps_closeBracket : Steps closeBracket c b () c b.tail :=
  fun s hs => ⟨_, rfl, ⟨hs.cursor, by rw [← hs.brackets], hs.going⟩, rfl⟩

theorem steps_originFrom (start : Nat) :
    Steps (originFrom place start) c b ⟨place.span start c.position, none⟩ c b :=
  fun s hs => ⟨s, by rw [← hs.cursor]; rfl, hs, rfl⟩

end Primitive

/-! ## What is ensured of a result without problems -/

/-- Whether all that the step gives without reporting a problem is as `Q` says. -/
def Ensures (m : ParserM α) (c : Cursor) (b : List OpenBracket)
    (Q : α → Cursor → List OpenBracket → Prop) : Prop :=
  ∀ s a s', Sees s c b → m s = some (a, s') → s'.diagnostics.length ≤ s.diagnostics.length →
    ∃ c' b', Sees s' c' b' ∧ Q a c' b'

section Ensures

variable {c c' : Cursor} {b b' : List OpenBracket} {P : α → Cursor → List OpenBracket → Prop}
  {Q : β → Cursor → List OpenBracket → Prop}

theorem ensures_pure {a : α} (h : P a c b) : Ensures (pure a) c b P := by
  rintro s a' s' hs ⟨⟩ -
  exact ⟨c, b, hs, h⟩

theorem ensures_failure : Ensures (failure : ParserM α) c b P := by
  rintro s a s' - ⟨⟩

theorem Ensures.bind {m : ParserM α} {f : α → ParserM β} (hm : Ensures m c b P) (hgrows : Grows m)
    (hf : ∀ a c' b', P a c' b' → Ensures (f a) c' b' Q) (hfgrows : ∀ a, Grows (f a)) :
    Ensures (m >>= f) c b Q := by
  intro s r s' hs h hclean
  obtain ⟨a, s₁, h₁, h₂⟩ := exists_of_bind h
  have hle₁ := hgrows s a s₁ h₁
  have hle₂ := hfgrows a s₁ r s' h₂
  obtain ⟨c₁, b₁, hs₁, ha⟩ := hm s a s₁ hs h₁ (by omega)
  exact hf a c₁ b₁ ha s₁ r s' hs₁ h₂ (by omega)

theorem Steps.ensures {m : ParserM α} {f : α → ParserM β} {a : α} (hm : Steps m c b a c' b')
    (hf : Ensures (f a) c' b' Q) : Ensures (m >>= f) c b Q := by
  intro s r s' hs h hclean
  obtain ⟨a', s₁, h₁, h₂⟩ := exists_of_bind h
  obtain ⟨s₂, h₁', hs₂, hsame⟩ := hm s hs
  obtain ⟨rfl, rfl⟩ := Prod.mk.inj (Option.some.inj (h₁'.symm.trans h₁))
  exact hf s₂ r s' hs₂ h₂ (by rw [hsame]; exact hclean)

/-- What is read of the state is what is seen of it. -/
theorem ensures_get {f : ParserState → ParserM β} (hf : ∀ s, Sees s c b → Ensures (f s) c b Q) :
    Ensures (get >>= f) c b Q := by
  intro s r s' hs h hclean
  exact hf s hs s r s' hs h hclean

/-- Nothing is ensured of what is read after a problem was reported. -/
theorem ensures_report {start stop : Nat} {fault : Fault} {f : Unit → ParserM β}
    (hf : Grows (f ())) : Ensures (report place start stop fault >>= f) c b Q := by
  intro s r s' hs h hclean
  obtain ⟨⟨⟩, s₁, h₁, h₂⟩ := exists_of_bind h
  have hle := hf s₁ r s' h₂
  cases h₁
  simp only [List.length_append, List.length_cons, List.length_nil] at hle
  omega

theorem ensures_reportHere {fault : Fault} {f : Unit → ParserM β} (hf : Grows (f ())) :
    Ensures (reportHere place fault >>= f) c b Q := by
  intro s r s' hs h hclean
  obtain ⟨⟨⟩, s₁, h₁, h₂⟩ := exists_of_bind h
  obtain ⟨p, s₂, h₃, h₄⟩ := exists_of_bind h₁
  have hle := hf s₁ r s' h₂
  cases h₃
  cases h₄
  simp only [List.length_append, List.length_cons, List.length_nil] at hle
  omega

/-- A bracket that is never closed is a problem. -/
theorem ensures_giveUp {f : Unit → ParserM β} (hb : b ≠ []) (hf : Grows (f ())) :
    Ensures (giveUp place >>= f) c b Q := by
  intro s r s' hs h hclean
  obtain ⟨⟨⟩, s₁, h₁, h₂⟩ := exists_of_bind h
  have hle := hf s₁ r s' h₂
  have hbrackets := hs.brackets
  cases b with
  | nil => exact absurd rfl hb
  | cons bracket more =>
    have hgrown : s₁.diagnostics.length = s.diagnostics.length + 1 := by
      unfold giveUp at h₁
      obtain ⟨s₂, s₃, hget, h₁⟩ := exists_of_bind h₁
      cases hget
      rw [hbrackets] at h₁
      cases h₁
      simp
    omega

/-- A weaker statement is ensured as well. -/
theorem Ensures.imp {m : ParserM α} {P' : α → Cursor → List OpenBracket → Prop}
    (hm : Ensures m c b P) (h : ∀ a c' b', P a c' b' → P' a c' b') : Ensures m c b P' := by
  intro s a s' hs hrun hclean
  obtain ⟨c₁, b₁, hs₁, ha⟩ := hm s a s' hs hrun hclean
  exact ⟨c₁, b₁, hs₁, h a c₁ b₁ ha⟩

end Ensures

/-! ## Success -/

/-- Whether the step gives a result without reporting a problem, and what it gives is as `Q`
says. -/
def Succeeds (m : ParserM α) (c : Cursor) (b : List OpenBracket)
    (Q : α → Cursor → List OpenBracket → Prop) : Prop :=
  ∀ s, Sees s c b → ∃ a s' c' b', m s = some (a, s') ∧ Sees s' c' b' ∧
    s'.diagnostics = s.diagnostics ∧ Q a c' b'

section Succeeds

variable {c c' : Cursor} {b b' : List OpenBracket} {P : α → Cursor → List OpenBracket → Prop}
  {Q : β → Cursor → List OpenBracket → Prop}

theorem succeeds_pure {a : α} (h : P a c b) : Succeeds (pure a) c b P :=
  fun s hs => ⟨a, s, c, b, rfl, hs, rfl, h⟩

theorem Succeeds.bind {m : ParserM α} {f : α → ParserM β} (hm : Succeeds m c b P)
    (hf : ∀ a c' b', P a c' b' → Succeeds (f a) c' b' Q) : Succeeds (m >>= f) c b Q := by
  intro s hs
  obtain ⟨a, s₁, c₁, b₁, h₁, hs₁, hsame₁, ha⟩ := hm s hs
  obtain ⟨r, s₂, c₂, b₂, h₂, hs₂, hsame₂, hr⟩ := hf a c₁ b₁ ha s₁ hs₁
  exact ⟨r, s₂, c₂, b₂, by rw [run_bind h₁, h₂], hs₂, hsame₂.trans hsame₁, hr⟩

theorem Steps.succeeds {m : ParserM α} {f : α → ParserM β} {a : α} (hm : Steps m c b a c' b')
    (hf : Succeeds (f a) c' b' Q) : Succeeds (m >>= f) c b Q := by
  intro s hs
  obtain ⟨s₁, h₁, hs₁, hsame₁⟩ := hm s hs
  obtain ⟨r, s₂, c₂, b₂, h₂, hs₂, hsame₂, hr⟩ := hf s₁ hs₁
  exact ⟨r, s₂, c₂, b₂, by rw [run_bind h₁, h₂], hs₂, hsame₂.trans hsame₁, hr⟩

theorem succeeds_get {f : ParserState → ParserM β} (hf : ∀ s, Sees s c b → Succeeds (f s) c b Q) :
    Succeeds (get >>= f) c b Q :=
  fun s hs => hf s hs s hs

theorem Succeeds.imp {m : ParserM α} {P' : α → Cursor → List OpenBracket → Prop}
    (hm : Succeeds m c b P) (h : ∀ a c' b', P a c' b' → P' a c' b') : Succeeds m c b P' := by
  intro s hs
  obtain ⟨a, s', c', b', hrun, hs', hsame, ha⟩ := hm s hs
  exact ⟨a, s', c', b', hrun, hs', hsame, h a c' b' ha⟩

end Succeeds

end Parser

end Stencil
