import Stencil.Proofs.ProblemSpans
import Stencil.Proofs.RoundTrip

/-!
# How long reading takes

Reading counts its steps: the calls of reading functions and the turns of their loops. Several of
them return without having read anything, so no single step brings the end of the text nearer. What
does is a budget: ten steps for every character that is left pay for all that is done until the
text is read. A bracket, an operator and a dot cost more steps than they are characters, and their
own ten pay for what comes after them.

Only one loop looks at characters and does not pass them: the one that looks for an arrow past
blanks. Whatever is read next passes these blanks, so they can be owed (`Cursor.blanks` on the left
in `Spends` are paid for, on the right are owed).

The same budget bounds the depth of the calls, so it is an amount of fuel that never runs out. Main
statement: `reading_bounded`.
-/

namespace Stencil

namespace Cursor

/-- Number of blanks that come next. -/
def blanks (c : Cursor) : Nat :=
  (c.rest.takeWhile Text.isBlank).length

theorem blanks_le (c : Cursor) : c.blanks ≤ c.rest.length :=
  (List.takeWhile_prefix _).length_le

theorem blanks_eq_zero {c : Cursor} {ch : Char} (h : c.rest.head? = some ch)
    (hch : Text.isBlank ch = false) : c.blanks = 0 := by
  obtain ⟨rest, hrest⟩ := List.head?_eq_some_iff.mp h
  rw [blanks, hrest, List.takeWhile_cons_of_neg (by rw [hch]; exact Bool.false_ne_true)]
  rfl

theorem length_advance {c : Cursor} {k : Nat} (hk : k ≤ c.rest.length) :
    (c.advance k).rest.length + k = c.rest.length := by
  rw [rest_advance, List.length_drop]
  omega

end Cursor

namespace Parser

variable {α β : Type} {c c₁ c₂ : Cursor} {n n₁ n₂ : Nat}

/-! ## Budgets -/

/-- From a cursor where `n` steps were taken, reading came to one where `n'` were: the cursor is at
the same place or further on, not past the end, and the steps between took no more than ten for each
character that was passed and `k` others, with `j` steps left over. -/
structure Spends (j k : Nat) (c : Cursor) (n : Nat) (c' : Cursor) (n' : Nat) : Prop where
  whole : c'.position + c'.rest.length = c.position + c.rest.length
  onward : c.position ≤ c'.position
  steps : n ≤ n'
  cost : n' + 10 * c'.rest.length + j ≤ n + 10 * c.rest.length + k

theorem Spends.trans {i j k l : Nat} (h : Spends i j c n c₁ n₁) (h' : Spends k l c₁ n₁ c₂ n₂) :
    Spends (i + k) (j + l) c n c₂ n₂ where
  whole := h'.whole.trans h.whole
  onward := Nat.le_trans h.onward h'.onward
  steps := Nat.le_trans h.steps h'.steps
  cost := by
    have hcost := h.cost
    have hcost' := h'.cost
    omega

theorem Spends.mono {i j k l : Nat} (h : Spends i j c n c₁ n₁) (hle : k + j ≤ i + l) :
    Spends k l c n c₁ n₁ := by
  refine ⟨h.whole, h.onward, h.steps, ?_⟩
  have hcost := h.cost
  omega

theorem Spends.left {j k : Nat} (h : Spends j k c n c₁ n₁) : c₁.rest.length ≤ c.rest.length := by
  have hwhole := h.whole
  have honward := h.onward
  omega

/-- What pays for steps is characters that were passed. -/
theorem Spends.left_lt {j k : Nat} (h : Spends j k c n c₁ n₁) (hlt : k < j) :
    c₁.rest.length < c.rest.length := by
  have hsteps := h.steps
  have hcost := h.cost
  omega

/-- Steps that move nothing. -/
theorem spends_count (c : Cursor) (n k : Nat) : Spends 0 k c n c (n + k) :=
  ⟨rfl, Nat.le_refl _, Nat.le_add_right _ _, by omega⟩

/-- Characters that are passed pay for steps. -/
theorem spends_advance (n : Nat) {k : Nat} (hk : k ≤ c.rest.length) :
    Spends (10 * k) 0 c n (c.advance k) n := by
  have hlength := Cursor.length_advance hk
  refine ⟨?_, Nat.le_add_right _ _, Nat.le_refl _, by omega⟩
  rw [Cursor.position_advance]
  omega

theorem spends_skipBlanks (c : Cursor) (n : Nat) : Spends (10 * c.blanks) 0 c n c.skipBlanks n :=
  spends_advance n c.blanks_le

/-! ## Steps that end -/

/-- Whether the step gives a result wherever the cursor is at `c` and `n` steps were taken, and the
result is as `Q` says. -/
def Ends (m : ParserM α) (c : Cursor) (n : Nat) (Q : α → Cursor → Nat → Prop) : Prop :=
  ∀ s : ParserState, s.cursor = c → s.steps = n →
    ∃ a t, m s = some (a, t) ∧ Q a t.cursor t.steps

section Ends

variable {P : α → Cursor → Nat → Prop} {Q : β → Cursor → Nat → Prop} {f : Unit → ParserM β}

theorem ends_pure {a : α} (h : P a c n) : Ends (pure a) c n P := by
  rintro s rfl rfl
  exact ⟨a, s, rfl, h⟩

theorem Ends.bind {m : ParserM α} {f : α → ParserM β} (hm : Ends m c n P)
    (hf : ∀ a c' n', P a c' n' → Ends (f a) c' n' Q) : Ends (m >>= f) c n Q := by
  intro s hc hn
  obtain ⟨a, t, hrun, ha⟩ := hm s hc hn
  obtain ⟨b, u, hrun', hb⟩ := hf a _ _ ha t rfl rfl
  exact ⟨b, u, (run_bind hrun).trans hrun', hb⟩

theorem Ends.imp {m : ParserM α} {P' : α → Cursor → Nat → Prop} (hm : Ends m c n P)
    (h : ∀ a c' n', P a c' n' → P' a c' n') : Ends m c n P' := by
  intro s hc hn
  obtain ⟨a, t, hrun, ha⟩ := hm s hc hn
  exact ⟨a, t, hrun, h a _ _ ha⟩

theorem ends_get {f : ParserState → ParserM β} (hf : ∀ s, Ends (f s) c n Q) :
    Ends (get >>= f) c n Q :=
  fun s hc hn => hf s s hc hn

theorem ends_position {f : Nat → ParserM β} (hf : Ends (f c.position) c n Q) :
    Ends (position >>= f) c n Q := by
  rintro s rfl rfl
  exact hf s rfl rfl

theorem ends_rest {f : List Char → ParserM β} (hf : Ends (f c.rest) c n Q) :
    Ends (rest >>= f) c n Q := by
  rintro s rfl rfl
  exact hf s rfl rfl

theorem ends_current? {f : Option Char → ParserM β} (hf : Ends (f c.rest.head?) c n Q) :
    Ends (current? >>= f) c n Q := by
  rintro s rfl rfl
  exact hf s rfl rfl

theorem ends_step (hf : Ends (f ()) c (n + 1) Q) : Ends (step >>= f) c n Q := by
  rintro s rfl rfl
  exact hf _ rfl rfl

theorem ends_arrowAhead {f : Bool → ParserM β}
    (hf : Ends (f (arrowFollows c.rest)) c (n + c.blanks) Q) : Ends (arrowAhead >>= f) c n Q := by
  rintro s rfl rfl
  exact hf _ rfl rfl

theorem ends_advance {k : Nat} (hf : Ends (f ()) (c.advance k) n Q) :
    Ends (advance k >>= f) c n Q := by
  rintro s rfl rfl
  exact hf _ rfl rfl

theorem ends_skipBlanks (hf : Ends (f ()) c.skipBlanks n Q) : Ends (skipBlanks >>= f) c n Q := by
  rintro s rfl rfl
  exact hf _ rfl rfl

/-! These steps neither move the cursor nor count. -/

theorem ends_openBracket {kind : BracketKind} {start : Nat} (hf : Ends (f ()) c n Q) :
    Ends (openBracket kind start >>= f) c n Q :=
  fun _ hc hn => hf _ hc hn

theorem ends_closeBracket (hf : Ends (f ()) c n Q) : Ends (closeBracket >>= f) c n Q :=
  fun _ hc hn => hf _ hc hn

theorem ends_dropBracket (hf : Ends (f ()) c n Q) : Ends (dropBracket >>= f) c n Q :=
  fun _ hc hn => hf _ hc hn

variable {place : Placement}

theorem ends_report {start stop : Nat} {fault : Fault} (hf : Ends (f ()) c n Q) :
    Ends (report place start stop fault >>= f) c n Q :=
  fun _ hc hn => hf _ hc hn

theorem ends_reportHere {fault : Fault} (hf : Ends (f ()) c n Q) :
    Ends (reportHere place fault >>= f) c n Q :=
  fun _ hc hn => hf _ hc hn

theorem ends_originFrom {f : Origin → ParserM β} {start : Nat} (hf : ∀ o, Ends (f o) c n Q) :
    Ends (originFrom place start >>= f) c n Q :=
  fun s hc hn => hf _ s hc hn

theorem ends_placeholder {f : Expr → ParserM β} {start : Nat} (hf : ∀ e, Ends (f e) c n Q) :
    Ends (placeholder place start >>= f) c n Q :=
  fun s hc hn => hf _ s hc hn

theorem ends_giveUp {Q : Unit → Cursor → Nat → Prop} (h : Q () c n) :
    Ends (giveUp place) c n Q := by
  have hend : Ends (modify fun s => { s with gaveUp := true }) c n Q := by
    rintro s rfl rfl
    exact ⟨(), _, rfl, h⟩
  refine ends_get fun s => ?_
  cases s.brackets with
  | nil => exact hend
  | cons bracket _ => exact ends_dropBracket (ends_report hend)

end Ends

/-! ## Names and literals -/

section Readers

variable {place : Placement}

/-- A path may be empty, but one that is given up is not. -/
theorem ends_readPath (t : Tokenizer) : Ends (readPath place t) c n fun path c' n' =>
    match path with
    | some _ => Spends 0 1 c n c' n'
    | none => Spends 9 0 c n c' n' := by
  refine ends_step (ends_rest ?_)
  obtain ⟨hread, hfault⟩ := read_scanPath t c.rest
  dsimp only
  generalize scanPath t c.rest = scan at hread hfault
  have hscan := (spends_count c n 1).trans (spends_advance _ hread)
  refine ends_advance ?_
  cases hfaults : scan.fault with
  | none => exact ends_pure (hscan.mono (by omega))
  | some fault =>
    -- The character that was refused is still there.
    have hlength := Cursor.length_advance hread
    have hlt := hfault (by rw [hfaults]; rfl)
    have hone : 1 ≤ (c.advance scan.read).rest.length := by omega
    refine ends_reportHere (ends_advance (ends_rest (ends_advance (ends_pure ?_))))
    have hskip := spends_advance (c := (c.advance scan.read).advance 1) (n + 1) (skipPath_le _)
    exact (hscan.trans ((spends_advance _ hone).trans hskip)).mono (by omega)

theorem ends_readString (h : 0 < c.rest.length) (delimiter : Char) :
    Ends (readString place delimiter) c n fun _ c' n' => Spends 9 0 c n c' n' := by
  refine ends_step (ends_position (ends_advance (ends_rest ?_)))
  have hopen := (spends_count c n 1).trans (spends_advance _ h)
  have hread := read_scanString delimiter (c.advance 1).rest
  dsimp only
  generalize scanString delimiter (c.advance 1).rest = scan at hread
  refine ends_advance ?_
  have hclosed : Spends 9 0 c n ((c.advance 1).advance scan.read) (n + 1) :=
    (hopen.trans (spends_advance _ hread)).mono (by omega)
  have hend : Ends (do
      let origin ← originFrom place c.position
      return Expr.string origin delimiter scan.fragments) ((c.advance 1).advance scan.read) (n + 1)
      fun _ c' n' => Spends 9 0 c n c' n' :=
    ends_originFrom fun _ => ends_pure hclosed
  cases scan.closed with
  | true => exact hend
  | false => exact ends_position (ends_report hend)

theorem ends_readArgumentName (h : 0 < c.rest.length) (kind : BracketKind) :
    Ends (readArgumentName place kind) c n fun _ c' n' => Spends 9 0 c n c' n' := by
  refine ends_step (ends_position (ends_openBracket (ends_advance (ends_rest ?_))))
  have hopen := (spends_count c n 1).trans (spends_advance _ h)
  have hread : ((c.advance 1).rest.takeWhile (· != ']')).length ≤ (c.advance 1).rest.length :=
    (List.takeWhile_prefix _).length_le
  dsimp only
  generalize (c.advance 1).rest.takeWhile (· != ']') = name at hread
  have hname := hopen.trans (spends_advance (n + 1) hread)
  refine ends_advance (ends_current? ?_)
  cases hcurrent : ((c.advance 1).advance name.length).rest.head? with
  | none => exact (ends_giveUp (hname.mono (by omega))).bind fun _ _ _ h => ends_pure h
  | some ch =>
    have hclosed : Spends 9 0 c n _ (n + 1) :=
      (hname.trans (spends_advance _ (Cursor.length_pos hcurrent))).mono (by omega)
    refine ends_advance (ends_closeBracket ?_)
    split
    · exact ends_pure hclosed
    · exact ends_position (ends_report (ends_pure hclosed))

end Readers

/-! ## The reading functions -/

theorem length_skipBlanks_of_arrow (h : arrowFollows c.rest = true) :
    2 ≤ c.skipBlanks.rest.length := by
  rw [Cursor.rest_skipBlanks]
  exact two_le_of_arrow h

/-- The step ends, and pays for all but `k` of its steps. -/
abbrev Pays (m : ParserM α) (c : Cursor) (n k : Nat) : Prop :=
  Ends m c n fun _ c' n' => Spends 0 k c n c' n'

/-- The step ends, and pays for all but `k` of its steps and those that looked past the blanks that
come next now. It has paid for `j` steps that came before it as well. -/
abbrev Owes (m : ParserM α) (c : Cursor) (n j k : Nat) : Prop :=
  Ends m c n fun _ c' n' => Spends j (k + c'.blanks) c n c' n'

/-- What is claimed of all reading functions for one amount of fuel. Those that an arrow may have
been looked for before pay for that. -/
structure ReadingEnds (place : Placement) (fuel : Nat) : Prop where
  expression : ∀ c n, 10 * c.rest.length + 5 ≤ fuel → Owes (expression place fuel) c n 0 5
  operators : ∀ c n operands ops, 10 * c.rest.length + 1 ≤ fuel →
    Owes (operators place fuel operands ops) c n c.blanks 1
  operand : ∀ c n, 10 * c.rest.length + 3 ≤ fuel → Owes (operand place fuel) c n 0 3
  pathOperand : ∀ c n start, 10 * c.rest.length + 2 ≤ fuel →
    Owes (pathOperand place fuel start) c n 0 2
  skipCall : ∀ c n, 10 * c.rest.length + 1 ≤ fuel → Pays (skipCall place fuel) c n 1
  call : ∀ c n t start, 0 < c.rest.length → 10 * c.rest.length ≤ fuel →
    Owes (call place fuel t start) c n 0 0
  chain : ∀ c n first start, 10 * c.rest.length + 2 ≤ fuel →
    Owes (chain place fuel first start) c n c.blanks 2
  links : ∀ c n, 10 * c.rest.length + 1 ≤ fuel → Owes (links place fuel) c n c.blanks 1
  group : ∀ c n, 0 < c.rest.length → 10 * c.rest.length ≤ fuel → Owes (group place fuel) c n 0 0
  lambda : ∀ c n parameters start, arrowFollows c.rest = true → 10 * c.rest.length ≤ fuel →
    Owes (lambda place fuel parameters start) c n c.blanks 0
  arguments : ∀ c n kind start, 10 * c.rest.length + 7 ≤ fuel →
    Pays (arguments place fuel kind start) c n 7
  argumentList : ∀ c n kind, 10 * c.rest.length + 6 ≤ fuel →
    Pays (argumentList place fuel kind) c n 6

section Reading

variable {place : Placement}

section Ending

/-! What these do ends as soon as it begins. -/

variable {Q : Cursor → Nat → Prop} (h : Q c n)
include h

theorem ends_somePlaceholder (start : Nat) :
    Ends (do return some (← placeholder place start)) c n fun _ => Q :=
  ends_placeholder fun _ => ends_pure h

theorem ends_onlyPlaceholder (start : Nat) :
    Ends (do return [← placeholder place start]) c n fun _ => Q :=
  ends_placeholder fun _ => ends_pure h

theorem ends_afterNot (start : Nat) (e : Option Expr) :
    Ends (afterNot place start e) c n fun _ => Q := by
  cases e with
  | none => exact ends_pure h
  | some e => exact ends_originFrom fun _ => ends_pure h

theorem ends_afterMinus (start : Nat) (e : Option Expr) :
    Ends (afterMinus place start e) c n fun _ => Q := by
  unfold afterMinus
  split
  · exact ends_pure h
  · exact ends_originFrom fun _ => ends_pure h
  · exact ends_report (ends_pure h)

theorem ends_afterBody (parameters : Expr) (start : Nat) (body : Option Expr) :
    Ends (afterBody place parameters start body) c n fun _ => Q := by
  cases body with
  | none => exact ends_pure h
  | some body => exact ends_originFrom fun _ => ends_pure h

end Ending

namespace ReadingEnds

variable {fuel : Nat} (ih : ReadingEnds place fuel)
include ih

theorem expression_succ (h : 10 * c.rest.length + 5 ≤ fuel + 1) :
    Owes (Parser.expression place (fuel + 1)) c n 0 5 := by
  rw [Parser.expression]
  refine ends_step ((ih.operand c _ (by omega)).bind fun first c₁ n₁ hfirst => ?_)
  have hfirst := (spends_count c n 1).trans hfirst
  cases first with
  | none => exact ends_pure (hfirst.mono (by omega))
  | some first =>
    have hleft := hfirst.left
    refine (ih.operators c₁ n₁ _ _ (by omega)).bind fun _ c₂ n₂ hops => ends_pure ?_
    exact (hfirst.trans hops).mono (by omega)

theorem operators_succ (operands : List Expr) (ops : List Operator)
    (h : 10 * c.rest.length + 1 ≤ fuel + 1) :
    Owes (Parser.operators place (fuel + 1) operands ops) c n c.blanks 1 := by
  rw [Parser.operators]
  refine ends_step (ends_skipBlanks ?_)
  have hskip := (spends_count c n 1).trans (spends_skipBlanks c (n + 1))
  generalize c.skipBlanks = c₁ at hskip
  have hleft₁ := hskip.left
  refine ends_current? ?_
  have hstop : Spends c.blanks (1 + c₁.blanks) c n c₁ (n + 1) := hskip.mono (by omega)
  cases hcurrent : c₁.rest.head? with
  | none => exact ends_pure hstop
  | some ch =>
    have hpos := Cursor.length_pos hcurrent
    -- What is passed pays for another turn.
    have hagain {c₂ : Cursor} {n₂ : Nat} (hpassed : Spends 1 0 c₁ (n + 1) c₂ n₂) :
        Ends (Parser.operators place fuel operands ops) c₂ n₂ fun _ c' n' =>
          Spends c.blanks (1 + c'.blanks) c n c' n' := by
      have hlt := hpassed.left_lt Nat.one_pos
      refine (ih.operators c₂ n₂ operands ops (by omega)).imp fun _ c₃ n₃ hrest => ?_
      exact (hskip.trans (hpassed.trans hrest)).mono (by omega)
    have hskipped := hagain ((spends_advance (k := 1) _ hpos).mono (by omega))
    refine ends_get fun s => ?_
    dsimp only
    split
    · exact ends_pure hstop
    split
    · exact ends_reportHere (ends_advance hskipped)
    split
    · exact ends_reportHere (ends_advance hskipped)
    split
    · refine ends_reportHere ((ends_readString hpos ch).bind fun _ c₂ n₂ hstring => ?_)
      exact hagain (hstring.mono (by omega))
    refine ends_rest ?_
    split
    · next harrow =>
      refine ends_position (ends_advance (ends_report (hagain ?_)))
      exact (spends_advance _ (two_le_of_arrow harrow)).mono (by omega)
    refine ends_rest ?_
    split
    · exact ends_reportHere (ends_advance hskipped)
    · next op hop =>
      -- The operator pays for its turn, for that in which it is joined, and for its operand.
      have hwidth := op.width_pos
      have hop := (spends_advance (n + 1) (width_le_of_atStart? hop)).trans (spends_count _ _ 1)
      have hlt := hop.left_lt (by omega)
      refine ends_advance (ends_step ?_)
      refine (ih.operand _ _ (by omega)).bind fun right c₂ n₂ hright => ?_
      cases right with
      | none => exact ends_pure ((hskip.trans (hop.trans hright)).mono (by omega))
      | some right =>
        have hleft := hright.left
        refine (ih.operators c₂ n₂ _ _ (by omega)).imp fun _ c₃ n₃ hrest => ?_
        exact (hskip.trans (hop.trans (hright.trans hrest))).mono (by omega)

theorem operandAt_ends {ch : Char} (hcurrent : c.rest.head? = some ch)
    (h : 10 * c.rest.length + 2 ≤ fuel) (start : Nat) (next : Option Char) :
    Owes (operandAt place fuel start ch next) c n 0 2 := by
  have hpos := Cursor.length_pos hcurrent
  have hone := spends_advance (k := 1) n hpos
  have hlt := hone.left_lt (by omega)
  unfold operandAt
  split
  · refine (ends_readString hpos ch).bind fun literal c₁ n₁ hliteral => ?_
    have hleft := hliteral.left
    refine (ih.chain c₁ n₁ literal start (by omega)).imp fun _ c₂ n₂ hchain => ?_
    exact (hliteral.trans hchain).mono (by omega)
  split
  · exact (ih.group c n hpos (by omega)).imp fun _ _ _ hgroup => hgroup.mono (by omega)
  split
  · refine ends_advance ((ih.operand _ n (by omega)).bind fun e c₁ n₁ he => ?_)
    refine ends_afterNot ?_ start e
    exact (hone.trans he).mono (by omega)
  split
  · refine ends_advance ((ih.operand _ n (by omega)).bind fun e c₁ n₁ he => ?_)
    refine ends_afterMinus ?_ start e
    exact (hone.trans he).mono (by omega)
  split
  · exact ends_reportHere (ends_pure ((spends_count c n 0).mono (by omega)))
  split
  · exact ends_reportHere (ends_advance (ends_pure (hone.mono (by omega))))
  refine ends_rest ?_
  split
  · next op hop =>
    have hwidth := op.width_pos
    have hop := spends_advance n (width_le_of_atStart? hop)
    have hlt := hop.left_lt (by omega)
    refine ends_report (ends_advance ((ih.operand _ n (by omega)).imp fun e c₁ n₁ he => ?_))
    exact (hop.trans he).mono (by omega)
  · exact ih.pathOperand c n start h

theorem operand_succ (h : 10 * c.rest.length + 3 ≤ fuel + 1) :
    Owes (Parser.operand place (fuel + 1)) c n 0 3 := by
  rw [operand_eq]
  refine ends_step (ends_skipBlanks ?_)
  have hskip := (spends_count c n 1).trans (spends_skipBlanks c (n + 1))
  generalize c.skipBlanks = c₁ at hskip
  have hleft := hskip.left
  refine ends_position (ends_current? ?_)
  cases hcurrent : c₁.rest.head? with
  | none => exact ends_report (ends_pure (hskip.mono (by omega)))
  | some ch =>
    refine ends_get fun s => (ih.operandAt_ends hcurrent (by omega) _ _).imp fun _ c₂ n₂ he => ?_
    exact (hskip.trans he).mono (by omega)

theorem skipCall_succ (h : 10 * c.rest.length + 1 ≤ fuel + 1) :
    Pays (Parser.skipCall place (fuel + 1)) c n 1 := by
  rw [Parser.skipCall]
  refine ends_step (ends_current? ?_)
  split
  · next hbracket =>
    have hone := (spends_count c n 1).trans
      (spends_advance (k := 1) (n + 1) (Cursor.length_pos (eq_of_beq hbracket)))
    have hlt := hone.left_lt (by omega)
    refine ends_position (ends_advance ((ih.arguments _ _ _ _ (by omega)).bind ?_))
    exact fun _ c₁ n₁ hargs => ends_pure ((hone.trans hargs).mono (by omega))
  · exact ends_pure (spends_count c n 1)

/-- The arguments of a call are read after their bracket, which has paid for them. -/
theorem bracket_ends (hpos : 0 < c.rest.length) (h : 10 * c.rest.length ≤ fuel + 3)
    (kind : BracketKind) (start : Nat) :
    Ends (Parser.arguments place fuel kind start) (c.advance 1) n fun _ c' n' =>
      Spends 3 0 c n c' n' := by
  have hone := spends_advance (k := 1) n hpos
  have hlt := hone.left_lt (by omega)
  refine (ih.arguments _ n kind start (by omega)).imp fun _ c₁ n₁ hargs => ?_
  exact (hone.trans hargs).mono (by omega)

theorem call_succ (hpos : 0 < c.rest.length) (t : Tokenizer) (start : Nat)
    (h : 10 * c.rest.length ≤ fuel + 1) : Owes (Parser.call place (fuel + 1) t start) c n 0 0 := by
  rw [Parser.call]
  refine ends_step (ends_position (ends_advance ?_))
  refine (ih.bracket_ends hpos (by omega) _ _).bind fun args c₁ n₁ hargs => ?_
  have hlt := hargs.left_lt (by omega)
  have hargs := (spends_count c n 1).trans hargs
  split
  · refine ends_originFrom fun o => (ih.chain c₁ n₁ _ start (by omega)).imp fun _ c₂ n₂ hchain => ?_
    exact (hargs.trans hchain).mono (by omega)
  · refine ends_report (ends_somePlaceholder ?_ start)
    exact hargs.mono (by omega)

theorem chain_succ (first : Expr) (start : Nat) (h : 10 * c.rest.length + 2 ≤ fuel + 1) :
    Owes (Parser.chain place (fuel + 1) first start) c n c.blanks 2 := by
  rw [Parser.chain]
  refine ends_step ((ih.links c _ (by omega)).bind fun links c₁ n₁ hlinks => ?_)
  have hlinks : Spends c.blanks (2 + c₁.blanks) c n c₁ n₁ :=
    ((spends_count c n 1).trans hlinks).mono (by omega)
  cases links with
  | nil => exact ends_pure hlinks
  | cons _ _ => exact ends_originFrom fun _ => ends_pure hlinks

/-- What a link is allowed depends on what its path has paid for: the dot before it has. -/
theorem afterLink_ends (start : Nat) (path : Option Tokenizer) (h : 10 * c.rest.length + 1 ≤ fuel) :
    Owes (afterLink place fuel start path) c n 0 1 := by
  cases path with
  | none =>
    refine (ih.skipCall c n h).bind fun _ c₁ n₁ hskip => ?_
    refine ends_onlyPlaceholder ?_ start
    exact hskip.mono (by omega)
  | some t =>
    refine ends_current? ?_
    have hnone : Spends 0 (1 + c.blanks) c n c n := (spends_count c n 0).mono (by omega)
    split
    · next hbracket =>
      refine ends_position (ends_advance ?_)
      refine (ih.bracket_ends (Cursor.length_pos (eq_of_beq hbracket)) (by omega) _ _).bind
        fun args c₁ n₁ hargs => ?_
      have hleft := hargs.left
      split
      · refine ends_originFrom fun o => (ih.links c₁ n₁ (by omega)).bind fun _ c₂ n₂ hlinks => ?_
        exact ends_pure ((hargs.trans hlinks).mono (by omega))
      · refine ends_report (ends_onlyPlaceholder ?_ start)
        exact hargs.mono (by omega)
    split
    · exact ends_report (ends_pure hnone)
    split
    · exact ends_originFrom fun _ => ends_pure hnone
    · refine ends_position (ends_report (ends_onlyPlaceholder ?_ start))
      exact hnone

theorem links_succ (h : 10 * c.rest.length + 1 ≤ fuel + 1) :
    Owes (Parser.links place (fuel + 1)) c n c.blanks 1 := by
  rw [links_eq]
  refine ends_step (ends_current? ?_)
  split
  · exact ends_pure ((spends_count c n 1).mono (by omega))
  · next hdot =>
    have hdot : c.rest.head? = some '.' := by simpa using hdot
    have hone := (spends_count c n 1).trans
      (spends_advance (k := 1) (n + 1) (Cursor.length_pos hdot))
    have hlt := hone.left_lt (by omega)
    have hblanks := Cursor.blanks_eq_zero hdot (by decide)
    refine ends_advance (ends_position ((ends_readPath _).bind fun path c₁ n₁ hpath => ?_))
    have hpath : Spends 0 1 (c.advance 1) (n + 1) c₁ n₁ := by
      cases path with
      | none => exact hpath.mono (by omega)
      | some t => exact hpath
    have hleft := hpath.left
    refine (ih.afterLink_ends _ path (by omega)).imp fun _ c₂ n₂ hlink => ?_
    exact (hone.trans (hpath.trans hlink)).mono (by omega)

/-- Where no path was given up, looking for an arrow is all that is not paid for. -/
theorem afterPath_ends {t : Tokenizer} (start : Nat) (h : 10 * c.rest.length ≤ fuel) :
    Owes (afterPath place fuel start (some t)) c n 0 0 := by
  have hnone : Spends 0 (0 + c.blanks) c n c n := (spends_count c n 0).mono (by omega)
  refine ends_current? ?_
  split
  · next hbracket => exact ih.call c n t start (Cursor.length_pos (eq_of_beq hbracket)) h
  split
  · refine ends_position (ends_report (ends_somePlaceholder ?_ start))
    exact hnone
  · refine ends_originFrom fun o => ?_
    split
    · dsimp only
      split <;> exact ends_pure hnone
    · refine ends_arrowAhead ?_
      have hlooked := spends_count c n c.blanks
      split
      · next harrow =>
        refine (ih.lambda c _ _ start harrow h).imp fun _ c₁ n₁ hlambda => ?_
        exact (hlooked.trans hlambda).mono (by omega)
      · exact ends_pure (hlooked.mono (by omega))
    · exact ends_pure hnone

theorem pathOperand_succ (start : Nat) (h : 10 * c.rest.length + 2 ≤ fuel + 1) :
    Owes (Parser.pathOperand place (fuel + 1) start) c n 0 2 := by
  rw [pathOperand_eq]
  refine ends_step ((ends_readPath _).bind fun path c₁ n₁ hpath => ?_)
  cases path with
  | none =>
    have hlt := hpath.left_lt (by omega)
    refine (ih.skipCall c₁ n₁ (by omega)).bind fun _ c₂ n₂ hskip => ?_
    refine ends_somePlaceholder ?_ start
    exact ((spends_count c n 1).trans (hpath.trans hskip)).mono (by omega)
  | some t =>
    have hleft := hpath.left
    refine (ih.afterPath_ends start (by omega)).imp fun _ c₂ n₂ hrest => ?_
    exact ((spends_count c n 1).trans (hpath.trans hrest)).mono (by omega)

theorem afterGroup_ends (start : Nat) (args : List Argument)
    (h : 10 * c.rest.length + 2 ≤ fuel) : Owes (afterGroup place fuel start args) c n 0 2 := by
  refine ends_get fun s => ?_
  split
  · exact ends_pure ((spends_count c n 0).mono (by omega))
  refine ends_arrowAhead ?_
  have hlooked := spends_count c n c.blanks
  split
  · next harrow =>
    refine ends_originFrom fun o => (ih.lambda c _ _ start harrow (by omega)).imp ?_
    exact fun _ c₁ n₁ hlambda => (hlooked.trans hlambda).mono (by omega)
  have hchain : Ends (originFrom place start >>= fun o =>
      Parser.chain place fuel (.list o .bracket (args.map Argument.expr)) start) c (n + c.blanks)
      fun _ c' n' => Spends 0 (2 + c'.blanks) c n c' n' := by
    refine ends_originFrom fun o => (ih.chain c _ _ start h).imp fun _ c₁ n₁ hchain => ?_
    exact (hlooked.trans hchain).mono (by omega)
  split
  · exact ends_position (ends_report hchain)
  · exact hchain
  · exact ends_position (ends_report hchain)

theorem group_succ (hpos : 0 < c.rest.length) (h : 10 * c.rest.length ≤ fuel + 1) :
    Owes (Parser.group place (fuel + 1)) c n 0 0 := by
  rw [group_eq]
  refine ends_step (ends_position (ends_advance ?_))
  refine (ih.bracket_ends hpos (by omega) _ _).bind fun args c₁ n₁ hargs => ?_
  have hlt := hargs.left_lt (by omega)
  refine (ih.afterGroup_ends _ args (by omega)).imp fun _ c₂ n₂ hgroup => ?_
  exact ((spends_count c n 1).trans (hargs.trans hgroup)).mono (by omega)

theorem lambda_succ (parameters : Expr) (start : Nat) (harrow : arrowFollows c.rest = true)
    (h : 10 * c.rest.length ≤ fuel + 1) :
    Owes (Parser.lambda place (fuel + 1) parameters start) c n c.blanks 0 := by
  rw [lambda_eq]
  have htwo := length_skipBlanks_of_arrow harrow
  have hskip := (spends_count c n 1).trans (spends_skipBlanks c (n + 1))
  have hhead := hskip.trans (spends_advance (n + 1) htwo)
  have hlt := hhead.left_lt (by omega)
  refine ends_step (ends_skipBlanks (ends_advance ?_))
  have hbody : Ends (Parser.expression place fuel >>= afterBody place parameters start)
      (c.skipBlanks.advance 2) (n + 1)
      fun _ c' n' => Spends c.blanks (0 + c'.blanks) c n c' n' := by
    refine (ih.expression _ _ (by omega)).bind fun body c₁ n₁ hbody => ?_
    refine ends_afterBody ?_ parameters start body
    exact (hhead.trans hbody).mono (by omega)
  dsimp only
  split
  · exact ends_position (ends_report hbody)
  · exact hbody

theorem arguments_succ (kind : BracketKind) (start : Nat)
    (h : 10 * c.rest.length + 7 ≤ fuel + 1) :
    Pays (Parser.arguments place (fuel + 1) kind start) c n 7 := by
  rw [Parser.arguments]
  refine ends_step (ends_openBracket (ends_skipBlanks ?_))
  have hskip := (spends_count c n 1).trans (spends_skipBlanks c (n + 1))
  have hleft := hskip.left
  generalize c.skipBlanks = c₁ at hskip hleft
  refine ends_current? ?_
  split
  · next hclosed =>
    refine ends_advance (ends_closeBracket (ends_pure ?_))
    have hone := spends_advance (k := 1) (n + 1) (Cursor.length_pos (eq_of_beq hclosed))
    exact (hskip.trans hone).mono (by omega)
  · refine (ih.argumentList c₁ _ kind (by omega)).imp fun _ c₂ n₂ hlist => ?_
    exact (hskip.trans hlist).mono (by omega)

/-- The blanks after an argument pay for having been looked past. -/
theorem afterItem_ends (kind : BracketKind) (start : Nat) (name : Option String)
    (e : Option Expr) (h : 10 * c.rest.length ≤ fuel + 4) :
    Ends (afterItem place fuel kind start name e) c n
      fun _ c' n' => Spends c.blanks 0 c n c' n' := by
  refine ends_originFrom fun here => ends_skipBlanks ?_
  have hskip := spends_skipBlanks c n
  have hleft := hskip.left
  generalize c.skipBlanks = c₁ at hskip hleft
  refine ends_current? ?_
  cases hcurrent : c₁.rest.head? with
  | none => exact (ends_giveUp (hskip.mono (by omega))).bind fun _ _ _ h => ends_pure h
  | some ch =>
    have hone := hskip.trans (spends_advance (k := 1) n (Cursor.length_pos hcurrent))
    have hlength := Cursor.length_advance (k := 1) (Cursor.length_pos hcurrent)
    have hnext (read : List Argument) : Ends (do
        advance 1
        return read ++ (← Parser.argumentList place fuel kind)) c₁ n
        fun _ c' n' => Spends c.blanks 0 c n c' n' := by
      refine ends_advance ((ih.argumentList _ n kind (by omega)).bind fun _ c₂ n₂ hlist => ?_)
      exact ends_pure ((hone.trans hlist).mono (by omega))
    dsimp only
    split
    · exact ends_advance (ends_closeBracket (ends_pure (hone.mono (by omega))))
    split
    · exact ends_reportHere (hnext _)
    · exact hnext _

theorem item_ends (kind : BracketKind) (start : Nat) (name : Option String)
    (h : 10 * c.rest.length + 5 ≤ fuel) : Pays (item place fuel kind start name) c n 5 := by
  refine (ih.expression c n h).bind fun e c₁ n₁ he => ?_
  have hleft := he.left
  refine (ih.afterItem_ends kind start name e (by omega)).imp fun _ c₂ n₂ hrest => ?_
  exact (he.trans hrest).mono (by omega)

theorem argumentList_succ (kind : BracketKind) (h : 10 * c.rest.length + 6 ≤ fuel + 1) :
    Pays (Parser.argumentList place (fuel + 1) kind) c n 6 := by
  rw [argumentList_eq]
  refine ends_step (ends_skipBlanks ?_)
  have hskip := (spends_count c n 1).trans (spends_skipBlanks c (n + 1))
  have hleft := hskip.left
  generalize c.skipBlanks = c₁ at hskip hleft
  refine ends_position (ends_current? ?_)
  split
  · next hbracket =>
    refine (ends_readArgumentName (Cursor.length_pos (eq_of_beq hbracket)) kind).bind ?_
    intro name c₂ n₂ hname
    have hlt := hname.left_lt (by omega)
    refine (ih.item_ends kind _ name (by omega)).imp fun _ c₃ n₃ hitem => ?_
    exact (hskip.trans (hname.trans hitem)).mono (by omega)
  · refine (ih.item_ends kind _ none (by omega)).imp fun _ c₂ n₂ hitem => ?_
    exact (hskip.trans hitem).mono (by omega)

end ReadingEnds

/-- Every reading function ends wherever it is called with fuel for what is left of the text. -/
theorem reading_ends (place : Placement) : ∀ fuel, ReadingEnds place fuel
  | 0 => by
    constructor
    case lambda =>
      intro c n parameters start harrow h
      have htwo := length_skipBlanks_of_arrow harrow
      have hleft := (spends_skipBlanks c n).left
      omega
    all_goals
      intros
      omega
  | fuel + 1 =>
    have ih := reading_ends place fuel
    { expression := fun _ _ h => ih.expression_succ h
      operators := fun _ _ operands ops h => ih.operators_succ operands ops h
      operand := fun _ _ h => ih.operand_succ h
      pathOperand := fun _ _ start h => ih.pathOperand_succ start h
      skipCall := fun _ _ h => ih.skipCall_succ h
      call := fun _ _ t start hpos h => ih.call_succ hpos t start h
      chain := fun _ _ first start h => ih.chain_succ first start h
      links := fun _ _ h => ih.links_succ h
      group := fun _ _ hpos h => ih.group_succ hpos h
      lambda := fun _ _ parameters start harrow h => ih.lambda_succ parameters start harrow h
      arguments := fun _ _ kind start h => ih.arguments_succ kind start h
      argumentList := fun _ _ kind h => ih.argumentList_succ kind h }

theorem ends_whole {fuel : Nat} (h : 10 * c.rest.length + 5 ≤ fuel) :
    Owes (whole place fuel) c n 0 5 := by
  refine ends_skipBlanks ?_
  have hskip := spends_skipBlanks c n
  have hleft := hskip.left
  generalize c.skipBlanks = c₁ at hskip hleft
  refine ends_current? ?_
  cases c₁.rest.head? with
  | none => exact ends_position (ends_report (ends_pure (hskip.mono (by omega))))
  | some ch =>
    refine ((reading_ends place fuel).expression c₁ n (by omega)).bind fun e c₂ n₂ he => ?_
    exact ends_get fun s => ends_pure ((hskip.trans he).mono (by omega))

end Reading

end Parser

open Stencil.Parser

theorem budget_le_enoughFuel (n : Nat) : 10 * n + 5 ≤ enoughFuel n := by
  unfold enoughFuel
  omega

/-- Reading a text ends, and gives what is then made of it. -/
theorem exists_run (text : List Char) (place : Placement) :
    ∃ e s, whole place (enoughFuel text.length) (start text) = some (e, s) ∧
      parseAt text place =
        ⟨e.map fun e => ((e.withSources text place.offset).numberSites 0).1, s.diagnostics⟩ := by
  have henough := budget_le_enoughFuel text.length
  obtain ⟨e, s, hrun, -⟩ := @ends_whole (.ofText text) 0 place _ henough (start text) rfl rfl
  refine ⟨e, s, hrun, ?_⟩
  simp only [parseAt, StateT.run, hrun]

/-- Reading ends on every text, and so does every call on the way. The cursor only moves on, and
never past the end, and the steps are at most so many as eleven for each character and five: those
that were counted, and one for each character that was passed. The second statement is about every
call, made with fuel for what is left to read; `Spends` says where it leaves the cursor. So fuel for
the whole text never runs out, and parsing starts with as much. A tree without problems is that of
the whole text. -/
theorem reading_bounded (text : List Char) (place : Placement) {fuel : Nat}
    (h : 10 * text.length + 5 ≤ fuel) :
    10 * text.length + 5 ≤ enoughFuel text.length ∧ ReadingEnds place fuel ∧
      ∃ e s, whole place fuel (start text) = some (e, s) ∧ Forward (start text) s ∧
        s.cursor.position + s.cursor.rest.length = text.length ∧
        s.steps + s.cursor.position ≤ 11 * text.length + 5 ∧
        (e.isSome → s.diagnostics = [] → s.cursor.rest = []) := by
  refine ⟨budget_le_enoughFuel _, reading_ends place fuel, ?_⟩
  obtain ⟨e, s, hrun, hspends⟩ := ends_whole h (start text) rfl rfl
  have hwhole : s.cursor.position + s.cursor.rest.length = text.length :=
    hspends.whole.trans (Nat.zero_add _)
  refine ⟨e, s, hrun, forward.across_whole place fuel _ _ _ hrun, hwhole, ?_, fun he hclean => ?_⟩
  · have hcost : s.steps + 10 * s.cursor.rest.length + 0 ≤
        0 + 10 * text.length + (5 + s.cursor.blanks) := hspends.cost
    have hblanks := s.cursor.blanks_le
    omega
  · have hdiagnostics : s.diagnostics.length ≤ (start text).diagnostics.length := by
      rw [hclean]
      exact Nat.zero_le _
    obtain ⟨c', b', hsees, e, ws, cs, bl, rfl, hread⟩ :=
      ensures_whole _ _ _ _ _ (sees_start text) hrun hdiagnostics
    -- Outside brackets only the end of the text ends an expression.
    rw [hsees.cursor]
    exact hread.ends.resolve_right fun h => Bool.false_ne_true h.1

/-- What is missing or left open makes no difference. -/
theorem reading_bounded_broken :
    10 * "f(!) => [".toList.length + 5 ≤ 95 ∧
      ∃ e s, whole (.within "f(!) => [".toList 0) 95 (start "f(!) => [".toList) = some (e, s) ∧
        s.steps + s.cursor.position ≤ 104 := by
  have henough : 10 * "f(!) => [".toList.length + 5 ≤ 95 := by decide
  obtain ⟨-, -, e, s, hrun, -, -, hsteps, -⟩ := reading_bounded _ (.within _ 0) henough
  exact ⟨henough, e, s, hrun, hsteps⟩

end Stencil
