import Stencil.Proofs.Runs

/-!
# Texts whose first operand is missing

An operand that is missing inside brackets leaves the brackets without it, and one that is missing
after an operator leaves what came before. Only if the first operand of an expression is missing is
there no expression. The last problem that was reported then says so, and where: reading stopped
there. Only operators and the heads of lambdas can come before that place (`Prelude`).

Main statement: `lacks_whole`.
-/

namespace Stencil

/-- Whether a text can come before the arrow of a lambda: one name, or something in brackets. -/
inductive LambdaHead : List Char → Prop
  | name {cs : List Char} {t : Tokenizer} {key : Option String} :
    Tokenizer.leading.feed cs = .ok t → t.path = .ok [⟨.member, key⟩] → LambdaHead cs
  | bracket (cs : List Char) : LambdaHead ('(' :: cs ++ [')'])

/-- Whether a text can come before the first operand of an expression. -/
inductive Prelude : List Char → Prop
  | start : Prelude []
  | blanks {cs ws : List Char} : Prelude cs → Text.Blanks ws → Prelude (cs ++ ws)
  /-- The operators that stand before their operand, and those that have none on their left. -/
  | operator {cs : List Char} (op : Operator) : Prelude cs → Prelude (cs ++ op.symbol.toList)
  /-- The first operand is then that of the body of a lambda. -/
  | arrow {cs head ws : List Char} : Prelude cs → LambdaHead head → Text.Blanks ws →
    Prelude (cs ++ head ++ ws ++ ['=', '>'])

/-- What is reported where an operand is missing, at an offset of a text. -/
inductive MissingAt (place : Placement) (text : List Char) (offset : Nat) : Diagnostic → Prop
  | ended : text[offset]? = none →
    MissingAt place text offset ⟨place.span offset offset, .missingExpression⟩
  | before {c : Char} : text[offset]? = some c → c ∈ [')', ',', ']'] →
    MissingAt place text offset ⟨place.span offset (offset + 1), .missingExpression⟩
  | stray {c : Char} : text[offset]? = some c → c ∈ ['[', '\x7b', '\x7d'] →
    MissingAt place text offset ⟨place.span offset (offset + 1), .strayCharacter c⟩

/-- Whether the last problem that was reported is that the first operand of a text is missing. -/
def ParserState.Lacks (place : Placement) (s : ParserState) : Prop :=
  ∃ offset problem, Prelude (s.cursor.input.take offset) ∧
    MissingAt place s.cursor.input offset problem ∧ s.diagnostics.getLast? = some problem

namespace Cursor

variable {c : Cursor}

/-- Whether what was read can come before a first operand. -/
def Leading (c : Cursor) : Prop :=
  Prelude (c.input.take c.position)

theorem head?_rest (c : Cursor) : c.rest.head? = c.input[c.position]? := by
  rw [c.rest_eq, List.head?_drop]

/-- What was read after some more of the text was. -/
theorem take_advance {cs : List Char} (h : cs <+: c.rest) :
    (c.advance cs.length).input.take (c.advance cs.length).position =
      c.input.take c.position ++ cs := by
  rw [input_advance, position_advance, List.take_add, ← c.rest_eq, ← List.prefix_iff_eq_take.mp h]

theorem Leading.skipBlanks (h : c.Leading) : c.skipBlanks.Leading := by
  have hread := take_advance (List.takeWhile_prefix Text.isBlank (l := c.rest))
  rw [Leading, Cursor.skipBlanks, hread]
  refine .blanks h fun ch hch => ?_
  exact List.mem_takeWhile_imp hch

theorem Leading.operator (h : c.Leading) {op : Operator} (hop : op.symbol.toList <+: c.rest) :
    (c.advance op.width).Leading := by
  rw [Leading, show op.width = op.symbol.toList.length from rfl, take_advance hop]
  exact .operator op h

/-- Whether what was read last is the head of a lambda that can be a first operand. -/
def Heads (c : Cursor) : Prop :=
  ∃ cs head, c.input.take c.position = cs ++ head ∧ Prelude cs ∧ LambdaHead head

theorem Heads.arrow (h : c.Heads) (harrow : arrowFollows c.rest = true) :
    (c.skipBlanks.advance 2).Leading := by
  obtain ⟨cs, head, hread, hcs, hhead⟩ := h
  have hprefix : ['=', '>'] <+: c.skipBlanks.rest := by
    rw [rest_skipBlanks]
    exact List.isPrefixOf_iff_prefix.mp harrow
  have hblanks := take_advance (List.takeWhile_prefix Text.isBlank (l := c.rest))
  rw [Leading, show 2 = ['=', '>'].length from rfl, take_advance hprefix, skipBlanks, hblanks,
    hread]
  exact .arrow hcs hhead fun ch hch => List.mem_takeWhile_imp hch

/-- What was read from an opening bracket up to a closing one. -/
theorem Leading.bracket {c' : Cursor} {n : Nat} (h : c.Leading) (hopen : c.current? = some '(')
    (hinput : c'.input = c.input) (hn : c.position + 1 ≤ n) (hposition : c'.position = n + 1)
    (hclose : c'.input[n]? = some ')') : c'.Heads := by
  obtain ⟨rest, hrest⟩ := List.head?_eq_some_iff.mp hopen
  obtain ⟨k, rfl⟩ := Nat.exists_eq_add_of_le hn
  refine ⟨c.input.take c.position, '(' :: rest.take k ++ [')'], ?_, h, .bracket _⟩
  have hinner : c.input.take (c.position + 1 + k) =
      c.input.take c.position ++ '(' :: rest.take k := by
    rw [Nat.add_assoc, List.take_add, ← c.rest_eq, hrest, Nat.add_comm 1 k, List.take_succ_cons]
  rw [hinput] at hclose ⊢
  rw [hposition, List.take_add_one, hclose, hinner, Option.toList_some, List.append_assoc]

end Cursor

namespace Parser

variable {α : Type} {place : Placement} {s : ParserState}

/-- Whether nothing is returned only for two reasons: a bracket was found to be never closed, or an
operand is missing. -/
abbrev LacksUnless (place : Placement) (m : ParserM (Option α)) (s : ParserState) : Prop :=
  Leaves m s fun e t => e = none → t.gaveUp = true ∨ t.Lacks place

theorem lacksUnless_some {a : α} : LacksUnless place (pure (some a)) s :=
  leaves_pure fun h => nomatch h

/-- There is something whatever a step does that comes before. -/
theorem lacksUnless_after {β : Type} {m : ParserM β} {f : β → ParserM (Option α)}
    (hf : ∀ b s, LacksUnless place (f b) s) : LacksUnless place (m >>= f) s := by
  intro e t hrun
  obtain ⟨b, s₁, -, hsecond⟩ := exists_of_bind hrun
  exact hf b s₁ e t hsecond

theorem lacksUnless_chain (fuel : Nat) (first : Expr) (start : Nat) :
    LacksUnless place (chain place fuel first start) s := by
  cases fuel with
  | zero =>
    rw [chain]
    exact leaves_failure
  | succ fuel =>
    rw [chain]
    refine lacksUnless_after fun _ s => lacksUnless_after fun links s => ?_
    cases links with
    | nil => exact lacksUnless_some
    | cons _ _ => exact lacksUnless_after fun _ _ => lacksUnless_some

theorem lacksUnless_somePlaceholder (start : Nat) :
    LacksUnless place (do return some (← placeholder place start)) s :=
  lacksUnless_after fun _ _ => lacksUnless_some

theorem lacksUnless_call (fuel : Nat) (t : Tokenizer) (start : Nat) :
    LacksUnless place (call place fuel t start) s := by
  cases fuel with
  | zero =>
    rw [call]
    exact leaves_failure
  | succ fuel =>
    rw [call]
    refine lacksUnless_after fun _ s => lacksUnless_after fun _ s => lacksUnless_after fun _ s => ?_
    refine lacksUnless_after fun args s => ?_
    split
    · exact lacksUnless_after fun _ s => lacksUnless_chain _ _ _
    · exact lacksUnless_after fun _ s => lacksUnless_somePlaceholder start

/-! ## Heads of lambdas -/

theorem gaveUp_giveUp : Leaves (giveUp place) s fun _ t => t.gaveUp = true := by
  refine leaves_get ?_
  cases s.brackets with
  | nil =>
    rintro _ _ ⟨⟩
    rfl
  | cons bracket _ =>
    rintro _ _ ⟨⟩
    rfl

/-- Reading was given up, or has just passed a closing bracket at an offset after `lo`. -/
def EndsBracket (lo : Nat) (t : ParserState) : Prop :=
  t.gaveUp = true ∨
    ∃ n, lo ≤ n ∧ t.cursor.position = n + 1 ∧ t.cursor.input[n]? = some ')'

theorem EndsBracket.mono {lo lo' : Nat} {t : ParserState} (h : EndsBracket lo t) (hle : lo' ≤ lo) :
    EndsBracket lo' t := by
  obtain hlost | ⟨n, hn, hclose⟩ := h
  · exact .inl hlost
  · exact .inr ⟨n, hle.trans hn, hclose⟩

/-- Passing a closing bracket. -/
theorem endsBracket_advance {lo : Nat} (hlo : lo ≤ s.cursor.position)
    (hc : s.cursor.current? = some ')') (a : α) :
    Leaves (do
      advance 1
      closeBracket
      return a) s fun _ => EndsBracket lo :=
  leaves_advance (leaves_closeBracket (leaves_pure
    (.inr ⟨_, hlo, rfl, (s.cursor.head?_rest).symm.trans hc⟩)))

theorem endsBracket_argumentList (fuel : Nat) (kind : BracketKind) (s : ParserState) :
    Leaves (argumentList place fuel kind) s fun _ => EndsBracket s.cursor.position := by
  induction fuel generalizing s with
  | zero =>
    rw [argumentList]
    exact leaves_failure
  | succ fuel ih =>
    have hitem (start : Nat) (name : Option String) (t : ParserState)
        (ht : s.cursor.position ≤ t.cursor.position) :
        Leaves (item place fuel kind start name) t fun _ => EndsBracket s.cursor.position := by
      refine leaves_onward (reading_forward place fuel).expression fun e u hu => ?_
      refine leaves_originFrom ?_
      refine leaves_onward forward.across_skipBlanks fun _ v hv => leaves_current? ?_
      have honward := (ht.trans hu).trans hv
      have hnext (read : List Argument) (w : ParserState) (hw : w.cursor = v.cursor) : Leaves (do
          advance 1
          return read ++ (← argumentList place fuel kind)) w fun _ =>
            EndsBracket s.cursor.position := by
        refine leaves_onward (forward.across_advance 1) fun _ x hx => ?_
        rw [hw] at hx
        refine (ih x).bind fun more y hy => leaves_pure ?_
        exact hy.mono (honward.trans hx)
      cases hcurrent : v.cursor.current? with
      | none => exact gaveUp_giveUp.bind fun _ w hw => leaves_pure (.inl hw)
      | some c =>
        dsimp only
        split
        · next hclose => exact endsBracket_advance honward (eq_of_beq hclose ▸ hcurrent) _
        split
        · exact leaves_reportHere (hnext _ _ rfl)
        · exact hnext _ v rfl
    rw [argumentList_eq]
    refine leaves_step (leaves_onward forward.across_skipBlanks fun _ t ht => ?_)
    refine leaves_position (leaves_current? ?_)
    split
    · exact leaves_onward (forward.across_readArgumentName place kind) fun name u hu =>
        hitem _ name u (ht.trans hu)
    · exact hitem _ none t ht

theorem endsBracket_arguments (fuel : Nat) (kind : BracketKind) (start : Nat) :
    Leaves (arguments place fuel kind start) s fun _ => EndsBracket s.cursor.position := by
  cases fuel with
  | zero =>
    rw [arguments]
    exact leaves_failure
  | succ fuel =>
    rw [arguments]
    refine leaves_step (leaves_openBracket ?_)
    refine leaves_onward forward.across_skipBlanks fun _ t ht => leaves_current? ?_
    split
    · next hclose => exact endsBracket_advance ht (eq_of_beq hclose) _
    · exact (endsBracket_argumentList fuel kind t).imp fun _ _ hclosed => hclosed.mono ht

/-- A path of one name is the head of a lambda. -/
theorem heads_readPath (hs : s.cursor.Leading) :
    Leaves (readPath place .leading) s fun path t => ∀ name ∈ path, ∀ key,
      name.path = .ok [⟨.member, key⟩] → t.cursor.Heads := by
  refine leaves_step (leaves_rest (leaves_advance ?_))
  cases hfault : (scanPath .leading s.cursor.rest).fault with
  | some fault =>
    exact leaves_reportHere (leaves_advance (leaves_rest (leaves_advance
      (leaves_pure fun _ h => nomatch h))))
  | none =>
    obtain ⟨cs, tail, hrest, hread, hfeed, -⟩ := exists_of_scanPath hfault
    refine leaves_pure ?_
    rintro _ ⟨⟩ key hpath
    have htaken := Cursor.take_advance (c := s.cursor) ⟨tail, hrest.symm⟩
    rw [hread]
    exact ⟨_, cs, htaken, hs, .name hfeed hpath⟩

/-! ## The reading functions -/

/-- What is claimed of the functions that may return nothing, for one amount of fuel. -/
structure ReadingLacks (place : Placement) (fuel : Nat) : Prop where
  expression : ∀ s : ParserState, s.cursor.Leading → LacksUnless place (expression place fuel) s
  operand : ∀ s : ParserState, s.cursor.Leading → LacksUnless place (operand place fuel) s
  pathOperand : ∀ s : ParserState, s.cursor.Leading → ∀ start,
    LacksUnless place (pathOperand place fuel start) s
  group : ∀ s : ParserState, s.cursor.Leading → s.cursor.current? = some '(' →
    LacksUnless place (group place fuel) s
  lambda : ∀ s : ParserState, s.cursor.Heads → arrowFollows s.cursor.rest = true →
    ∀ parameters start, LacksUnless place (lambda place fuel parameters start) s

namespace ReadingLacks

variable {fuel : Nat} (ih : ReadingLacks place fuel)
include ih

/-- There is a tree as soon as there is a first operand. -/
theorem expression_succ (hs : s.cursor.Leading) :
    LacksUnless place (Parser.expression place (fuel + 1)) s := by
  intro e t hrun hnone
  obtain ⟨read, hread, -, htree⟩ := exists_readRun_of_expression hrun
  have hread' : read = none := by
    cases read with
    | none => rfl
    | some r =>
      obtain ⟨e', he', -⟩ := htree r rfl
      rw [hnone] at he'
      cases he'
  subst hread'
  rw [readRun] at hread
  obtain ⟨_, _, hstep, hread⟩ := exists_of_bind hread
  cases hstep
  obtain ⟨first, s₁, hfirst, hread⟩ := exists_of_bind hread
  cases first with
  | none =>
    cases hread
    exact ih.operand { s with steps := s.steps + 1 } hs none _ hfirst rfl
  | some first =>
    obtain ⟨_, _, -, hread⟩ := exists_of_bind hread
    cases hread

theorem operandAt_lacks (hs : s.cursor.Leading) {c : Char} (hc : s.cursor.current? = some c)
    (next : Option Char) : LacksUnless place (operandAt place fuel s.cursor.position c next) s := by
  have hoffset : s.cursor.input[s.cursor.position]? = some c := by
    rw [← Cursor.head?_rest]
    exact hc
  have hmark (op : Operator) (hsymbol : op.symbol.toList = [c]) :
      op.symbol.toList <+: s.cursor.rest := by
    obtain ⟨rest, hrest⟩ := List.head?_eq_some_iff.mp hc
    rw [hsymbol, hrest]
    exact ⟨rest, rfl⟩
  unfold operandAt
  split
  · exact lacksUnless_after fun _ _ => lacksUnless_chain _ _ _
  split
  · next hgroup => exact ih.group s hs (eq_of_beq hgroup ▸ hc)
  split
  · next hnot =>
    obtain rfl : c = '!' := by simpa using (Bool.and_eq_true_iff.mp hnot).1
    refine leaves_advance ((ih.operand _ (hs.operator (hmark .not rfl))).bind ?_)
    intro e t he
    cases e with
    | none => exact leaves_pure fun _ => he rfl
    | some e => exact lacksUnless_after fun _ _ => lacksUnless_some
  split
  · next hminus =>
    obtain rfl : c = '-' := by simpa using (Bool.and_eq_true_iff.mp hminus).1
    refine leaves_advance ((ih.operand _ (hs.operator (hmark .subtract rfl))).bind ?_)
    intro e t he
    unfold afterMinus
    split
    · exact leaves_pure fun _ => he rfl
    · exact lacksUnless_after fun _ _ => lacksUnless_some
    · exact lacksUnless_after fun _ _ => lacksUnless_some
  split
  · next hclose =>
    refine leaves_reportHere (leaves_pure fun _ => .inr ⟨_, _, hs, .before hoffset ?_, ?_⟩)
    · simpa [or_assoc] using hclose
    · rw [List.getLast?_concat, Nat.max_eq_right (Nat.le_succ _)]
  split
  · next hopen =>
    refine leaves_reportHere (leaves_advance (leaves_pure fun _ => .inr ?_))
    refine ⟨s.cursor.position, _, hs, .stray hoffset ?_, ?_⟩
    · simpa [or_assoc] using hopen
    · rw [List.getLast?_concat, Nat.max_eq_right (Nat.le_succ _)]
  refine leaves_rest ?_
  split
  · next op hop =>
    have hop := List.find?_some hop
    rw [Bool.and_eq_true] at hop
    refine leaves_report (leaves_advance (ih.operand _ ?_))
    exact hs.operator (List.isPrefixOf_iff_prefix.mp hop.2)
  · exact ih.pathOperand s hs _

theorem operand_succ (hs : s.cursor.Leading) :
    LacksUnless place (Parser.operand place (fuel + 1)) s := by
  rw [operand_eq]
  refine leaves_step (leaves_skipBlanks (leaves_position (leaves_current? ?_)))
  cases hcurrent : s.cursor.skipBlanks.current? with
  | none =>
    refine leaves_report (leaves_pure fun _ => .inr ⟨_, _, hs.skipBlanks, .ended ?_, ?_⟩)
    · rw [← Cursor.head?_rest]
      exact hcurrent
    · rw [List.getLast?_concat, Nat.max_self]
  | some c => exact leaves_get (ih.operandAt_lacks (s := { s with cursor := _, steps := _ })
      hs.skipBlanks hcurrent _)

theorem pathOperand_succ (hs : s.cursor.Leading) (start : Nat) :
    LacksUnless place (Parser.pathOperand place (fuel + 1) start) s := by
  rw [pathOperand_eq]
  refine leaves_step (Leaves.bind (heads_readPath hs) fun path s hname => ?_)
  cases path with
  | none => exact lacksUnless_after fun _ _ => lacksUnless_somePlaceholder start
  | some t =>
    refine leaves_current? ?_
    split
    · exact lacksUnless_call _ _ _
    split
    · exact lacksUnless_after fun _ _ => lacksUnless_after fun _ _ =>
        lacksUnless_somePlaceholder start
    · next hpath =>
      refine leaves_originFrom ?_
      split
      · dsimp only
        split <;> exact lacksUnless_some
      · have hheads := hname t rfl _ hpath
        refine leaves_arrowAhead fun steps => ?_
        split
        · next harrow => exact ih.lambda { s with steps } hheads harrow _ _
        · exact lacksUnless_some
      · exact lacksUnless_some

theorem group_succ (hs : s.cursor.Leading) (hopen : s.cursor.current? = some '(') :
    LacksUnless place (Parser.group place (fuel + 1)) s := by
  rw [group_eq]
  refine leaves_step (leaves_position (leaves_advance ?_))
  refine (Leaves.and (endsBracket_arguments fuel .group _)
    ((reading_forward place fuel).arguments _ _ _)).bind fun args t ht => leaves_get ?_
  obtain ⟨hclosed, hforward⟩ := ht
  split
  · next hlost => exact leaves_pure fun _ => .inl hlost
  next hgoing =>
  obtain ⟨n, hn, hposition, hclose⟩ := hclosed.resolve_left hgoing
  have hheads := hs.bracket hopen hforward.input hn hposition hclose
  refine leaves_arrowAhead fun steps => ?_
  split
  · next harrow => exact leaves_originFrom (ih.lambda { t with steps } hheads harrow _ _)
  have hchain (u : ParserState) : LacksUnless place (originFrom place s.cursor.position >>= fun o =>
      Parser.chain place fuel (.list o .bracket (args.map Argument.expr)) s.cursor.position) u :=
    lacksUnless_after fun _ _ => lacksUnless_chain _ _ _
  split
  · exact lacksUnless_after fun _ _ => lacksUnless_after fun _ u => hchain u
  · exact hchain _
  · exact lacksUnless_after fun _ _ => lacksUnless_after fun _ u => hchain u

theorem lambda_succ (hs : s.cursor.Heads) (harrow : arrowFollows s.cursor.rest = true)
    (parameters : Expr) (start : Nat) :
    LacksUnless place (Parser.lambda place (fuel + 1) parameters start) s := by
  rw [lambda_eq]
  have hbody (t : ParserState) (ht : t.cursor.Leading) : LacksUnless place
      (Parser.expression place fuel >>= afterBody place parameters start) t := by
    refine (ih.expression t ht).bind fun body u hu => ?_
    cases body with
    | none => exact leaves_pure fun _ => hu rfl
    | some body => exact lacksUnless_after fun _ _ => lacksUnless_some
  have hleading := hs.arrow harrow
  refine leaves_step (leaves_skipBlanks (leaves_advance ?_))
  dsimp only
  split
  · exact leaves_position (leaves_report (hbody _ hleading))
  · exact hbody _ hleading

end ReadingLacks

theorem reading_lacks (place : Placement) : ∀ fuel, ReadingLacks place fuel
  | 0 => by
    constructor <;> intros <;>
      simp only [expression, operand, pathOperand, group, lambda, leaves_failure]
  | fuel + 1 =>
    have ih := reading_lacks place fuel
    { expression := fun _ => ih.expression_succ
      operand := fun _ => ih.operand_succ
      pathOperand := fun _ hs start => ih.pathOperand_succ hs start
      group := fun _ hs hopen => ih.group_succ hs hopen
      lambda := fun _ hs harrow => ih.lambda_succ hs harrow }

theorem leading_start (text : List Char) : (start text).cursor.Leading :=
  .start

/-- A text has no tree only if reading was given up, or its first operand is missing. -/
theorem lacks_whole (fuel : Nat) (hs : s.cursor.Leading) :
    LacksUnless place (whole place fuel) s := by
  refine leaves_skipBlanks (leaves_current? ?_)
  cases hcurrent : s.cursor.skipBlanks.current? with
  | none =>
    refine leaves_position (leaves_report (leaves_pure fun _ => .inr ?_))
    refine ⟨_, _, hs.skipBlanks, .ended ?_, ?_⟩
    · rw [← Cursor.head?_rest]
      exact hcurrent
    · rw [List.getLast?_concat, Nat.max_self]
  | some c =>
    refine ((reading_lacks place fuel).expression _ hs.skipBlanks).bind fun e t he => ?_
    refine leaves_get (leaves_pure fun hnone => ?_)
    split at hnone
    · next hlost => exact .inl hlost
    · exact he hnone

/-- A text in which a bracket was lost has no tree. -/
theorem none_of_gaveUp (fuel : Nat) :
    Leaves (whole place fuel) s fun e t => t.gaveUp = true → e = none := by
  refine leaves_skipBlanks (leaves_current? ?_)
  cases s.cursor.skipBlanks.current? with
  | none => exact leaves_position (leaves_report (leaves_pure fun _ => rfl))
  | some c =>
    intro e t hrun hlost
    obtain ⟨e', t', -, hrun⟩ := exists_of_bind hrun
    cases hrun
    exact if_pos hlost

/-- A blank text has no tree. -/
theorem none_of_blank (fuel : Nat) (h : Text.Blanks s.cursor.rest) :
    Leaves (whole place fuel) s fun e _ => e = none := by
  refine leaves_skipBlanks (leaves_current? ?_)
  cases hcurrent : s.cursor.skipBlanks.current? with
  | none => exact leaves_position (leaves_report (leaves_pure rfl))
  | some c =>
    have hnil : s.cursor.skipBlanks.rest = [] := by
      rw [Cursor.rest_skipBlanks]
      exact List.dropWhile_eq_nil_iff.mpr h
    rw [Cursor.current?, hnil] at hcurrent
    cases hcurrent

end Parser

end Stencil
