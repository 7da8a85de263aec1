import Stencil.Proofs.Growing

/-!
# Problems lie in the text

Reading never goes past the end of the text, and every problem that it reports is about a piece of
it. Neither is said by the steps: a cursor may be moved anywhere, and a problem be reported between
any two offsets. So what is known when a reading function is called goes into its claim: a group,
the arguments of a call and a string literal are read where there is a character, and a lambda where
an arrow follows.

The invariant is `ParserState.Within`. Main statement: `covers_of_mem_parseAt`.
-/

namespace Stencil

/-- Whether the span is that of a piece of a text of `n` characters. -/
def Placement.Covers (place : Placement) (n : Nat) (span : Span) : Prop :=
  ∃ start stop, start ≤ stop ∧ stop ≤ n ∧ span = place.span start stop

/-- The cursor, the open brackets and the problems so far lie in a text of `n` characters. -/
structure ParserState.Within (place : Placement) (n : Nat) (s : ParserState) : Prop where
  /-- What is left and what was read are the whole text. -/
  left : s.cursor.position + s.cursor.rest.length = n
  brackets : ∀ b ∈ s.brackets, b.start < n
  diagnostics : ∀ d ∈ s.diagnostics, place.Covers n d.span

namespace ParserState.Within

variable {place : Placement} {n : Nat} {s : ParserState} (hs : s.Within place n)

include hs

theorem position_le : s.cursor.position ≤ n := by
  have hleft := hs.left
  omega

theorem position_lt (h : 0 < s.cursor.rest.length) : s.cursor.position < n := by
  have hleft := hs.left
  omega

theorem advance {k : Nat} (hk : k ≤ s.cursor.rest.length) :
    ParserState.Within place n { s with cursor := s.cursor.advance k } := by
  refine ⟨?_, hs.brackets, hs.diagnostics⟩
  have hleft := hs.left
  show s.cursor.position + k + (s.cursor.rest.drop k).length = n
  rw [List.length_drop]
  omega

theorem skipBlanks : ParserState.Within place n { s with cursor := s.cursor.skipBlanks } :=
  hs.advance (List.takeWhile_prefix _).length_le

theorem report {start stop : Nat} (hstart : start ≤ n) (hstop : stop ≤ n) (fault : Fault) :
    ParserState.Within place n
      { s with diagnostics := s.diagnostics ++ [⟨place.span start (max start stop), fault⟩] } := by
  refine ⟨hs.left, hs.brackets, fun d hd => ?_⟩
  rcases List.mem_append.mp hd with hd | hd
  · exact hs.diagnostics d hd
  · obtain rfl := List.mem_singleton.mp hd
    exact ⟨start, max start stop, Nat.le_max_left _ _, Nat.max_le.mpr ⟨hstart, hstop⟩, rfl⟩

theorem openBracket {kind : BracketKind} {start : Nat} (hstart : start < n)
    (opened : List OpenBracket) : ParserState.Within place n
      { s with brackets := ⟨kind, start⟩ :: s.brackets, opened } :=
  ⟨hs.left, List.forall_mem_cons.mpr ⟨hstart, hs.brackets⟩, hs.diagnostics⟩

theorem closeBracket (closed : List (OpenBracket × Nat)) :
    ParserState.Within place n { s with brackets := s.brackets.tail, closed } :=
  ⟨hs.left, fun b hb => hs.brackets b (List.mem_of_mem_tail hb), hs.diagnostics⟩

end ParserState.Within

/-! ## Scans -/

theorem read_scanPath (t : Tokenizer) (text : List Char) : (scanPath t text).read ≤ text.length ∧
    ((scanPath t text).fault.isSome → (scanPath t text).read < text.length) := by
  induction text generalizing t with
  | nil => exact ⟨Nat.le_refl 0, fun h => by cases h⟩
  | cons c rest ih =>
    unfold scanPath
    split
    · exact ⟨Nat.zero_le _, fun h => by cases h⟩
    split
    · exact ⟨Nat.zero_le _, fun _ => Nat.succ_pos _⟩
    · next t' _ =>
      obtain ⟨hread, hfault⟩ := ih t'
      exact ⟨Nat.succ_le_succ hread, fun h => Nat.succ_lt_succ (hfault h)⟩

theorem skipPath_le (text : List Char) : skipPath text ≤ text.length := by
  induction text with
  | nil => exact Nat.le_refl 0
  | cons c rest ih =>
    unfold skipPath
    split
    · exact Nat.zero_le _
    · exact Nat.succ_le_succ ih

theorem read_scanString (delimiter : Char) (text : List Char) :
    (scanString delimiter text).read ≤ text.length := by
  fun_induction scanString delimiter text with
  | case1 => exact Nat.le_refl 0
  | _ => simp_all <;> omega

theorem width_le_of_atStart? {text : List Char} {op : Operator}
    (h : Operator.atStart? text = some op) : op.width ≤ text.length := by
  have hop := List.find?_some h
  rw [Bool.and_eq_true] at hop
  exact (List.isPrefixOf_iff_prefix.mp hop.2).length_le

theorem two_le_of_arrow {text : List Char} (h : ['=', '>'].isPrefixOf text = true) :
    2 ≤ text.length :=
  (List.isPrefixOf_iff_prefix.mp h).length_le

namespace Parser

variable {α β : Type} {place : Placement} {n : Nat} {s : ParserState}

/-! ## Steps -/

/-- Whether what the step leaves, if it is taken in this state, lies in the text. -/
abbrev Stays (place : Placement) (n : Nat) (m : ParserM α) (s : ParserState) : Prop :=
  Leaves m s fun _ t => t.Within place n

theorem stays_pure (hs : s.Within place n) (a : α) : Stays place n (pure a) s :=
  leaves_pure hs

theorem stays_modify {u : ParserState → ParserState} (h : (u s).Within place n) :
    Stays place n (modify u) s := by
  rintro _ _ ⟨⟩
  exact h

section Steps

variable (hs : s.Within place n)

include hs

theorem stays_advance {k : Nat} (hk : k ≤ s.cursor.rest.length) : Stays place n (advance k) s :=
  stays_modify (hs.advance hk)

theorem stays_skipBlanks : Stays place n skipBlanks s :=
  stays_modify hs.skipBlanks

theorem stays_closeBracket : Stays place n closeBracket s :=
  stays_modify (hs.closeBracket _)

theorem stays_dropBracket : Stays place n dropBracket s :=
  stays_modify (hs.closeBracket s.closed)

theorem stays_placeholder (start : Nat) : Stays place n (placeholder place start) s :=
  leaves_originFrom (stays_pure hs _)

/-! These steps do not move the cursor. -/

variable {f : Unit → ParserM β}
  (hf : ∀ t, t.Within place n → t.cursor = s.cursor → Stays place n (f ()) t)

include hf

theorem stays_step : Stays place n (step >>= f) s :=
  hf _ ⟨hs.left, hs.brackets, hs.diagnostics⟩ rfl

theorem stays_openBracket (kind : BracketKind) {start : Nat} (hstart : start < n) :
    Stays place n (openBracket kind start >>= f) s :=
  hf _ (hs.openBracket hstart _) rfl

theorem stays_report {start stop : Nat} (hstart : start ≤ n) (hstop : stop ≤ n) (fault : Fault) :
    Stays place n (report place start stop fault >>= f) s :=
  hf _ (hs.report hstart hstop fault) rfl

theorem stays_reportHere (h : 0 < s.cursor.rest.length) (fault : Fault) :
    Stays place n (reportHere place fault >>= f) s :=
  hf _ (hs.report hs.position_le (hs.position_lt h) fault) rfl

end Steps

theorem stays_arrowAhead (hs : s.Within place n) {f : Bool → ParserM β}
    (hf : ∀ t, t.Within place n → t.cursor = s.cursor →
      Stays place n (f (arrowFollows s.cursor.rest)) t) : Stays place n (arrowAhead >>= f) s :=
  hf _ ⟨hs.left, hs.brackets, hs.diagnostics⟩ rfl

theorem stays_giveUp (hs : s.Within place n) : Stays place n (giveUp place) s := by
  refine leaves_get ?_
  cases hbrackets : s.brackets with
  | nil => exact stays_modify ⟨hs.left, hs.brackets, hs.diagnostics⟩
  | cons bracket more =>
    have hbracket : bracket.start < n :=
      hs.brackets bracket (by rw [hbrackets]; exact List.mem_cons_self)
    refine (stays_dropBracket hs).bind fun _ t ht => ?_
    refine stays_report ht (fun u hu _ => ?_) (Nat.le_of_lt hbracket) hbracket _
    exact stays_modify ⟨hu.left, hu.brackets, hu.diagnostics⟩

theorem stays_readPath (hs : s.Within place n) (t : Tokenizer) :
    Stays place n (readPath place t) s := by
  refine stays_step hs fun s hs _ => ?_
  obtain ⟨hread, hfault⟩ := read_scanPath t s.cursor.rest
  refine leaves_rest ?_
  dsimp only
  generalize hscan : scanPath t s.cursor.rest = scan
  rw [hscan] at hread hfault
  cases hfaults : scan.fault with
  | none => exact (stays_advance hs hread).bind fun _ u hu => stays_pure hu _
  | some fault =>
    -- The character that was refused is still there.
    have hleft : 0 < (s.cursor.advance scan.read).rest.length := by
      have hlt := hfault (by rw [hfaults]; rfl)
      rw [Cursor.rest_advance, List.length_drop]
      omega
    refine leaves_advance ?_
    refine stays_reportHere (hs.advance hread) (fun u hu hcursor => ?_) hleft fault
    refine (stays_advance hu (by rw [hcursor]; exact hleft)).bind fun _ v hv => ?_
    exact leaves_rest ((stays_advance hv (skipPath_le _)).bind fun _ w hw => stays_pure hw _)

theorem stays_readString (hs : s.Within place n) (h : 0 < s.cursor.rest.length)
    (delimiter : Char) : Stays place n (readString place delimiter) s := by
  refine stays_step hs fun s hs hsame => ?_
  rw [← hsame] at h
  refine leaves_position ((stays_advance hs h).bind fun _ t ht => leaves_rest ?_)
  refine (stays_advance ht (read_scanString _ _)).bind fun _ u hu => ?_
  have hend : ∀ v : ParserState, v.Within place n → Stays place n
      (do
        let origin ← originFrom place s.cursor.position
        return Expr.string origin delimiter (scanString delimiter t.cursor.rest).fragments) v :=
    fun v hv => leaves_originFrom (stays_pure hv _)
  cases (scanString delimiter t.cursor.rest).closed with
  | true => exact hend u hu
  | false =>
    exact leaves_position (stays_report hu (fun v hv _ => hend v hv) hs.position_le
      hu.position_le _)

theorem stays_readArgumentName (hs : s.Within place n) (h : 0 < s.cursor.rest.length)
    (kind : BracketKind) : Stays place n (readArgumentName place kind) s := by
  refine stays_step hs fun s hs hsame => ?_
  rw [← hsame] at h
  refine leaves_position (stays_openBracket hs (fun t ht hcursor => ?_) _ (hs.position_lt h))
  refine (stays_advance ht (by rw [hcursor]; exact h)).bind fun _ u hu => leaves_rest ?_
  refine (stays_advance hu (List.takeWhile_prefix _).length_le).bind fun _ v hv => ?_
  refine leaves_current? ?_
  cases hcurrent : v.cursor.current? with
  | none => exact (stays_giveUp hv).bind fun _ w hw => stays_pure hw _
  | some c =>
    refine (stays_advance hv (Cursor.length_pos hcurrent)).bind fun _ w hw => ?_
    refine (stays_closeBracket hw).bind fun _ x hx => ?_
    split
    · exact stays_pure hx _
    · exact leaves_position (stays_report hx (fun y hy _ => stays_pure hy none) hs.position_le
        hx.position_le _)

/-! ## The reading functions -/

theorem stays_afterNot (hs : s.Within place n) (start : Nat) (e : Option Expr) :
    Stays place n (afterNot place start e) s := by
  cases e with
  | none => exact stays_pure hs _
  | some e => exact leaves_originFrom (stays_pure hs _)

theorem stays_afterMinus (hs : s.Within place n) {start : Nat} (hstart : start < n)
    (e : Option Expr) : Stays place n (afterMinus place start e) s := by
  unfold afterMinus
  split
  · exact stays_pure hs _
  · exact leaves_originFrom (stays_pure hs _)
  · refine stays_report hs (fun t ht _ => ?_) (Nat.le_of_lt hstart) hstart _
    exact stays_pure ht _

theorem stays_afterBody (hs : s.Within place n) (parameters : Expr) (start : Nat)
    (body : Option Expr) : Stays place n (afterBody place parameters start body) s := by
  cases body with
  | none => exact stays_pure hs _
  | some body => exact leaves_originFrom (stays_pure hs _)

/-- What is claimed of all reading functions for one amount of fuel. -/
structure ReadingStays (place : Placement) (n fuel : Nat) : Prop where
  expression : ∀ s : ParserState, s.Within place n → Stays place n (expression place fuel) s
  operators : ∀ s : ParserState, s.Within place n → ∀ operands ops,
    Stays place n (operators place fuel operands ops) s
  operand : ∀ s : ParserState, s.Within place n → Stays place n (operand place fuel) s
  pathOperand : ∀ s : ParserState, s.Within place n → ∀ start ≤ n,
    Stays place n (pathOperand place fuel start) s
  skipCall : ∀ s : ParserState, s.Within place n → Stays place n (skipCall place fuel) s
  call : ∀ s : ParserState, s.Within place n → 0 < s.cursor.rest.length → ∀ t, ∀ start ≤ n,
    Stays place n (call place fuel t start) s
  chain : ∀ s : ParserState, s.Within place n → ∀ first start,
    Stays place n (chain place fuel first start) s
  links : ∀ s : ParserState, s.Within place n → Stays place n (links place fuel) s
  group : ∀ s : ParserState, s.Within place n → 0 < s.cursor.rest.length →
    Stays place n (group place fuel) s
  lambda : ∀ s : ParserState, s.Within place n → arrowFollows s.cursor.rest = true →
    ∀ parameters, ∀ start ≤ n, Stays place n (lambda place fuel parameters start) s
  arguments : ∀ s : ParserState, s.Within place n → ∀ kind, ∀ start < n,
    Stays place n (arguments place fuel kind start) s
  argumentList : ∀ s : ParserState, s.Within place n → ∀ kind,
    Stays place n (argumentList place fuel kind) s

namespace ReadingStays

variable {fuel : Nat} (ih : ReadingStays place n fuel) (hs : s.Within place n)
include ih hs

theorem expression_succ : Stays place n (Parser.expression place (fuel + 1)) s := by
  rw [Parser.expression]
  refine stays_step hs fun t ht _ => (ih.operand t ht).bind fun first u hu => ?_
  cases first with
  | none => exact stays_pure hu _
  | some first => exact (ih.operators u hu _ _).bind fun _ v hv => stays_pure hv _

theorem operators_succ (operands : List Expr) (ops : List Operator) :
    Stays place n (Parser.operators place (fuel + 1) operands ops) s := by
  rw [Parser.operators]
  refine stays_step hs fun t ht _ => (stays_skipBlanks ht).bind fun _ u hu => leaves_current? ?_
  cases hcurrent : u.cursor.current? with
  | none => exact stays_pure hu _
  | some c =>
    have hleft := Cursor.length_pos hcurrent
    -- Where a character is reported it is there to be passed.
    have hskip (fault : Fault) : Stays place n (do
        reportHere place fault
        advance 1
        Parser.operators place fuel operands ops) u := by
      refine stays_reportHere hu (fun v hv hcursor => ?_) hleft fault
      exact (stays_advance hv (by rw [hcursor]; exact hleft)).bind fun _ w hw =>
        ih.operators w hw _ _
    refine leaves_get ?_
    dsimp only
    split
    · exact stays_pure hu _
    split
    · exact hskip _
    split
    · exact hskip _
    split
    · refine stays_reportHere hu (fun v hv hcursor => ?_) hleft _
      exact (stays_readString hv (by rw [hcursor]; exact hleft) c).bind fun _ w hw =>
        ih.operators w hw _ _
    refine leaves_rest ?_
    split
    · next harrow =>
      have htwo := two_le_of_arrow harrow
      have hstop : u.cursor.position + 2 ≤ n := by
        have hleft := hu.left
        omega
      refine leaves_position ((stays_advance hu htwo).bind fun _ v hv => ?_)
      exact stays_report hv (fun w hw _ => ih.operators w hw _ _) hu.position_le hstop _
    refine leaves_rest ?_
    split
    · exact hskip _
    · next op hop =>
      refine (stays_advance hu (width_le_of_atStart? hop)).bind fun _ v hv => ?_
      refine stays_step hv fun v hv _ => (ih.operand v hv).bind fun right w hw => ?_
      cases right with
      | none => exact stays_pure hw _
      | some right => exact ih.operators w hw _ _

theorem operandAt_stays {c : Char} (hc : s.cursor.current? = some c) (next : Option Char) :
    Stays place n (operandAt place fuel s.cursor.position c next) s := by
  have hleft := Cursor.length_pos hc
  have hstart := hs.position_lt hleft
  unfold operandAt
  split
  · exact (stays_readString hs hleft c).bind fun _ t ht => ih.chain t ht _ _
  split
  · exact ih.group s hs hleft
  split
  · exact (stays_advance hs hleft).bind fun _ t ht => (ih.operand t ht).bind fun e u hu =>
      stays_afterNot hu _ e
  split
  · exact (stays_advance hs hleft).bind fun _ t ht => (ih.operand t ht).bind fun e u hu =>
      stays_afterMinus hu hstart e
  split
  · refine stays_reportHere hs (fun t ht _ => ?_) hleft _
    exact stays_pure ht _
  split
  · refine stays_reportHere hs (fun t ht hcursor => ?_) hleft _
    exact (stays_advance ht (by rw [hcursor]; exact hleft)).bind fun _ u hu => stays_pure hu _
  refine leaves_rest ?_
  split
  · next op hop =>
    have hwidth := width_le_of_atStart? hop
    have hstop : s.cursor.position + op.width ≤ n := by
      have hleft := hs.left
      omega
    refine stays_report hs (fun t ht hcursor => ?_) hs.position_le hstop _
    exact (stays_advance ht (by rw [hcursor]; exact hwidth)).bind fun _ u hu => ih.operand u hu
  · exact ih.pathOperand s hs _ hs.position_le

theorem operand_succ : Stays place n (Parser.operand place (fuel + 1)) s := by
  rw [operand_eq]
  refine stays_step hs fun t ht _ => (stays_skipBlanks ht).bind fun _ u hu => ?_
  refine leaves_position (leaves_current? ?_)
  cases hcurrent : u.cursor.current? with
  | none =>
    refine stays_report hu (fun v hv _ => ?_) hu.position_le hu.position_le _
    exact stays_pure hv _
  | some c => exact leaves_get (ih.operandAt_stays hu hcurrent _)

theorem afterPath_stays {start : Nat} (hstart : start ≤ n) (t : Option Tokenizer) :
    Stays place n (afterPath place fuel start t) s := by
  have hplaceholder (u : ParserState) (hu : u.Within place n) :
      Stays place n (do return some (← placeholder place start)) u :=
    (stays_placeholder hu start).bind fun _ v hv => stays_pure hv _
  cases t with
  | none => exact (ih.skipCall s hs).bind fun _ u hu => hplaceholder u hu
  | some t =>
    refine leaves_current? ?_
    split
    · next hbracket => exact ih.call s hs (Cursor.length_pos (eq_of_beq hbracket)) t start hstart
    split
    · exact leaves_position (stays_report hs (fun u hu _ => hplaceholder u hu) hstart
        hs.position_le _)
    · refine leaves_originFrom ?_
      split
      · dsimp only
        split <;> exact stays_pure hs _
      · refine stays_arrowAhead hs fun u hu hcursor => ?_
        split
        · next harrow => exact ih.lambda u hu (by rw [hcursor]; exact harrow) _ start hstart
        · exact stays_pure hu _
      · exact stays_pure hs _

theorem pathOperand_succ {start : Nat} (hstart : start ≤ n) :
    Stays place n (Parser.pathOperand place (fuel + 1) start) s := by
  rw [pathOperand_eq]
  exact stays_step hs fun t ht _ => (stays_readPath ht _).bind fun path u hu =>
    ih.afterPath_stays hu hstart path

theorem skipCall_succ : Stays place n (Parser.skipCall place (fuel + 1)) s := by
  rw [Parser.skipCall]
  refine stays_step hs fun t ht _ => leaves_current? ?_
  split
  · next hbracket =>
    have hleft := Cursor.length_pos (eq_of_beq hbracket)
    refine leaves_position ((stays_advance ht hleft).bind fun _ u hu => ?_)
    exact (ih.arguments u hu _ _ (ht.position_lt hleft)).bind fun _ v hv => stays_pure hv _
  · exact stays_pure ht _

theorem call_succ (h : 0 < s.cursor.rest.length) (t : Tokenizer) {start : Nat}
    (hstart : start ≤ n) : Stays place n (Parser.call place (fuel + 1) t start) s := by
  rw [Parser.call]
  refine stays_step hs fun u hu hcursor => ?_
  have hleft : 0 < u.cursor.rest.length := by rw [hcursor]; exact h
  have hbracket := hu.position_lt hleft
  refine leaves_position ((stays_advance hu hleft).bind fun _ v hv => ?_)
  refine (ih.arguments v hv _ _ hbracket).bind fun args w hw => ?_
  split
  · exact leaves_originFrom (ih.chain w hw _ _)
  · refine stays_report hw (fun x hx _ => ?_) hstart hbracket _
    exact (stays_placeholder hx start).bind fun _ y hy => stays_pure hy _

theorem chain_succ (first : Expr) (start : Nat) :
    Stays place n (Parser.chain place (fuel + 1) first start) s := by
  rw [Parser.chain]
  refine stays_step hs fun t ht _ => (ih.links t ht).bind fun links u hu => ?_
  cases links with
  | nil => exact stays_pure hu _
  | cons _ _ => exact leaves_originFrom (stays_pure hu _)

theorem afterLink_stays {start : Nat} (hstart : start ≤ n) (t : Option Tokenizer) :
    Stays place n (afterLink place fuel start t) s := by
  have hplaceholder (u : ParserState) (hu : u.Within place n) :
      Stays place n (do return [← placeholder place start]) u :=
    (stays_placeholder hu start).bind fun _ v hv => stays_pure hv _
  cases t with
  | none => exact (ih.skipCall s hs).bind fun _ u hu => hplaceholder u hu
  | some t =>
    refine leaves_current? ?_
    split
    · next hcurrent =>
      have hleft := Cursor.length_pos (eq_of_beq hcurrent)
      have hbracket := hs.position_lt hleft
      refine leaves_position ((stays_advance hs hleft).bind fun _ u hu => ?_)
      refine (ih.arguments u hu _ _ hbracket).bind fun args v hv => ?_
      split
      · exact leaves_originFrom ((ih.links v hv).bind fun _ w hw => stays_pure hw _)
      · exact stays_report hv (fun w hw _ => hplaceholder w hw) hstart hbracket _
    split
    · refine stays_report hs (fun u hu _ => ?_) (Nat.le_trans (Nat.sub_le _ _) hstart) hstart _
      exact stays_pure hu _
    split
    · exact leaves_originFrom (stays_pure hs _)
    · exact leaves_position (stays_report hs (fun u hu _ => hplaceholder u hu) hstart
        hs.position_le _)

theorem links_succ : Stays place n (Parser.links place (fuel + 1)) s := by
  rw [links_eq]
  refine stays_step hs fun t ht _ => leaves_current? ?_
  split
  · exact stays_pure ht _
  · next hdot =>
    have hleft : 0 < t.cursor.rest.length := Cursor.length_pos (by simpa using hdot)
    refine (stays_advance ht hleft).bind fun _ u hu => leaves_position ?_
    exact (stays_readPath hu _).bind fun path v hv => ih.afterLink_stays hv hu.position_le path

theorem afterGroup_stays {start : Nat} (hstart : start ≤ n) (args : List Argument) :
    Stays place n (afterGroup place fuel start args) s := by
  refine leaves_get ?_
  split
  · exact stays_pure hs _
  refine stays_arrowAhead hs fun s hs hcursor => ?_
  split
  · next harrow =>
    exact leaves_originFrom (ih.lambda s hs (by rw [hcursor]; exact harrow) _ start hstart)
  have hchain (t : ParserState) (ht : t.Within place n) : Stays place n
      (originFrom place start >>= fun o =>
        Parser.chain place fuel (.list o .bracket (args.map Argument.expr)) start) t :=
    leaves_originFrom (ih.chain t ht _ _)
  split
  · exact leaves_position (stays_report hs (fun t ht _ => hchain t ht) hstart hs.position_le _)
  · exact hchain s hs
  · exact leaves_position (stays_report hs (fun t ht _ => hchain t ht) hstart hs.position_le _)

theorem group_succ (h : 0 < s.cursor.rest.length) :
    Stays place n (Parser.group place (fuel + 1)) s := by
  rw [group_eq]
  refine stays_step hs fun t ht hcursor => ?_
  have hleft : 0 < t.cursor.rest.length := by rw [hcursor]; exact h
  refine leaves_position ((stays_advance ht hleft).bind fun _ u hu => ?_)
  exact (ih.arguments u hu _ _ (ht.position_lt hleft)).bind fun args v hv =>
    ih.afterGroup_stays hv ht.position_le args

theorem lambda_succ (h : arrowFollows s.cursor.rest = true) (parameters : Expr) {start : Nat}
    (hstart : start ≤ n) : Stays place n (Parser.lambda place (fuel + 1) parameters start) s := by
  rw [lambda_eq]
  refine stays_step hs fun t ht hcursor => leaves_skipBlanks ?_
  have htwo : 2 ≤ t.cursor.skipBlanks.rest.length := by
    rw [Cursor.rest_skipBlanks, hcursor]
    exact two_le_of_arrow h
  have hbody (u : ParserState) (hu : u.Within place n) : Stays place n
      (Parser.expression place fuel >>= afterBody place parameters start) u :=
    (ih.expression u hu).bind fun body v hv => stays_afterBody hv parameters start body
  refine (stays_advance ht.skipBlanks htwo).bind fun _ u hu => ?_
  dsimp only
  split
  · exact leaves_position (stays_report hu (fun v hv _ => hbody v hv) hstart hu.position_le _)
  · exact hbody u hu

theorem arguments_succ (kind : BracketKind) {start : Nat} (hstart : start < n) :
    Stays place n (Parser.arguments place (fuel + 1) kind start) s := by
  rw [Parser.arguments]
  refine stays_step hs fun t ht _ => stays_openBracket ht (fun u hu _ => ?_) kind hstart
  refine (stays_skipBlanks hu).bind fun _ v hv => leaves_current? ?_
  split
  · next hclosed =>
    refine (stays_advance hv (Cursor.length_pos (eq_of_beq hclosed))).bind fun _ w hw => ?_
    exact (stays_closeBracket hw).bind fun _ x hx => stays_pure hx _
  · exact ih.argumentList v hv kind

theorem afterItem_stays (kind : BracketKind) (start : Nat) (name : Option String)
    (e : Option Expr) : Stays place n (afterItem place fuel kind start name e) s := by
  refine leaves_originFrom ((stays_skipBlanks hs).bind fun _ t ht => leaves_current? ?_)
  cases hcurrent : t.cursor.current? with
  | none => exact (stays_giveUp ht).bind fun _ u hu => stays_pure hu _
  | some c =>
    have hleft := Cursor.length_pos hcurrent
    have hnext (read : List Argument) (u : ParserState) (hu : u.Within place n)
        (hcursor : u.cursor = t.cursor) : Stays place n (do
          advance 1
          return read ++ (← Parser.argumentList place fuel kind)) u := by
      refine (stays_advance hu (by rw [hcursor]; exact hleft)).bind fun _ v hv => ?_
      exact (ih.argumentList v hv kind).bind fun _ w hw => stays_pure hw _
    dsimp only
    split
    · exact (stays_advance ht hleft).bind fun _ u hu => (stays_closeBracket hu).bind fun _ v hv =>
        stays_pure hv _
    split
    · exact stays_reportHere ht (fun u hu hcursor => hnext _ u hu hcursor) hleft _
    · exact hnext _ t ht rfl

theorem item_stays (kind : BracketKind) (start : Nat) (name : Option String) :
    Stays place n (item place fuel kind start name) s :=
  (ih.expression s hs).bind fun e _ ht => ih.afterItem_stays ht kind start name e

theorem argumentList_succ (kind : BracketKind) :
    Stays place n (Parser.argumentList place (fuel + 1) kind) s := by
  rw [argumentList_eq]
  refine stays_step hs fun t ht _ => (stays_skipBlanks ht).bind fun _ u hu => ?_
  refine leaves_position (leaves_current? ?_)
  split
  · next hbracket =>
    have hleft := Cursor.length_pos (eq_of_beq hbracket)
    exact (stays_readArgumentName hu hleft kind).bind fun name v hv =>
      ih.item_stays hv kind _ name
  · exact ih.item_stays hu kind _ none

end ReadingStays

/-- All reading functions stay in the text. -/
theorem reading_stays (place : Placement) (n : Nat) : ∀ fuel, ReadingStays place n fuel
  | 0 => by
    constructor <;> intros <;>
      simp only [expression, operators, operand, pathOperand, skipCall, call, chain, links, group,
        lambda, arguments, argumentList, leaves_failure]
  | fuel + 1 =>
    have ih := reading_stays place n fuel
    { expression := fun _ hs => ih.expression_succ hs
      operators := fun _ hs => ih.operators_succ hs
      operand := fun _ hs => ih.operand_succ hs
      pathOperand := fun _ hs _ => ih.pathOperand_succ hs
      skipCall := fun _ hs => ih.skipCall_succ hs
      call := fun _ hs h t _ => ih.call_succ hs h t
      chain := fun _ hs => ih.chain_succ hs
      links := fun _ hs => ih.links_succ hs
      group := fun _ hs => ih.group_succ hs
      lambda := fun _ hs h parameters _ => ih.lambda_succ hs h parameters
      arguments := fun _ hs kind _ => ih.arguments_succ hs kind
      argumentList := fun _ hs => ih.argumentList_succ hs }

theorem stays_whole {s : ParserState} (hs : s.Within place n) (fuel : Nat) :
    Stays place n (whole place fuel) s := by
  refine (stays_skipBlanks hs).bind fun _ t ht => leaves_current? ?_
  cases t.cursor.current? with
  | none =>
    refine leaves_position (stays_report ht (fun u hu _ => ?_) ht.position_le ht.position_le _)
    exact stays_pure hu _
  | some c =>
    exact ((reading_stays place n fuel).expression t ht).bind fun _ u hu =>
      leaves_get (stays_pure hu _)

theorem within_start (place : Placement) (text : List Char) :
    (start text).Within place text.length :=
  ⟨Nat.zero_add _, fun b hb => (by cases hb), fun d hd => (by cases hd)⟩

end Parser

/-- Every problem is about a piece of the text. -/
theorem covers_of_mem_parseAt {text : List Char} {place : Placement} {d : Diagnostic}
    (h : d ∈ (parseAt text place).diagnostics) : place.Covers text.length d.span := by
  unfold parseAt at h
  split at h
  · cases h
  · next e s hrun =>
    exact (Parser.stays_whole (Parser.within_start place text) _ e s hrun).diagnostics d h

end Stencil
