import Stencil.Proofs.ParserRules

/-!
# What every reading function keeps to

The reading functions are written here as a first part and a second one that has the result of the
first, so that what is claimed of the second part can be stated. Main statement: `reading_across`, a
relation that holds across every change that is ever made to the state holds across every reading
function. So no reading function takes back a problem that was reported (`reading_grows`), and none
moves the cursor back (`reading_forward`).
-/

namespace Stencil.Parser

variable (place : Placement)

/-! ## Second parts -/

/-- Reads what comes after an argument, whose name and expression were read. -/
def afterItem (fuel : Nat) (kind : BracketKind) (start : Nat) (name : Option String)
    (e : Option Expr) : ParserM (List Argument) := do
  let here ← originFrom place start
  let read : List Argument := e.toList.map fun e => ⟨name, here.span, e⟩
  skipBlanks
  match ← current? with
  | some c =>
    if c == ')' then
      advance 1
      closeBracket
      return read
    else
      if c != ',' then reportHere place (.strayCharacter c)
      advance 1
      return read ++ (← argumentList place fuel kind)
  | none =>
    giveUp place
    return read

/-- Reads an argument whose name was read, and the arguments after it. -/
def item (fuel : Nat) (kind : BracketKind) (start : Nat) (name : Option String) :
    ParserM (List Argument) := do
  afterItem place fuel kind start name (← expression place fuel)

/-- Negates the operand after an exclamation mark, if there is one. -/
def afterNot (start : Nat) : Option Expr → ParserM (Option Expr)
  | none => return none
  | some e => return some (.unary (← originFrom place start) 0 .not e)

/-- Puts a minus in front of the number after it. -/
def afterMinus (start : Nat) : Option Expr → ParserM (Option Expr)
  | none => return none
  | some (.number _ literal value) => return some (negate (← originFrom place start) literal value)
  | some other => do
    report place start (start + 1) (.strayOperator "-")
    return some other

/-- Reads the operand that begins at `start` with the character `c`, before the character `next`. -/
def operandAt (fuel start : Nat) (c : Char) (next : Option Char) : ParserM (Option Expr) :=
  if c == '\'' || c == '"' then do
    let literal ← readString place c
    chain place fuel literal start
  else if c == '(' then group place fuel
  else if c == '!' && next != some '=' then do
    advance 1
    afterNot place start (← operand place fuel)
  else if c == '-' && next.any Char.isDigit then do
    advance 1
    afterMinus place start (← operand place fuel)
  else if c == ')' || c == ',' || c == ']' then do
    reportHere place .missingExpression
    return none
  else if c == '[' || c == '\x7b' || c == '\x7d' then do
    reportHere place (.strayCharacter c)
    advance 1
    return none
  else do
    match Operator.atStart? (← rest) with
    | some op =>
      report place start (start + op.width) (.strayOperator op.symbol)
      advance op.width
      operand place fuel
    | none => pathOperand place fuel start

/-- Reads the rest of an operand after the path that it begins with. -/
def afterPath (fuel start : Nat) : Option Tokenizer → ParserM (Option Expr)
  | none => do
    skipCall place fuel
    return some (← placeholder place start)
  | some t => do
    if (← current?) == some '(' then
      call place fuel t start
    else
      match t.path with
      | .error fault =>
        report place start (← position) fault
        return some (← placeholder place start)
      | .ok parts =>
        let origin ← originFrom place start
        match parts with
        | [⟨.number, key⟩] =>
          let literal := key.getD ""
          match Numeral.ofLiteral? literal with
          | some value => return some (.number origin literal value)
          | none => return some (.path origin parts)
        | [⟨.member, _⟩] =>
          if ← arrowAhead then lambda place fuel (.path origin parts) start
          else return some (.path origin parts)
        | _ => return some (.path origin parts)

/-- Reads the rest of a link after its path, and the links after it. -/
def afterLink (fuel start : Nat) : Option Tokenizer → ParserM (List Expr)
  | none => do
    skipCall place fuel
    return [← placeholder place start]
  | some t => do
    if (← current?) == some '(' then
      let bracket ← position
      advance 1
      let args ← arguments place fuel .call bracket
      match t.call with
      | .ok (parts, name) =>
        let link := .call (← originFrom place start) 0 parts name args
        return link :: (← links place fuel)
      | .error fault =>
        report place start (bracket + 1) fault
        return [← placeholder place start]
    else if t.isEmpty then
      report place (start - 1) start .danglingDot
      return []
    else
      match t.path with
      | .ok parts => return [.path (← originFrom place start) parts]
      | .error fault =>
        report place start (← position) fault
        return [← placeholder place start]

/-- Reads what comes after a bracket that begins an operand. -/
def afterGroup (fuel start : Nat) (args : List Argument) : ParserM (Option Expr) := do
  let items := args.map Argument.expr
  if (← get).gaveUp then
    return none
  else if ← arrowAhead then
    let origin ← originFrom place start
    lambda place fuel (.list origin .arguments items) start
  else
    match items with
    | [] => report place start (← position) .missingExpression
    | [_] => pure ()
    | _ => report place start (← position) (.strayCharacter ',')
    chain place fuel (.list (← originFrom place start) .bracket items) start

/-- Makes a lambda of its body, if there is one. -/
def afterBody (parameters : Expr) (start : Nat) : Option Expr → ParserM (Option Expr)
  | none => return none
  | some body => return some (.lambda (← originFrom place start) parameters body)

theorem operand_eq (fuel : Nat) :
    operand place (fuel + 1) = (do
      step
      skipBlanks
      let start ← position
      match ← current? with
      | none =>
        report place start start .missingExpression
        return none
      | some c => operandAt place fuel start c ((← get).cursor.peek? 1)) := by
  rw [operand]
  rfl

theorem pathOperand_eq (fuel start : Nat) :
    pathOperand place (fuel + 1) start = (do
      step
      afterPath place fuel start (← readPath place .leading)) := by
  rw [pathOperand]
  rfl

theorem links_eq (fuel : Nat) :
    links place (fuel + 1) = (do
      step
      if (← current?) != some '.' then
        return []
      else
        advance 1
        let start ← position
        afterLink place fuel start (← readPath place .continuation)) := by
  rw [links]
  rfl

theorem group_eq (fuel : Nat) :
    group place (fuel + 1) = (do
      step
      let start ← position
      advance 1
      afterGroup place fuel start (← arguments place fuel .group start)) := by
  rw [group]
  rfl

theorem lambda_eq (fuel : Nat) (parameters : Expr) (start : Nat) :
    lambda place (fuel + 1) parameters start = (do
      step
      skipBlanks
      advance 2
      if !areParameters parameters then
        report place start (← position) .badLambdaParameter
      afterBody place parameters start (← expression place fuel)) := by
  rw [lambda]
  rfl

theorem argumentList_eq (fuel : Nat) (kind : BracketKind) :
    argumentList place (fuel + 1) kind = (do
      step
      skipBlanks
      let start ← position
      if (← current?) == some '[' then
        item place fuel kind start (← readArgumentName place kind)
      else item place fuel kind start none) := by
  rw [argumentList]
  rfl

/-! ## Relations across reading functions -/

/-- A relation holds across all reading functions for one amount of fuel. -/
structure ReadingAcross (R : ParserState → ParserState → Prop) (fuel : Nat) : Prop where
  expression : Across R (expression place fuel)
  operators : ∀ operands ops, Across R (operators place fuel operands ops)
  operand : Across R (operand place fuel)
  pathOperand : ∀ start, Across R (pathOperand place fuel start)
  skipCall : Across R (skipCall place fuel)
  call : ∀ t start, Across R (call place fuel t start)
  chain : ∀ first start, Across R (chain place fuel first start)
  links : Across R (links place fuel)
  group : Across R (group place fuel)
  lambda : ∀ parameters start, Across R (lambda place fuel parameters start)
  arguments : ∀ kind start, Across R (arguments place fuel kind start)
  argumentList : ∀ kind, Across R (argumentList place fuel kind)

section Steady

variable {R : ParserState → ParserState → Prop} (hR : Steady R)
include hR

theorem Steady.across_afterNot (start : Nat) (e : Option Expr) :
    Across R (afterNot place start e) := by
  cases e with
  | none => exact hR.across_pure _
  | some e => exact hR.across_bind (hR.across_originFrom place start) fun _ => hR.across_pure _

theorem Steady.across_afterMinus (start : Nat) (e : Option Expr) :
    Across R (afterMinus place start e) := by
  unfold afterMinus
  split
  · exact hR.across_pure _
  · exact hR.across_bind (hR.across_originFrom place start) fun _ => hR.across_pure _
  · exact hR.across_bind (hR.across_report place _ _ _) fun _ => hR.across_pure _

theorem Steady.across_afterBody (parameters : Expr) (start : Nat) (body : Option Expr) :
    Across R (afterBody place parameters start body) := by
  cases body with
  | none => exact hR.across_pure _
  | some body => exact hR.across_bind (hR.across_originFrom place start) fun _ => hR.across_pure _

namespace ReadingAcross

variable {place} {fuel : Nat} (ih : ReadingAcross place R fuel)
include ih

theorem expression_succ : Across R (Parser.expression place (fuel + 1)) := by
  rw [Parser.expression]
  refine hR.across_bind hR.across_step fun _ => hR.across_bind ih.operand fun first => ?_
  cases first with
  | none => exact hR.across_pure _
  | some first => exact hR.across_bind (ih.operators _ _) fun _ => hR.across_pure _

theorem operators_succ (operands : List Expr) (ops : List Operator) :
    Across R (Parser.operators place (fuel + 1) operands ops) := by
  rw [Parser.operators]
  refine hR.across_bind hR.across_step fun _ => hR.across_bind hR.across_skipBlanks fun _ => ?_
  refine hR.across_bind hR.across_current? fun c => ?_
  cases c with
  | none => exact hR.across_pure _
  | some c =>
    have hskip (fault : Fault) : Across R (do
        reportHere place fault
        advance 1
        Parser.operators place fuel operands ops) :=
      hR.across_bind (hR.across_reportHere place fault) fun _ =>
        hR.across_bind (hR.across_advance 1) fun _ => ih.operators _ _
    refine hR.across_bind hR.across_get fun s => ?_
    -- Every branch that is no operator reports something or stops.
    split
    · exact hR.across_pure _
    split
    · exact hskip _
    split
    · exact hskip _
    split
    · exact hR.across_bind (hR.across_reportHere place _) fun _ =>
        hR.across_bind (hR.across_readString place c) fun _ => ih.operators _ _
    refine hR.across_bind hR.across_rest fun text => ?_
    split
    · refine hR.across_bind hR.across_position fun _ => ?_
      refine hR.across_bind (hR.across_advance 2) fun _ => ?_
      exact hR.across_bind (hR.across_report place _ _ _) fun _ => ih.operators _ _
    refine hR.across_bind hR.across_rest fun text => ?_
    split
    · exact hskip _
    · refine hR.across_bind (hR.across_advance _) fun _ => hR.across_bind hR.across_step fun _ => ?_
      refine hR.across_bind ih.operand fun right => ?_
      cases right with
      | none => exact hR.across_pure _
      | some right => exact ih.operators _ _

theorem operandAt_across (start : Nat) (c : Char) (next : Option Char) :
    Across R (operandAt place fuel start c next) := by
  unfold operandAt
  split
  · exact hR.across_bind (hR.across_readString place c) fun _ => ih.chain _ _
  split
  · exact ih.group
  split
  · exact hR.across_bind (hR.across_advance 1) fun _ =>
      hR.across_bind ih.operand (hR.across_afterNot place start)
  split
  · exact hR.across_bind (hR.across_advance 1) fun _ =>
      hR.across_bind ih.operand (hR.across_afterMinus place start)
  split
  · exact hR.across_bind (hR.across_reportHere place _) fun _ => hR.across_pure _
  split
  · exact hR.across_bind (hR.across_reportHere place _) fun _ =>
      hR.across_bind (hR.across_advance 1) fun _ => hR.across_pure _
  refine hR.across_bind hR.across_rest fun text => ?_
  split
  · exact hR.across_bind (hR.across_report place _ _ _) fun _ =>
      hR.across_bind (hR.across_advance _) fun _ => ih.operand
  · exact ih.pathOperand start

theorem operand_succ : Across R (Parser.operand place (fuel + 1)) := by
  rw [operand_eq]
  refine hR.across_bind hR.across_step fun _ => hR.across_bind hR.across_skipBlanks fun _ => ?_
  refine hR.across_bind hR.across_position fun start => ?_
  refine hR.across_bind hR.across_current? fun c => ?_
  cases c with
  | none => exact hR.across_bind (hR.across_report place _ _ _) fun _ => hR.across_pure _
  | some c => exact hR.across_bind hR.across_get fun s => ih.operandAt_across hR start c _

theorem afterPath_across (start : Nat) (t : Option Tokenizer) :
    Across R (afterPath place fuel start t) := by
  have hplaceholder := hR.across_bind (hR.across_placeholder place start) fun e =>
    hR.across_pure (some e)
  cases t with
  | none => exact hR.across_bind ih.skipCall fun _ => hplaceholder
  | some t =>
    refine hR.across_bind hR.across_current? fun c => ?_
    split
    · exact ih.call t start
    split
    · exact hR.across_bind hR.across_position fun _ =>
        hR.across_bind (hR.across_report place _ _ _) fun _ => hplaceholder
    · refine hR.across_bind (hR.across_originFrom place start) fun o => ?_
      split
      · dsimp only
        split <;> exact hR.across_pure _
      · refine hR.across_bind hR.across_arrowAhead fun arrow => ?_
        split
        · exact ih.lambda _ _
        · exact hR.across_pure _
      · exact hR.across_pure _

theorem pathOperand_succ (start : Nat) :
    Across R (Parser.pathOperand place (fuel + 1) start) := by
  rw [pathOperand_eq]
  exact hR.across_bind hR.across_step fun _ =>
    hR.across_bind (hR.across_readPath place _) (ih.afterPath_across hR start)

theorem skipCall_succ : Across R (Parser.skipCall place (fuel + 1)) := by
  rw [Parser.skipCall]
  refine hR.across_bind hR.across_step fun _ => hR.across_bind hR.across_current? fun c => ?_
  split
  · refine hR.across_bind hR.across_position fun _ => ?_
    refine hR.across_bind (hR.across_advance 1) fun _ => ?_
    exact hR.across_bind (ih.arguments _ _) fun _ => hR.across_pure _
  · exact hR.across_pure _

theorem call_succ (t : Tokenizer) (start : Nat) :
    Across R (Parser.call place (fuel + 1) t start) := by
  rw [Parser.call]
  refine hR.across_bind hR.across_step fun _ => hR.across_bind hR.across_position fun _ => ?_
  refine hR.across_bind (hR.across_advance 1) fun _ => ?_
  refine hR.across_bind (ih.arguments _ _) fun args => ?_
  split
  · exact hR.across_bind (hR.across_originFrom place start) fun _ => ih.chain _ _
  · exact hR.across_bind (hR.across_report place _ _ _) fun _ =>
      hR.across_bind (hR.across_placeholder place start) fun _ => hR.across_pure _

theorem chain_succ (first : Expr) (start : Nat) :
    Across R (Parser.chain place (fuel + 1) first start) := by
  rw [Parser.chain]
  refine hR.across_bind hR.across_step fun _ => hR.across_bind ih.links fun links => ?_
  cases links with
  | nil => exact hR.across_pure _
  | cons _ _ => exact hR.across_bind (hR.across_originFrom place start) fun _ => hR.across_pure _

theorem afterLink_across (start : Nat) (t : Option Tokenizer) :
    Across R (afterLink place fuel start t) := by
  have hplaceholder := hR.across_bind (hR.across_placeholder place start) fun e =>
    hR.across_pure [e]
  cases t with
  | none => exact hR.across_bind ih.skipCall fun _ => hplaceholder
  | some t =>
    refine hR.across_bind hR.across_current? fun c => ?_
    split
    · refine hR.across_bind hR.across_position fun _ => ?_
      refine hR.across_bind (hR.across_advance 1) fun _ => ?_
      refine hR.across_bind (ih.arguments _ _) fun args => ?_
      split
      · exact hR.across_bind (hR.across_originFrom place start) fun _ =>
          hR.across_bind ih.links fun _ => hR.across_pure _
      · exact hR.across_bind (hR.across_report place _ _ _) fun _ => hplaceholder
    split
    · exact hR.across_bind (hR.across_report place _ _ _) fun _ => hR.across_pure _
    split
    · exact hR.across_bind (hR.across_originFrom place start) fun _ => hR.across_pure _
    · exact hR.across_bind hR.across_position fun _ =>
        hR.across_bind (hR.across_report place _ _ _) fun _ => hplaceholder

theorem links_succ : Across R (Parser.links place (fuel + 1)) := by
  rw [links_eq]
  refine hR.across_bind hR.across_step fun _ => hR.across_bind hR.across_current? fun c => ?_
  split
  · exact hR.across_pure _
  · refine hR.across_bind (hR.across_advance 1) fun _ => ?_
    exact hR.across_bind hR.across_position fun start =>
      hR.across_bind (hR.across_readPath place _) (ih.afterLink_across hR start)

theorem afterGroup_across (start : Nat) (args : List Argument) :
    Across R (afterGroup place fuel start args) := by
  refine hR.across_bind hR.across_get fun s => ?_
  split
  · exact hR.across_pure _
  refine hR.across_bind hR.across_arrowAhead fun arrow => ?_
  split
  · exact hR.across_bind (hR.across_originFrom place start) fun _ => ih.lambda _ _
  have hchain : Across R (originFrom place start >>= fun o =>
      Parser.chain place fuel (.list o .bracket (args.map Argument.expr)) start) :=
    hR.across_bind (hR.across_originFrom place start) fun _ => ih.chain _ _
  split
  · exact hR.across_bind hR.across_position fun _ =>
      hR.across_bind (hR.across_report place _ _ _) fun _ => hchain
  · exact hchain
  · exact hR.across_bind hR.across_position fun _ =>
      hR.across_bind (hR.across_report place _ _ _) fun _ => hchain

theorem group_succ : Across R (Parser.group place (fuel + 1)) := by
  rw [group_eq]
  refine hR.across_bind hR.across_step fun _ => hR.across_bind hR.across_position fun start => ?_
  exact hR.across_bind (hR.across_advance 1) fun _ =>
    hR.across_bind (ih.arguments _ _) (ih.afterGroup_across hR start)

theorem lambda_succ (parameters : Expr) (start : Nat) :
    Across R (Parser.lambda place (fuel + 1) parameters start) := by
  rw [lambda_eq]
  refine hR.across_bind hR.across_step fun _ => hR.across_bind hR.across_skipBlanks fun _ => ?_
  refine hR.across_bind (hR.across_advance 2) fun _ => ?_
  have hbody := hR.across_bind ih.expression (hR.across_afterBody place parameters start)
  dsimp only
  split
  · exact hR.across_bind hR.across_position fun _ =>
      hR.across_bind (hR.across_report place _ _ _) fun _ => hbody
  · exact hbody

theorem arguments_succ (kind : BracketKind) (start : Nat) :
    Across R (Parser.arguments place (fuel + 1) kind start) := by
  rw [Parser.arguments]
  refine hR.across_bind hR.across_step fun _ => ?_
  refine hR.across_bind (hR.across_openBracket _ _) fun _ => ?_
  refine hR.across_bind hR.across_skipBlanks fun _ => hR.across_bind hR.across_current? fun c => ?_
  split
  · exact hR.across_bind (hR.across_advance 1) fun _ =>
      hR.across_bind hR.across_closeBracket fun _ => hR.across_pure _
  · exact ih.argumentList kind

theorem afterItem_across (kind : BracketKind) (start : Nat) (name : Option String)
    (e : Option Expr) : Across R (afterItem place fuel kind start name e) := by
  refine hR.across_bind (hR.across_originFrom place start) fun here => ?_
  refine hR.across_bind hR.across_skipBlanks fun _ => hR.across_bind hR.across_current? fun c => ?_
  cases c with
  | none => exact hR.across_bind (hR.across_giveUp place) fun _ => hR.across_pure _
  | some c =>
    have hnext (read : List Argument) : Across R (do
        advance 1
        return read ++ (← Parser.argumentList place fuel kind)) :=
      hR.across_bind (hR.across_advance 1) fun _ =>
        hR.across_bind (ih.argumentList kind) fun _ => hR.across_pure _
    dsimp only
    split
    · exact hR.across_bind (hR.across_advance 1) fun _ =>
        hR.across_bind hR.across_closeBracket fun _ => hR.across_pure _
    split
    · exact hR.across_bind (hR.across_reportHere place _) fun _ => hnext _
    · exact hnext _

theorem item_across (kind : BracketKind) (start : Nat) (name : Option String) :
    Across R (item place fuel kind start name) :=
  hR.across_bind ih.expression (ih.afterItem_across hR kind start name)

theorem argumentList_succ (kind : BracketKind) :
    Across R (Parser.argumentList place (fuel + 1) kind) := by
  rw [argumentList_eq]
  refine hR.across_bind hR.across_step fun _ => hR.across_bind hR.across_skipBlanks fun _ => ?_
  refine hR.across_bind hR.across_position fun start => ?_
  refine hR.across_bind hR.across_current? fun c => ?_
  split
  · exact hR.across_bind (hR.across_readArgumentName place kind) fun _ =>
      ih.item_across hR kind start _
  · exact ih.item_across hR kind start none

end ReadingAcross

/-- What holds across every change to the state holds across all reading functions. -/
theorem Steady.reading_across (place : Placement) : ∀ fuel, ReadingAcross place R fuel
  | 0 => by
    constructor <;> intros <;>
      simp only [expression, operators, operand, pathOperand, skipCall, call, chain, links, group,
        lambda, arguments, argumentList, across_failure]
  | fuel + 1 =>
    have ih := Steady.reading_across place fuel
    ⟨ih.expression_succ hR, ih.operators_succ hR, ih.operand_succ hR, ih.pathOperand_succ hR,
      ih.skipCall_succ hR, ih.call_succ hR, ih.chain_succ hR, ih.links_succ hR, ih.group_succ hR,
      ih.lambda_succ hR, ih.arguments_succ hR, ih.argumentList_succ hR⟩

theorem Steady.across_whole (place : Placement) (fuel : Nat) : Across R (whole place fuel) := by
  refine hR.across_bind hR.across_skipBlanks fun _ => hR.across_bind hR.across_current? fun c => ?_
  cases c with
  | none =>
    refine hR.across_bind hR.across_position fun _ => ?_
    exact hR.across_bind (hR.across_report place _ _ _) fun _ => hR.across_pure _
  | some c =>
    refine hR.across_bind (hR.reading_across place fuel).expression fun e => ?_
    exact hR.across_bind hR.across_get fun s => hR.across_pure _

end Steady

/-- No reading function ever takes a problem back. -/
theorem reading_grows (fuel : Nat) :
    ReadingAcross place (fun s t => s.diagnostics.length ≤ t.diagnostics.length) fuel :=
  growing.reading_across place fuel

/-- The cursor is at the same text as before, at the same place or further on. -/
structure Forward (s t : ParserState) : Prop where
  input : t.cursor.input = s.cursor.input
  position : s.cursor.position ≤ t.cursor.position

theorem forward : Steady Forward where
  refl _ := ⟨rfl, Nat.le_refl _⟩
  trans h h' := ⟨h'.input.trans h.input, Nat.le_trans h.position h'.position⟩
  count _ _ := ⟨rfl, Nat.le_refl _⟩
  advance _ _ := ⟨rfl, Nat.le_add_right _ _⟩
  report _ _ := ⟨rfl, Nat.le_refl _⟩
  openBracket _ _ := ⟨rfl, Nat.le_refl _⟩
  closeBracket _ := ⟨rfl, Nat.le_refl _⟩
  dropBracket _ := ⟨rfl, Nat.le_refl _⟩
  giveUp _ := ⟨rfl, Nat.le_refl _⟩

/-- Of some steps nothing else needs to be known than that they do not move the cursor back. -/
theorem leaves_onward {α β : Type} {s : ParserState} {m : ParserM α} {f : α → ParserM β}
    {Q : β → ParserState → Prop} (hm : Across Forward m)
    (hf : ∀ a t, s.cursor.position ≤ t.cursor.position → Leaves (f a) t Q) :
    Leaves (m >>= f) s Q :=
  Leaves.bind (hm s) fun a t ht => hf a t ht.position

/-- No reading function ever moves the cursor back. -/
theorem reading_forward (fuel : Nat) : ReadingAcross place Forward fuel :=
  forward.reading_across place fuel

end Stencil.Parser
