import Stencil.Proofs.Growing
import Stencil.Proofs.Precedence
import Stencil.Proofs.WellShaped

/-!
# What the parser makes of a run

The parser joins the operands of a run while it reads it. Here the run is read first, without any
stacks (`readRun`), and `expression_eq` says that reading an expression is that and then making the
tree of the run. What comes between the operators, and is reported and skipped, is in neither.

`Returns` states what holds of every result of a step, whatever was reported. With it the operands
are shown to be no operators themselves, and all trees inside them to be arranged
(`reading_orders`). Main statement: `operators_follow_precedence`.
-/

namespace Stencil

/-! ## Trees whose operators all follow precedence -/

/-- Whether all operators of a tree stand where their precedence puts them. -/
def Expr.Ordered (e : Expr) : Prop :=
  e.everyNode (fun _ node => node.FollowsPrecedence) .free

/-- Whether an expression can be an operand of a run, with nothing out of order inside it. -/
structure Expr.IsOperand (e : Expr) : Prop where
  operator? : e.operator? = none
  ordered : e.Ordered

namespace Expr

/-- What a node is used for makes no difference to where operators stand. -/
theorem Ordered.everyNode {e : Expr} (h : e.Ordered) (role : Role) :
    e.everyNode (fun _ node => node.FollowsPrecedence) role := by
  cases e with
  | list o kind items => cases kind <;> exact h
  | _ => exact h

theorem everyItem_of_ordered {items : List Expr} (h : ∀ e ∈ items, e.Ordered) (role : Role) :
    everyItem (fun _ node => node.FollowsPrecedence) role items := by
  induction items with
  | nil => trivial
  | cons e items ih =>
    obtain ⟨he, hitems⟩ := List.forall_mem_cons.mp h
    exact ⟨he.everyNode role, ih hitems⟩

theorem isOperand_path (o : Origin) (parts : Path) : (path o parts).IsOperand :=
  ⟨rfl, trivial⟩

theorem isOperand_string (o : Origin) (delimiter : Char) (fragments : List Fragment) :
    (string o delimiter fragments).IsOperand :=
  ⟨rfl, trivial⟩

theorem isOperand_number (o : Origin) (literal : String) (value : Numeral) :
    (number o literal value).IsOperand :=
  ⟨rfl, trivial⟩

theorem isOperand_list (o : Origin) (kind : ListKind) {items : List Expr}
    (h : ∀ e ∈ items, e.Ordered) : (list o kind items).IsOperand := by
  refine ⟨rfl, ?_⟩
  cases kind with
  | bracket => exact ⟨trivial, everyItem_of_ordered h _⟩
  | arguments => exact ⟨trivial, everyItem_of_ordered h _⟩
  | chain =>
    cases items with
    | nil => exact ⟨trivial, trivial⟩
    | cons first links =>
      obtain ⟨hfirst, hlinks⟩ := List.forall_mem_cons.mp h
      exact ⟨trivial, hfirst, everyItem_of_ordered hlinks _⟩

theorem isOperand_call (o : Origin) (site : Nat) (parts : Path) (name : String)
    {args : List Argument} (h : ∀ a ∈ args, a.expr.Ordered) :
    (call o site parts name args).IsOperand := by
  refine ⟨rfl, trivial, ?_⟩
  induction args with
  | nil => trivial
  | cons a args ih =>
    obtain ⟨_, _, e⟩ := a
    obtain ⟨ha, hargs⟩ := List.forall_mem_cons.mp h
    exact ⟨ha, ih hargs⟩

theorem isOperand_unary (o : Origin) (site : Nat) (op : Operator) {e : Expr} (h : e.Ordered) :
    (unary o site op e).IsOperand :=
  ⟨rfl, trivial, h⟩

theorem isOperand_lambda (o : Origin) {parameters body : Expr} (hparameters : parameters.Ordered)
    (hbody : body.Ordered) : (lambda o parameters body).IsOperand :=
  ⟨rfl, trivial, hparameters.everyNode _, hbody⟩

/-- The operators of an arranged tree follow precedence if those inside its operands do. -/
theorem ordered_of_arranged :
    ∀ {e : Expr}, e.Arranged → (∀ x ∈ e.run.operands, x.Ordered) → e.Ordered
  | binary _ _ op left right, he, hoperands => by
    obtain ⟨hroot, hleft, hright⟩ := he
    have hsides : ∀ x ∈ left.run.operands ++ right.run.operands, x.Ordered := by
      rw [← Run.operands_extend left.run right.run op]
      exact hoperands
    obtain ⟨hleftOperands, hrightOperands⟩ := List.forall_mem_append.mp hsides
    exact ⟨hroot, ordered_of_arranged hleft hleftOperands,
      ordered_of_arranged hright hrightOperands⟩
  | path .., _, h | string .., _, h | number .., _, h | list .., _, h | call .., _, h
  | unary .., _, h | lambda .., _, h => h _ (List.mem_singleton_self _)

/-! Origins and sites make no difference. -/

theorem operator?_bare (e : Expr) : e.bare.operator? = e.operator? := by
  cases e <;> rfl

theorem followsPrecedence_bare (e : Expr) : e.bare.FollowsPrecedence ↔ e.FollowsPrecedence := by
  cases e with
  | binary o site op left right =>
    simp only [bare, FollowsPrecedence, operator?_bare]
  | _ => rfl

theorem FollowsPrecedence.of_bare {e e' : Expr} (h : e'.bare = e.bare) (he : e.FollowsPrecedence) :
    e'.FollowsPrecedence := by
  rwa [← followsPrecedence_bare, h, followsPrecedence_bare]

end Expr

/-- A run without origins and sites. -/
def Run.bare (r : Run) : Run :=
  (r.1.bare, r.2.map fun pair => (pair.1, pair.2.bare))

theorem Run.bare_extend (r s : Run) (op : Operator) :
    (r.extend op s).bare = r.bare.extend op s.bare := by
  simp [Run.bare, Run.extend]

theorem Expr.run_bare : ∀ e : Expr, e.bare.run = e.run.bare
  | binary _ _ op left right => by
    rw [run, Run.bare_extend, ← run_bare left, ← run_bare right]
    rfl
  | path .. | string .. | number .. | list .. | call .. | unary .. | lambda .. => rfl

namespace Parser

variable (place : Placement)

/-! ## Reading a run -/

/-- What a turn of the loop over the operators of a run comes to. -/
inductive Turn where
  /-- The run ends here. -/
  | stop
  /-- Something was reported and skipped. -/
  | again
  /-- An operator was read. -/
  | operator (op : Operator)

/-- A turn of the loop, up to the right operand of the operator. -/
def turn : ParserM Turn := do
  step
  skipBlanks
  match ← current? with
  | none => return .stop
  | some c =>
    if (c == ')' || c == ',') && !(← get).brackets.isEmpty then
      return .stop
    else if c == ')' then
      reportHere place (.unmatchedBracket ')')
      advance 1
      return .again
    else if c == ',' then
      reportHere place (.strayCharacter ',')
      advance 1
      return .again
    else if c == '\'' || c == '"' then
      reportHere place (.strayDelimiter c)
      let _ ← readString place c
      return .again
    else if ['=', '>'].isPrefixOf (← rest) then
      let start ← position
      advance 2
      report place start (start + 2) (.strayOperator "=>")
      return .again
    else
      match Operator.atStart? (← rest) with
      | none =>
        reportHere place (.strayCharacter c)
        advance 1
        return .again
      | some op =>
        advance op.width
        step
        return .operator op

/-- Reads the operators of a run, each with the operand after it. -/
def pairs : Nat → ParserM (List (Operator × Expr))
  | 0 => failure
  | fuel + 1 => do
    match ← turn place with
    | .stop => return []
    | .again => pairs fuel
    | .operator op =>
      match ← operand place fuel with
      | none => return []
      | some right => return (op, right) :: (← pairs fuel)

/-- Reads a run. -/
def readRun : Nat → ParserM (Option Run)
  | 0 => failure
  | fuel + 1 => do
    step
    match ← operand place fuel with
    | none => return none
    | some first => return some (first, ← pairs place fuel)

theorem operators_eq (fuel : Nat) (operands : List Expr) (ops : List Operator) :
    operators place (fuel + 1) operands ops = (do
      match ← turn place with
      | .stop => return (operands, ops)
      | .again => operators place fuel operands ops
      | .operator op =>
        let (operands, ops) := reduce op.precedence operands ops
        match ← operand place fuel with
        | some right => operators place fuel (right :: operands) (op :: ops)
        | none => return (operands, ops)) := by
  rw [operators, turn]
  simp only [bind_assoc]
  refine bind_congr fun _ => bind_congr fun _ => bind_congr fun c => ?_
  cases c with
  | none => simp only [pure_bind]
  | some c =>
    simp only [bind_assoc]
    refine bind_congr fun s => ?_
    split
    · simp only [pure_bind]
    split
    · simp only [bind_assoc, pure_bind]
    split
    · simp only [bind_assoc, pure_bind]
    split
    · simp only [bind_assoc, pure_bind]
    simp only [bind_assoc]
    refine bind_congr fun text => ?_
    split
    · simp only [bind_assoc, pure_bind]
    simp only [bind_assoc]
    refine bind_congr fun text => ?_
    cases Operator.atStart? text with
    | none => rfl
    | some op => rfl

/-- Joining everything after the operators were read onto stacks, or after the pairs were. -/
theorem operators_joined (fuel : Nat) (operands : List Expr) (ops : List Operator) :
    (do
      let held ← operators place fuel operands ops
      return reduce 0 held.1 held.2) = (do
      let read ← pairs place fuel
      let pushed := pushAll operands ops read
      return reduce 0 pushed.1 pushed.2) := by
  induction fuel generalizing operands ops with
  | zero =>
    rw [operators, pairs]
    rfl
  | succ fuel ih =>
    rw [operators_eq, pairs]
    simp only [bind_assoc]
    refine bind_congr fun found => ?_
    cases found with
    | stop => simp only [pure_bind, pushAll]
    | again => exact ih operands ops
    | operator op =>
      simp only [bind_assoc]
      refine bind_congr fun right => ?_
      cases right with
      | none =>
        -- What the operator without an operand has joined would be joined in the end.
        simp only [pure_bind, pushAll, reduce_zero_reduce]
      | some right =>
        simp only [bind_assoc, pure_bind, pushAll]
        exact ih _ _

/-- An expression is read by reading its run, and is the tree of the run. -/
theorem expression_eq (fuel : Nat) :
    expression place fuel = (do return (← readRun place fuel).bind treeOf) := by
  cases fuel with
  | zero => rw [expression, readRun]; rfl
  | succ fuel =>
    rw [expression, readRun]
    simp only [bind_assoc]
    refine bind_congr fun _ => bind_congr fun first => ?_
    cases first with
    | none => simp only [pure_bind, Option.bind_none]
    | some first =>
      have hjoined := operators_joined place fuel [first] []
      have hhead := congrArg (fun m => m >>= fun held => pure held.1.head?) hjoined
      simp only [bind_assoc, pure_bind] at hhead ⊢
      exact hhead

/-! ## What holds of all results -/

variable {α β : Type}

/-- Whether all results of the step are as `P` says, whatever it reports. -/
def Returns (m : ParserM α) (P : α → Prop) : Prop :=
  ∀ s a s', m s = some (a, s') → P a

section Returns

variable {P : α → Prop} {Q : β → Prop}

theorem returns_pure {a : α} (h : P a) : Returns (pure a) P := by
  rintro s a' s' ⟨⟩
  exact h

theorem returns_failure : Returns (failure : ParserM α) P := by
  rintro s a s' ⟨⟩

theorem Returns.bind {m : ParserM α} {f : α → ParserM β} (hm : Returns m P)
    (hf : ∀ a, P a → Returns (f a) Q) : Returns (m >>= f) Q := by
  intro s b s' h
  obtain ⟨a, s₁, hfirst, hsecond⟩ := exists_of_bind h
  exact hf a (hm s a s₁ hfirst) s₁ b s' hsecond

/-- Nothing needs to be known of what a step returns that only finds its way. -/
theorem returns_after {m : ParserM α} {f : α → ParserM β} (hf : ∀ a, Returns (f a) Q) :
    Returns (m >>= f) Q := by
  intro s b s' h
  obtain ⟨a, s₁, -, hsecond⟩ := exists_of_bind h
  exact hf a s₁ b s' hsecond

/-- Anything holds of all that is in an empty list. -/
theorem returns_nil : Returns (pure [] : ParserM (List α)) fun read => ∀ x ∈ read, P x :=
  returns_pure (List.forall_mem_nil P)

end Returns

theorem returns_placeholder (start : Nat) :
    Returns (placeholder place start) Expr.IsOperand :=
  returns_after fun _ => returns_pure (Expr.isOperand_path _ _)

theorem returns_readString (delimiter : Char) :
    Returns (readString place delimiter) Expr.IsOperand := by
  refine returns_after fun _ => ?_
  refine returns_after fun start => returns_after fun _ => returns_after fun text => ?_
  refine returns_after fun _ => ?_
  have hend := returns_after (m := originFrom place start) fun o =>
    returns_pure (Expr.isOperand_string o delimiter (scanString delimiter text).fragments)
  cases (scanString delimiter text).closed with
  | true => exact hend
  | false => exact returns_after fun _ => returns_after fun _ => hend

/-! ## Operands -/

/-- Whether what the step returns can only be an operand. -/
abbrev ReturnsOperand (m : ParserM (Option Expr)) : Prop :=
  Returns m fun e => ∀ x ∈ e, x.IsOperand

/-- Whether nothing is out of order inside the arguments that the step returns. -/
abbrev ReturnsOrdered (m : ParserM (List Argument)) : Prop :=
  Returns m fun args => ∀ a ∈ args, a.expr.Ordered

/-- What holds of all reading functions for one amount of fuel: no operand that they read is joined
of others, and nothing inside what they read is out of order. -/
structure ReadingOrders (fuel : Nat) : Prop where
  expression : Returns (expression place fuel) fun e => ∀ x ∈ e, x.Ordered
  pairs : Returns (pairs place fuel) fun read => ∀ pair ∈ read, pair.2.IsOperand
  operand : ReturnsOperand (operand place fuel)
  pathOperand : ∀ start, ReturnsOperand (pathOperand place fuel start)
  call : ∀ t start, ReturnsOperand (call place fuel t start)
  chain : ∀ {first : Expr} (start), first.IsOperand → ReturnsOperand (chain place fuel first start)
  links : Returns (links place fuel) fun read => ∀ x ∈ read, x.IsOperand
  group : ReturnsOperand (group place fuel)
  lambda : ∀ {parameters : Expr} (start), parameters.Ordered →
    ReturnsOperand (lambda place fuel parameters start)
  arguments : ∀ kind start, ReturnsOrdered (arguments place fuel kind start)
  argumentList : ∀ kind, ReturnsOrdered (argumentList place fuel kind)

variable {place}

/-- There is no operand. -/
theorem returns_none : ReturnsOperand (pure none) :=
  returns_pure (by simp)

/-- There is this operand. -/
theorem returns_some {e : Expr} (h : e.IsOperand) : ReturnsOperand (pure (some e)) := by
  refine returns_pure ?_
  rintro _ ⟨⟩
  exact h

theorem returns_somePlaceholder (start : Nat) :
    ReturnsOperand (placeholder place start >>= fun e => pure (some e)) :=
  (returns_placeholder place start).bind fun _ => returns_some

theorem returns_onlyPlaceholder (start : Nat) :
    Returns (placeholder place start >>= fun e => pure [e]) fun read => ∀ x ∈ read, x.IsOperand :=
  (returns_placeholder place start).bind fun _ he =>
    returns_pure (List.forall_mem_singleton.mpr he)

theorem returns_afterNot (start : Nat) {e : Option Expr} (he : ∀ x ∈ e, x.IsOperand) :
    ReturnsOperand (afterNot place start e) := by
  cases e with
  | none => exact returns_none
  | some e =>
    exact returns_after fun _ => returns_some (Expr.isOperand_unary _ _ _ (he e rfl).ordered)

theorem returns_afterMinus (start : Nat) {e : Option Expr} (he : ∀ x ∈ e, x.IsOperand) :
    ReturnsOperand (afterMinus place start e) := by
  unfold afterMinus
  split
  · exact returns_none
  · exact returns_after fun _ => returns_some (Expr.isOperand_number _ _ _)
  · next other _ => exact returns_after fun _ => returns_some (he other rfl)

theorem returns_afterBody {parameters : Expr} (hparameters : parameters.Ordered) (start : Nat)
    {body : Option Expr} (hbody : ∀ x ∈ body, x.Ordered) :
    ReturnsOperand (afterBody place parameters start body) := by
  cases body with
  | none => exact returns_none
  | some body =>
    exact returns_after fun _ => returns_some (Expr.isOperand_lambda _ hparameters (hbody body rfl))

namespace ReadingOrders

variable {fuel : Nat} (ih : ReadingOrders place fuel)
include ih

theorem readRun_succ : Returns (readRun place (fuel + 1)) fun r =>
    ∀ run ∈ r, ∀ x ∈ run.operands, x.IsOperand := by
  rw [readRun]
  refine returns_after fun _ => ih.operand.bind fun first hfirst => ?_
  cases first with
  | none => exact returns_pure (by simp)
  | some first =>
    refine ih.pairs.bind fun read hread => returns_pure ?_
    rintro _ ⟨⟩
    exact List.forall_mem_cons.mpr ⟨hfirst first rfl, List.forall_mem_map.mpr hread⟩

theorem expression_succ :
    Returns (Parser.expression place (fuel + 1)) fun e => ∀ x ∈ e, x.Ordered := by
  rw [expression_eq]
  refine ih.readRun_succ.bind fun r hr => returns_pure ?_
  cases r with
  | none => simp
  | some run =>
    have hoperands := hr run rfl
    obtain ⟨e, htree, hrun, harranged⟩ := exists_treeOf fun x hx => (hoperands x hx).operator?
    rw [Option.bind_some, htree]
    rintro _ ⟨⟩
    exact Expr.ordered_of_arranged harranged fun x hx => (hoperands x (hrun ▸ hx)).ordered

theorem pairs_succ :
    Returns (Parser.pairs place (fuel + 1)) fun read => ∀ pair ∈ read, pair.2.IsOperand := by
  rw [Parser.pairs]
  refine returns_after fun found => ?_
  cases found with
  | stop => exact returns_nil
  | again => exact ih.pairs
  | operator op =>
    refine ih.operand.bind fun right hright => ?_
    cases right with
    | none => exact returns_nil
    | some right =>
      exact ih.pairs.bind fun read hread =>
        returns_pure (List.forall_mem_cons.mpr ⟨hright right rfl, hread⟩)

theorem operandAt_orders (start : Nat) (c : Char) (next : Option Char) :
    ReturnsOperand (operandAt place fuel start c next) := by
  unfold operandAt
  split
  · exact (returns_readString place c).bind fun _ => ih.chain start
  split
  · exact ih.group
  split
  · exact returns_after fun _ => ih.operand.bind fun _ => returns_afterNot start
  split
  · exact returns_after fun _ => ih.operand.bind fun _ => returns_afterMinus start
  split
  · exact returns_after fun _ => returns_none
  split
  · exact returns_after fun _ => returns_after fun _ => returns_none
  refine returns_after fun text => ?_
  split
  · exact returns_after fun _ => returns_after fun _ => ih.operand
  · exact ih.pathOperand start

theorem operand_succ :
    ReturnsOperand (Parser.operand place (fuel + 1)) := by
  rw [operand_eq]
  refine returns_after fun _ => returns_after fun _ => returns_after fun start => ?_
  refine returns_after fun c => ?_
  cases c with
  | none => exact returns_after fun _ => returns_none
  | some c => exact returns_after fun _ => ih.operandAt_orders start c _

theorem afterPath_orders (start : Nat) (t : Option Tokenizer) :
    ReturnsOperand (afterPath place fuel start t) := by
  cases t with
  | none => exact returns_after fun _ => returns_somePlaceholder start
  | some t =>
    refine returns_after fun c => ?_
    split
    · exact ih.call t start
    split
    · exact returns_after fun _ => returns_after fun _ => returns_somePlaceholder start
    · refine returns_after fun o => ?_
      split
      · dsimp only
        split
        · exact returns_some (Expr.isOperand_number _ _ _)
        · exact returns_some (Expr.isOperand_path _ _)
      · refine returns_after fun text => ?_
        split
        · exact ih.lambda start (Expr.isOperand_path _ _).ordered
        · exact returns_some (Expr.isOperand_path _ _)
      · exact returns_some (Expr.isOperand_path _ _)

theorem pathOperand_succ (start : Nat) :
    ReturnsOperand (Parser.pathOperand place (fuel + 1) start) := by
  rw [pathOperand_eq]
  exact returns_after fun _ => returns_after (ih.afterPath_orders start)

theorem call_succ (t : Tokenizer) (start : Nat) :
    ReturnsOperand (Parser.call place (fuel + 1) t start) := by
  rw [Parser.call]
  refine returns_after fun _ => returns_after fun _ => returns_after fun _ => ?_
  refine (ih.arguments _ _).bind fun args hargs => ?_
  split
  · exact returns_after fun _ => ih.chain start (Expr.isOperand_call _ _ _ _ hargs)
  · exact returns_after fun _ => returns_somePlaceholder start

theorem chain_succ {first : Expr} (start : Nat) (hfirst : first.IsOperand) :
    ReturnsOperand (Parser.chain place (fuel + 1) first start) := by
  rw [Parser.chain]
  refine returns_after fun _ => ih.links.bind fun links hlinks => ?_
  cases links with
  | nil => exact returns_some hfirst
  | cons link links =>
    refine returns_after fun _ => returns_some (Expr.isOperand_list _ _ ?_)
    exact List.forall_mem_cons.mpr ⟨hfirst.ordered, fun x hx => (hlinks x hx).ordered⟩

theorem afterLink_orders (start : Nat) (t : Option Tokenizer) :
    Returns (afterLink place fuel start t) fun read => ∀ x ∈ read, x.IsOperand := by
  cases t with
  | none => exact returns_after fun _ => returns_onlyPlaceholder start
  | some t =>
    refine returns_after fun c => ?_
    split
    · refine returns_after fun _ => returns_after fun _ => ?_
      refine (ih.arguments _ _).bind fun args hargs => ?_
      split
      · exact returns_after fun _ => ih.links.bind fun links hlinks => returns_pure
          (List.forall_mem_cons.mpr ⟨Expr.isOperand_call _ _ _ _ hargs, hlinks⟩)
      · exact returns_after fun _ => returns_onlyPlaceholder start
    split
    · exact returns_after fun _ => returns_nil
    split
    · exact returns_after fun _ =>
        returns_pure (List.forall_mem_singleton.mpr (Expr.isOperand_path _ _))
    · exact returns_after fun _ => returns_after fun _ => returns_onlyPlaceholder start

theorem links_succ :
    Returns (Parser.links place (fuel + 1)) fun read => ∀ x ∈ read, x.IsOperand := by
  rw [links_eq]
  refine returns_after fun _ => returns_after fun c => ?_
  split
  · exact returns_nil
  · exact returns_after fun _ => returns_after fun start =>
      returns_after (ih.afterLink_orders start)

theorem afterGroup_orders (start : Nat) {args : List Argument}
    (hargs : ∀ a ∈ args, a.expr.Ordered) :
    ReturnsOperand (afterGroup place fuel start args) := by
  have hitems : ∀ e ∈ args.map Argument.expr, e.Ordered := List.forall_mem_map.mpr hargs
  have hchain : ReturnsOperand (originFrom place start >>= fun o =>
      Parser.chain place fuel (.list o .bracket (args.map Argument.expr)) start) :=
    returns_after fun o => ih.chain start (Expr.isOperand_list o .bracket hitems)
  refine returns_after fun s => ?_
  split
  · exact returns_none
  refine returns_after fun text => ?_
  split
  · exact returns_after fun o => ih.lambda start (Expr.isOperand_list o .arguments hitems).ordered
  split
  · exact returns_after fun _ => returns_after fun _ => hchain
  · exact hchain
  · exact returns_after fun _ => returns_after fun _ => hchain

theorem group_succ : ReturnsOperand (Parser.group place (fuel + 1)) := by
  rw [group_eq]
  exact returns_after fun _ => returns_after fun start => returns_after fun _ =>
    (ih.arguments _ _).bind fun _ => ih.afterGroup_orders start

theorem lambda_succ {parameters : Expr} (start : Nat) (hparameters : parameters.Ordered) :
    ReturnsOperand (Parser.lambda place (fuel + 1) parameters start) := by
  rw [lambda_eq]
  have hbody := ih.expression.bind (f := afterBody place parameters start) fun _ =>
    returns_afterBody hparameters start
  refine returns_after fun _ => returns_after fun _ => returns_after fun _ => ?_
  split
  · exact returns_after fun _ => returns_after fun _ => hbody
  · exact hbody

theorem afterItem_orders (kind : BracketKind) (start : Nat) (name : Option String)
    {e : Option Expr} (he : ∀ x ∈ e, x.Ordered) :
    ReturnsOrdered (afterItem place fuel kind start name e) := by
  refine returns_after fun here => returns_after fun _ => returns_after fun c => ?_
  have hread : ∀ a ∈ e.toList.map fun e => (⟨name, here.span, e⟩ : Argument), a.expr.Ordered :=
    List.forall_mem_map.mpr fun x hx => he x (Option.mem_toList.mp hx)
  cases c with
  | none => exact returns_after fun _ => returns_pure hread
  | some c =>
    dsimp only
    split
    · exact returns_after fun _ => returns_after fun _ => returns_pure hread
    have hnext (read : List Argument) (h : ∀ a ∈ read, a.expr.Ordered) : ReturnsOrdered (do
        advance 1
        return read ++ (← Parser.argumentList place fuel kind)) :=
      returns_after fun _ => (ih.argumentList kind).bind fun more hmore =>
        returns_pure (List.forall_mem_append.mpr ⟨h, hmore⟩)
    split
    · exact returns_after fun _ => hnext _ hread
    · exact hnext _ hread

theorem item_orders (kind : BracketKind) (start : Nat) (name : Option String) :
    ReturnsOrdered (item place fuel kind start name) :=
  ih.expression.bind fun _ => ih.afterItem_orders kind start name

theorem arguments_succ (kind : BracketKind) (start : Nat) :
    ReturnsOrdered (Parser.arguments place (fuel + 1) kind start) := by
  rw [Parser.arguments]
  refine returns_after fun _ => returns_after fun _ => returns_after fun _ => ?_
  refine returns_after fun c => ?_
  split
  · exact returns_after fun _ => returns_after fun _ => returns_nil
  · exact ih.argumentList kind

theorem argumentList_succ (kind : BracketKind) :
    ReturnsOrdered (Parser.argumentList place (fuel + 1) kind) := by
  rw [argumentList_eq]
  refine returns_after fun _ => returns_after fun _ => returns_after fun start => ?_
  refine returns_after fun c => ?_
  split
  · exact returns_after fun name => ih.item_orders kind start name
  · exact ih.item_orders kind start none

end ReadingOrders

/-- Operators follow precedence in all that is read, by induction on the fuel. -/
theorem reading_orders (place : Placement) : ∀ fuel, ReadingOrders place fuel
  | 0 => by
    constructor <;> intros <;>
      simp only [expression, pairs, operand, pathOperand, call, chain, links, group, lambda,
        arguments, argumentList, returns_failure]
  | fuel + 1 =>
    have ih := reading_orders place fuel
    { expression := ih.expression_succ
      pairs := ih.pairs_succ
      operand := ih.operand_succ
      pathOperand := ih.pathOperand_succ
      call := ih.call_succ
      chain := ih.chain_succ
      links := ih.links_succ
      group := ih.group_succ
      lambda := ih.lambda_succ
      arguments := ih.arguments_succ
      argumentList := ih.argumentList_succ }

theorem returns_readRun (place : Placement) (fuel : Nat) :
    Returns (readRun place fuel) fun read => ∀ r ∈ read, ∀ x ∈ r.operands, x.IsOperand := by
  cases fuel with
  | zero => exact returns_failure
  | succ fuel => exact (reading_orders place fuel).readRun_succ

/-! ## Trees of texts -/

/-- The state in which the expression of a text is read, after the blanks before it. -/
def begun (text : List Char) : ParserState :=
  { start text with cursor := (Cursor.ofText text).skipBlanks }

/-- The tree of a text is what was read of it up to the texts and sites that were added. -/
theorem exists_expression_of_parseAt {text : List Char} {place : Placement} {t : Expr}
    (h : (parseAt text place).expr = some t) : ∃ e s',
      expression place (enoughFuel text.length) (begun text) = some (some e, s') ∧
        t = ((e.withSources text place.offset).numberSites 0).1 := by
  unfold parseAt at h
  split at h
  · cases h
  · next r s hrun =>
    obtain ⟨e, rfl, rfl⟩ := Option.map_eq_some_iff.mp h
    unfold StateT.run whole at hrun
    obtain ⟨_, _, hblanks, hrun⟩ := exists_of_bind hrun
    cases hblanks
    obtain ⟨c, s₁, hcurrent, hrun⟩ := exists_of_bind hrun
    obtain ⟨-, rfl⟩ := Prod.mk.inj (Option.some.inj hcurrent)
    cases c with
    | none =>
      obtain ⟨_, _, -, hrun⟩ := exists_of_bind hrun
      obtain ⟨_, _, -, hrun⟩ := exists_of_bind hrun
      cases hrun
    | some c =>
      obtain ⟨read, s₂, hread, hrun⟩ := exists_of_bind hrun
      obtain ⟨_, _, hget, hrun⟩ := exists_of_bind hrun
      cases hget
      obtain ⟨hresult, rfl⟩ := Prod.mk.inj (Option.some.inj hrun)
      split at hresult
      · cases hresult
      · exact ⟨e, s₂, hresult ▸ hread, rfl⟩

/-- Whenever an expression is read, a run is read, and the tree that is returned is the only one of
that run in which all operators stand where their precedence puts them. -/
theorem exists_readRun_of_expression {place : Placement} {fuel : Nat} {s s' : ParserState}
    {result : Option Expr} (h : expression place fuel s = some (result, s')) :
    ∃ read, readRun place fuel s = some (read, s') ∧ (read = none → result = none) ∧
      ∀ r, read = some r → ∃ e, result = some e ∧ e.run = r ∧ e.Arranged ∧
        ∀ e' : Expr, e'.run = r → e'.Arranged → e'.bare = e.bare := by
  rw [expression_eq] at h
  obtain ⟨read, s₁, hread, hresult⟩ := exists_of_bind h
  cases hresult
  refine ⟨read, hread, fun hnone => by rw [hnone]; rfl, ?_⟩
  rintro r rfl
  obtain ⟨e, htree, hrun, harranged⟩ := exists_treeOf fun x hx =>
    (returns_readRun place fuel _ _ _ hread r rfl x hx).operator?
  exact ⟨e, htree, hrun, harranged, fun e' hrun' harranged' =>
    bare_eq_of_arranged harranged' harranged (hrun'.trans hrun.symm)⟩

/-- Operators stand where their precedence puts them, in every tree that a text has, with problems
or without, and the tree has the operands and operators of the run that was read. -/
theorem operators_follow_precedence :
    (∀ text place t, (parseAt text place).expr = some t →
      t.everyNode (fun _ node => node.FollowsPrecedence) .free ∧
        ∃ r s', readRun place (enoughFuel text.length) (begun text) = some (some r, s') ∧
          t.run.bare = r.bare) ∧
      ∀ place fuel s result s', expression place fuel s = some (result, s') →
        ∃ read, readRun place fuel s = some (read, s') ∧ (read = none → result = none) ∧
          ∀ r, read = some r → ∃ e, result = some e ∧ e.run = r ∧ e.Arranged ∧
            ∀ e' : Expr, e'.run = r → e'.Arranged → e'.bare = e.bare := by
  refine ⟨fun text place t h => ?_, fun _ _ _ _ _ => exists_readRun_of_expression⟩
  obtain ⟨e, s', hread, rfl⟩ := exists_expression_of_parseAt h
  have hordered : e.Ordered := (reading_orders place _).expression _ _ _ hread e rfl
  refine ⟨everyNode_withSources_numberSites (p := fun _ node => node.FollowsPrecedence)
    .of_bare text place.offset hordered, ?_⟩
  obtain ⟨read, hrun, hnone, htree⟩ := exists_readRun_of_expression hread
  cases read with
  | none => cases hnone rfl
  | some r =>
    obtain ⟨_, ⟨⟩, rfl, -⟩ := htree r rfl
    refine ⟨e.run, s', hrun, ?_⟩
    rw [← Expr.run_bare, ← Expr.run_bare, Expr.bare_numberSites, Expr.withSources,
      Expr.bare_mapOrigin]

/-- The bracket that nothing opened is skipped, and the product is read across it. -/
theorem operators_follow_precedence_mended :
    ∃ (t e : Expr) (r : Run), (parse "a - b ) * c - d").expr = some t ∧
      (parse "a - b ) * c - d").diagnostics.length = 1 ∧
      t.everyNode (fun _ node => node.FollowsPrecedence) .free ∧ t.run.bare = r.bare ∧
      r.2.map Prod.fst = [.subtract, .multiply, .subtract] ∧ e.run = r ∧ e.Arranged := by
  obtain ⟨t, ht⟩ := Option.isSome_iff_exists.mp
    (by decide +kernel : (parse "a - b ) * c - d").expr.isSome = true)
  obtain ⟨hordered, r, s', hread, hrun⟩ := operators_follow_precedence.1 _ _ t ht
  have hops : (readRun (.within "a - b ) * c - d".toList 0)
      (enoughFuel "a - b ) * c - d".toList.length) (begun "a - b ) * c - d".toList)).map
        (fun found => found.1.map fun r => r.2.map Prod.fst) =
      some (some [.subtract, .multiply, .subtract]) := by decide +kernel
  rw [hread] at hops
  -- The tree that was read, before texts and sites were added.
  obtain ⟨e, _, hexpression, -⟩ := exists_expression_of_parseAt ht
  obtain ⟨read, hread', -, htree⟩ := operators_follow_precedence.2 _ _ _ _ _ hexpression
  obtain ⟨rfl, -⟩ := Prod.mk.inj (Option.some.inj (hread.symm.trans hread'))
  obtain ⟨_, ⟨⟩, hsame, harranged, -⟩ := htree r rfl
  exact ⟨t, e, r, ht, by decide +kernel, hordered, hrun, Option.some.inj (Option.some.inj hops),
    hsame, harranged⟩

end Parser

end Stencil
