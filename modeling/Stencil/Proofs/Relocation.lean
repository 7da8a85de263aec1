import Stencil.Proofs.Growing
import Stencil.Proofs.Lines

/-!
# An expression at another place

Reading asks where the expression stands only to put positions into the tree and into the problems.
So the same text read at another place gives the same, with its positions moved.
`Relocates f g m m'` says of two steps that `m'` does what `m` does, with positions changed by `f`
and the result by `g`; there is one rule for each way in which steps are put together, and one
induction over the reading functions (`reading_relocates`). Main statement: `parseAt_within`.
-/

namespace Stencil

/-! ## Moving positions -/

/-- The span between the images of both ends. -/
def Span.map (f : Position → Position) (s : Span) : Span :=
  ⟨f s.start, f s.stop⟩

/-- The origin at another place, with the same text. -/
def Origin.relocate (f : Position → Position) (o : Origin) : Origin :=
  { o with span := o.span.map f }

/-- The same problem at another place. -/
def Diagnostic.relocate (f : Position → Position) (d : Diagnostic) : Diagnostic :=
  { d with span := d.span.map f }

mutual

/-- The tree with all positions changed by `f`. -/
def Expr.relocate (f : Position → Position) : Expr → Expr
  | .path o parts => .path (o.relocate f) parts
  | .call o site parts name args =>
    .call (o.relocate f) site parts name (Argument.relocateAll f args)
  | .string o delimiter fragments => .string (o.relocate f) delimiter fragments
  | .number o literal value => .number (o.relocate f) literal value
  | .list o kind items => .list (o.relocate f) kind (Expr.relocateAll f items)
  | .unary o site op operand => .unary (o.relocate f) site op (operand.relocate f)
  | .binary o site op left right =>
    .binary (o.relocate f) site op (left.relocate f) (right.relocate f)
  | .lambda o parameters body => .lambda (o.relocate f) (parameters.relocate f) (body.relocate f)

def Expr.relocateAll (f : Position → Position) : List Expr → List Expr
  | [] => []
  | e :: rest => e.relocate f :: Expr.relocateAll f rest

def Argument.relocateAll (f : Position → Position) : List Argument → List Argument
  | [] => []
  | ⟨name, span, e⟩ :: rest => ⟨name, span.map f, e.relocate f⟩ :: Argument.relocateAll f rest

end

/-- What came of reading, with all positions changed by `f`. -/
def Parsed.relocate (f : Position → Position) (p : Parsed) : Parsed :=
  ⟨p.expr.map (Expr.relocate f), p.diagnostics.map (Diagnostic.relocate f)⟩

section Trees

variable (f : Position → Position)

mutual

@[simp] theorem Expr.bare_relocate : ∀ e : Expr, (e.relocate f).bare = e.bare
  | .path _ _ | .string _ _ _ | .number _ _ _ => rfl
  | .call _ _ _ _ args => by
    simp only [Expr.relocate, Expr.bare, Argument.bareAll_relocateAll args]
  | .list _ _ items => by simp only [Expr.relocate, Expr.bare, Expr.bareAll_relocateAll items]
  | .unary _ _ _ operand => by simp only [Expr.relocate, Expr.bare, Expr.bare_relocate operand]
  | .binary _ _ _ left right => by
    simp only [Expr.relocate, Expr.bare, Expr.bare_relocate left, Expr.bare_relocate right]
  | .lambda _ parameters body => by
    simp only [Expr.relocate, Expr.bare, Expr.bare_relocate parameters, Expr.bare_relocate body]

theorem Expr.bareAll_relocateAll : ∀ es : List Expr,
    Expr.bareAll (Expr.relocateAll f es) = Expr.bareAll es
  | [] => rfl
  | e :: rest => by
    simp only [Expr.relocateAll, Expr.bareAll, Expr.bare_relocate e, Expr.bareAll_relocateAll rest]

theorem Argument.bareAll_relocateAll : ∀ args : List Argument,
    Argument.bareAll (Argument.relocateAll f args) = Argument.bareAll args
  | [] => rfl
  | ⟨_, _, e⟩ :: rest => by
    simp only [Argument.relocateAll, Argument.bareAll, Expr.bare_relocate e,
      Argument.bareAll_relocateAll rest]

end

mutual

theorem Expr.numberSites_relocate : ∀ (e : Expr) (next : Nat),
    (e.relocate f).numberSites next = ((e.numberSites next).1.relocate f, (e.numberSites next).2)
  | .path _ _, _ | .string _ _ _, _ | .number _ _ _, _ => rfl
  | .call _ _ _ _ args, next => by
    simp only [Expr.relocate, Expr.numberSites, Argument.numberSites_relocateAll args]
  | .list _ _ items, next => by
    simp only [Expr.relocate, Expr.numberSites, Expr.numberAllSites_relocateAll items]
  | .unary _ _ _ operand, next => by
    simp only [Expr.relocate, Expr.numberSites, Expr.numberSites_relocate operand]
  | .binary _ _ _ left right, next => by
    simp only [Expr.relocate, Expr.numberSites, Expr.numberSites_relocate left,
      Expr.numberSites_relocate right]
  | .lambda _ parameters body, next => by
    simp only [Expr.relocate, Expr.numberSites, Expr.numberSites_relocate parameters,
      Expr.numberSites_relocate body]

theorem Expr.numberAllSites_relocateAll : ∀ (es : List Expr) (next : Nat),
    Expr.numberAllSites next (Expr.relocateAll f es) =
      (Expr.relocateAll f (Expr.numberAllSites next es).1, (Expr.numberAllSites next es).2)
  | [], _ => rfl
  | e :: rest, next => by
    simp only [Expr.relocateAll, Expr.numberAllSites, Expr.numberSites_relocate e,
      Expr.numberAllSites_relocateAll rest]

theorem Argument.numberSites_relocateAll : ∀ (args : List Argument) (next : Nat),
    Argument.numberSites next (Argument.relocateAll f args) =
      (Argument.relocateAll f (Argument.numberSites next args).1,
        (Argument.numberSites next args).2)
  | [], _ => rfl
  | ⟨_, _, e⟩ :: rest, next => by
    simp only [Argument.relocateAll, Argument.numberSites, Expr.numberSites_relocate e,
      Argument.numberSites_relocateAll rest]

end

variable {f} {u v : Origin → Origin}

mutual

/-- Origins may be changed before or after the tree is moved. -/
theorem Expr.mapOrigin_relocate (h : ∀ o, u (o.relocate f) = (v o).relocate f) : ∀ e : Expr,
    (e.relocate f).mapOrigin u = (e.mapOrigin v).relocate f
  | .path _ _ | .string _ _ _ | .number _ _ _ => by
    simp only [Expr.relocate, Expr.mapOrigin, h]
  | .call _ _ _ _ args => by
    simp only [Expr.relocate, Expr.mapOrigin, h, Argument.mapOrigins_relocateAll h args]
  | .list _ _ items => by
    simp only [Expr.relocate, Expr.mapOrigin, h, Expr.mapOrigins_relocateAll h items]
  | .unary _ _ _ operand => by
    simp only [Expr.relocate, Expr.mapOrigin, h, Expr.mapOrigin_relocate h operand]
  | .binary _ _ _ left right => by
    simp only [Expr.relocate, Expr.mapOrigin, h, Expr.mapOrigin_relocate h left,
      Expr.mapOrigin_relocate h right]
  | .lambda _ parameters body => by
    simp only [Expr.relocate, Expr.mapOrigin, h, Expr.mapOrigin_relocate h parameters,
      Expr.mapOrigin_relocate h body]

theorem Expr.mapOrigins_relocateAll (h : ∀ o, u (o.relocate f) = (v o).relocate f) :
    ∀ es : List Expr,
    Expr.mapOrigins u (Expr.relocateAll f es) = Expr.relocateAll f (Expr.mapOrigins v es)
  | [] => rfl
  | e :: rest => by
    simp only [Expr.relocateAll, Expr.mapOrigins, Expr.mapOrigin_relocate h e,
      Expr.mapOrigins_relocateAll h rest]

theorem Argument.mapOrigins_relocateAll (h : ∀ o, u (o.relocate f) = (v o).relocate f) :
    ∀ args : List Argument,
    Argument.mapOrigins u (Argument.relocateAll f args) =
      Argument.relocateAll f (Argument.mapOrigins v args)
  | [] => rfl
  | ⟨_, _, e⟩ :: rest => by
    simp only [Argument.relocateAll, Argument.mapOrigins, Expr.mapOrigin_relocate h e,
      Argument.mapOrigins_relocateAll h rest]

end

end Trees

theorem Expr.span_relocate (f : Position → Position) (e : Expr) :
    (e.relocate f).span = e.span.map f := by
  cases e <;> rfl

theorem Argument.exprs_relocateAll (f : Position → Position) : ∀ args : List Argument,
    (Argument.relocateAll f args).map Argument.expr = Expr.relocateAll f (args.map Argument.expr)
  | [] => rfl
  | ⟨_, _, e⟩ :: rest => congrArg (e.relocate f :: ·) (Argument.exprs_relocateAll f rest)

theorem Argument.relocateAll_append (f : Position → Position) (bs : List Argument) :
    ∀ as : List Argument, Argument.relocateAll f (as ++ bs) =
      Argument.relocateAll f as ++ Argument.relocateAll f bs
  | [] => rfl
  | ⟨name, sp, e⟩ :: as => by
    simp only [List.cons_append, Argument.relocateAll, Argument.relocateAll_append f bs as]

/-- The state with all positions changed by `f`. -/
def ParserState.relocate (f : Position → Position) (s : ParserState) : ParserState :=
  { s with diagnostics := s.diagnostics.map (Diagnostic.relocate f) }

/-- Whether `f` moves each span at one place to the span at the other. -/
def Placement.MovesTo (f : Position → Position) (place place' : Placement) : Prop :=
  ∀ start stop, place'.span start stop = (place.span start stop).map f

namespace Parser

variable {α β γ δ : Type} {f : Position → Position}

/-! ## Moving steps -/

/-- Whether `m'` does what `m` does, with all positions changed by `f` and the result by `g`. -/
def Relocates (f : Position → Position) (g : α → β) (m : ParserM α) (m' : ParserM β) : Prop :=
  ∀ s : ParserState, m' (s.relocate f) = (m s).map fun r => (g r.1, r.2.relocate f)

theorem relocates_pure (g : α → β) (a : α) : Relocates f g (pure a) (pure (g a)) :=
  fun _ => rfl

theorem relocates_failure (g : α → β) : Relocates f g failure failure :=
  fun _ => rfl

theorem Relocates.bind {g : α → β} {h : γ → δ} {m : ParserM α} {m' : ParserM β} {k : α → ParserM γ}
    {k' : β → ParserM δ} (hm : Relocates f g m m') (hk : ∀ a, Relocates f h (k a) (k' (g a))) :
    Relocates f h (m >>= k) (m' >>= k') := by
  intro s
  show (m' (s.relocate f)).bind (fun r => k' r.1 r.2) = ((m s).bind fun r => k r.1 r.2).map _
  rw [hm s]
  cases m s with
  | none => rfl
  | some r => exact hk r.1 r.2

/-- A step whose result has no position in it. -/
theorem Relocates.next {h : γ → δ} {m m' : ParserM α} {k : α → ParserM γ} {k' : α → ParserM δ}
    (hm : Relocates f id m m') (hk : ∀ a, Relocates f h (k a) (k' a)) :
    Relocates f h (m >>= k) (m' >>= k') :=
  hm.bind hk

theorem Relocates.ite {g : α → β} {c : Prop} [Decidable c] {m n : ParserM α} {m' n' : ParserM β}
    (hm : Relocates f g m m') (hn : Relocates f g n n') :
    Relocates f g (if c then m else n) (if c then m' else n') := by
  split
  · exact hm
  · exact hn

/-- What is asked of the state besides the problems is the same. -/
theorem relocates_get {h : γ → δ} {k : ParserState → ParserM γ} {k' : ParserState → ParserM δ}
    (hk : ∀ s, Relocates f h (k s) (k' (s.relocate f))) : Relocates f h (get >>= k) (get >>= k') :=
  fun s => hk s s

theorem relocates_modify {u u' : ParserState → ParserState}
    (h : ∀ s, u' (s.relocate f) = (u s).relocate f) : Relocates f id (modify u) (modify u') :=
  fun s => congrArg (fun s => some ((), s)) (h s)

theorem relocates_position : Relocates f id position position :=
  relocates_get fun _ => relocates_pure _ _

theorem relocates_rest : Relocates f id rest rest :=
  relocates_get fun _ => relocates_pure _ _

theorem relocates_current? : Relocates f id current? current? :=
  relocates_get fun _ => relocates_pure _ _

theorem relocates_advance (n : Nat) : Relocates f id (advance n) (advance n) :=
  relocates_modify fun _ => rfl

theorem relocates_skipBlanks : Relocates f id skipBlanks skipBlanks :=
  relocates_modify fun _ => rfl

theorem relocates_count (n : Nat) : Relocates f id (count n) (count n) :=
  relocates_modify fun _ => rfl

theorem relocates_step : Relocates f id step step :=
  relocates_count 1

theorem relocates_arrowAhead : Relocates f id arrowAhead arrowAhead :=
  relocates_rest.next fun _ => (relocates_count _).next fun _ => relocates_pure id _

theorem relocates_openBracket (kind : BracketKind) (start : Nat) :
    Relocates f id (openBracket kind start) (openBracket kind start) :=
  relocates_modify fun _ => rfl

theorem relocates_closeBracket : Relocates f id closeBracket closeBracket :=
  relocates_modify fun _ => rfl

theorem relocates_dropBracket : Relocates f id dropBracket dropBracket :=
  relocates_modify fun _ => rfl

variable {place place' : Placement} (hplace : Placement.MovesTo f place place')
include hplace

theorem relocates_report (start stop : Nat) (fault : Fault) :
    Relocates f id (report place start stop fault) (report place' start stop fault) := by
  refine relocates_modify fun s => ?_
  rw [hplace]
  simp only [ParserState.relocate, List.map_append, List.map_cons, List.map_nil,
    Diagnostic.relocate]

theorem relocates_reportHere (fault : Fault) :
    Relocates f id (reportHere place fault) (reportHere place' fault) :=
  relocates_position.next fun _ => relocates_report hplace _ _ _

theorem relocates_originFrom (start : Nat) :
    Relocates f (Origin.relocate f) (originFrom place start) (originFrom place' start) := by
  refine relocates_position.next fun stop => ?_
  rw [hplace]
  exact relocates_pure _ _

theorem relocates_placeholder (start : Nat) :
    Relocates f (Expr.relocate f) (placeholder place start) (placeholder place' start) :=
  (relocates_originFrom hplace start).bind fun _ => relocates_pure _ _

theorem relocates_giveUp : Relocates f id (giveUp place) (giveUp place') := by
  refine relocates_get fun s => ?_
  have hend : Relocates f id (modify fun s => { s with gaveUp := true })
      (modify fun s => { s with gaveUp := true }) := relocates_modify fun _ => rfl
  have hbrackets : (s.relocate f).brackets = s.brackets := rfl
  rw [hbrackets]
  cases s.brackets with
  | nil => exact hend
  | cons bracket _ =>
    exact relocates_dropBracket.next fun _ => (relocates_report hplace _ _ _).next fun _ => hend

theorem relocates_readPath (t : Tokenizer) :
    Relocates f id (readPath place t) (readPath place' t) := by
  refine relocates_step.next fun _ => ?_
  refine relocates_rest.next fun text => (relocates_advance _).next fun _ => ?_
  cases (scanPath t text).fault with
  | none => exact relocates_pure _ _
  | some fault =>
    refine (relocates_reportHere hplace fault).next fun _ => (relocates_advance 1).next fun _ => ?_
    exact relocates_rest.next fun _ => (relocates_advance _).next fun _ => relocates_pure _ _

theorem relocates_readString (delimiter : Char) :
    Relocates f (Expr.relocate f) (readString place delimiter) (readString place' delimiter) := by
  refine relocates_step.next fun _ => ?_
  refine relocates_position.next fun start => (relocates_advance 1).next fun _ => ?_
  refine relocates_rest.next fun text => (relocates_advance _).next fun _ => ?_
  have hend : Relocates f (Expr.relocate f)
      (do
        let origin ← originFrom place start
        return .string origin delimiter (scanString delimiter text).fragments)
      (do
        let origin ← originFrom place' start
        return .string origin delimiter (scanString delimiter text).fragments) :=
    (relocates_originFrom hplace start).bind fun _ => relocates_pure _ _
  cases (scanString delimiter text).closed with
  | true => exact hend
  | false =>
    exact relocates_position.next fun _ => (relocates_report hplace _ _ _).next fun _ => hend

theorem relocates_readArgumentName (kind : BracketKind) :
    Relocates f id (readArgumentName place kind) (readArgumentName place' kind) := by
  refine relocates_step.next fun _ => ?_
  refine relocates_position.next fun start => (relocates_openBracket _ _).next fun _ => ?_
  refine (relocates_advance 1).next fun _ => relocates_rest.next fun text => ?_
  refine (relocates_advance _).next fun _ => relocates_current?.next fun c => ?_
  cases c with
  | none => exact (relocates_giveUp hplace).next fun _ => relocates_pure _ _
  | some c =>
    refine (relocates_advance 1).next fun _ => relocates_closeBracket.next fun _ => .ite ?_ ?_
    · exact relocates_pure _ _
    · exact relocates_position.next fun _ => (relocates_report hplace _ _ _).next fun _ =>
        relocates_pure _ _

/-! ## Joining operands -/

omit hplace

/-- Stacks with all positions changed by `f`. -/
def relocateStacks (f : Position → Position) (pair : List Expr × List Operator) :
    List Expr × List Operator :=
  (Expr.relocateAll f pair.1, pair.2)

theorem reduce_relocateAll (p : Nat) (operands : List Expr) (ops : List Operator) :
    reduce p (Expr.relocateAll f operands) ops = relocateStacks f (reduce p operands ops) := by
  induction ops generalizing operands with
  | nil => rcases operands with _ | ⟨r, _ | ⟨l, more⟩⟩ <;> rfl
  | cons op ops ih =>
    rcases operands with _ | ⟨r, _ | ⟨l, more⟩⟩
    · rfl
    · rfl
    by_cases hlt : op.precedence < p
    · have hstop : ∀ o ∈ (op :: ops).head?, o.precedence < p := by
        rintro o ⟨⟩
        exact hlt
      rw [reduce_stop hstop, reduce_stop hstop]
      rfl
    · have hjoin : (join op l r).relocate f = join op (l.relocate f) (r.relocate f) := by
        simp only [join, Expr.relocate, Origin.relocate, Span.map, Expr.span_relocate]
      have hmore := ih (join op l r :: more)
      rw [Expr.relocateAll, hjoin] at hmore
      rw [reduce_cons (Nat.not_lt.mp hlt), ← hmore, Expr.relocateAll, Expr.relocateAll,
        reduce_cons (Nat.not_lt.mp hlt)]

theorem isParameter_relocate (e : Expr) : isParameter (e.relocate f) = isParameter e := by
  cases e with
  | path o parts => rcases parts with _ | ⟨p, _ | ⟨q, ps⟩⟩ <;> rfl
  | _ => rfl

theorem areParameters_relocate (e : Expr) : areParameters (e.relocate f) = areParameters e := by
  have hall : ∀ es : List Expr,
      (Expr.relocateAll f es).all isParameter = es.all isParameter := by
    intro es
    induction es with
    | nil => rfl
    | cons e es ih => rw [Expr.relocateAll, List.all_cons, isParameter_relocate, ih, List.all_cons]
  cases e with
  | list o kind items => exact hall items
  | path o parts => exact isParameter_relocate (.path o parts)
  | _ => rfl

theorem head?_relocateAll (es : List Expr) :
    (Expr.relocateAll f es).head? = es.head?.map (Expr.relocate f) := by
  cases es <;> rfl

/-! ## Reading functions -/

section SecondParts

include hplace

theorem relocates_afterNot (start : Nat) (e : Option Expr) :
    Relocates f (Option.map (Expr.relocate f)) (afterNot place start e)
      (afterNot place' start (e.map (Expr.relocate f))) := by
  cases e with
  | none => exact relocates_pure _ _
  | some e => exact (relocates_originFrom hplace start).bind fun _ => relocates_pure _ _

theorem relocates_afterMinus (start : Nat) (e : Option Expr) :
    Relocates f (Option.map (Expr.relocate f)) (afterMinus place start e)
      (afterMinus place' start (e.map (Expr.relocate f))) := by
  have hother : ∀ e : Expr, Relocates f (Option.map (Expr.relocate f))
      (do report place start (start + 1) (.strayOperator "-"); return some e)
      (do report place' start (start + 1) (.strayOperator "-"); return some (e.relocate f)) :=
    fun _ => (relocates_report hplace _ _ _).next fun _ => relocates_pure _ _
  cases e with
  | none => exact relocates_pure _ _
  | some e =>
    cases e with
    | number o literal value =>
      exact (relocates_originFrom hplace start).bind fun _ => relocates_pure _ _
    | _ => exact hother _

theorem relocates_afterBody (parameters : Expr) (start : Nat) (body : Option Expr) :
    Relocates f (Option.map (Expr.relocate f)) (afterBody place parameters start body)
      (afterBody place' (parameters.relocate f) start (body.map (Expr.relocate f))) := by
  cases body with
  | none => exact relocates_pure _ _
  | some body => exact (relocates_originFrom hplace start).bind fun _ => relocates_pure _ _

end SecondParts

/-- What is claimed of all reading functions for one amount of fuel. -/
structure ReadingRelocates (f : Position → Position) (place place' : Placement) (fuel : Nat) :
    Prop where
  expression : Relocates f (Option.map (Expr.relocate f)) (expression place fuel)
    (expression place' fuel)
  operators : ∀ operands ops, Relocates f (relocateStacks f) (operators place fuel operands ops)
    (operators place' fuel (Expr.relocateAll f operands) ops)
  operand : Relocates f (Option.map (Expr.relocate f)) (operand place fuel) (operand place' fuel)
  pathOperand : ∀ start, Relocates f (Option.map (Expr.relocate f)) (pathOperand place fuel start)
    (pathOperand place' fuel start)
  skipCall : Relocates f id (skipCall place fuel) (skipCall place' fuel)
  call : ∀ t start, Relocates f (Option.map (Expr.relocate f)) (call place fuel t start)
    (call place' fuel t start)
  chain : ∀ first start, Relocates f (Option.map (Expr.relocate f)) (chain place fuel first start)
    (chain place' fuel (first.relocate f) start)
  links : Relocates f (Expr.relocateAll f) (links place fuel) (links place' fuel)
  group : Relocates f (Option.map (Expr.relocate f)) (group place fuel) (group place' fuel)
  lambda : ∀ parameters start, Relocates f (Option.map (Expr.relocate f))
    (lambda place fuel parameters start) (lambda place' fuel (parameters.relocate f) start)
  arguments : ∀ kind start, Relocates f (Argument.relocateAll f) (arguments place fuel kind start)
    (arguments place' fuel kind start)
  argumentList : ∀ kind, Relocates f (Argument.relocateAll f) (argumentList place fuel kind)
    (argumentList place' fuel kind)

namespace ReadingRelocates

variable {fuel : Nat} (ih : ReadingRelocates f place place' fuel)
include ih

theorem expression_succ : Relocates f (Option.map (Expr.relocate f))
    (Parser.expression place (fuel + 1)) (Parser.expression place' (fuel + 1)) := by
  rw [Parser.expression, Parser.expression]
  refine relocates_step.next fun _ => ih.operand.bind fun first => ?_
  cases first with
  | none => exact relocates_pure _ _
  | some first =>
    refine (ih.operators _ _).bind fun pair => ?_
    obtain ⟨operands, ops⟩ := pair
    have hhead : (reduce 0 (Expr.relocateAll f operands) ops).1.head? =
        (reduce 0 operands ops).1.head?.map (Expr.relocate f) := by
      rw [reduce_relocateAll, relocateStacks, head?_relocateAll]
    show Relocates f _ (pure _) (pure (reduce 0 (Expr.relocateAll f operands) ops).1.head?)
    rw [hhead]
    exact relocates_pure _ _

include hplace

theorem operators_succ (operands : List Expr) (ops : List Operator) :
    Relocates f (relocateStacks f) (Parser.operators place (fuel + 1) operands ops)
      (Parser.operators place' (fuel + 1) (Expr.relocateAll f operands) ops) := by
  rw [Parser.operators, Parser.operators]
  refine relocates_step.next fun _ => relocates_skipBlanks.next fun _ =>
    relocates_current?.next fun c => ?_
  cases c with
  | none => exact relocates_pure _ _
  | some c =>
    refine relocates_get fun s => ?_
    refine .ite (relocates_pure _ _) ?_
    refine .ite ?_ ?_
    · exact (relocates_reportHere hplace _).next fun _ => (relocates_advance 1).next fun _ =>
        ih.operators _ _
    refine .ite ?_ ?_
    · exact (relocates_reportHere hplace _).next fun _ => (relocates_advance 1).next fun _ =>
        ih.operators _ _
    refine .ite ?_ ?_
    · exact (relocates_reportHere hplace _).next fun _ =>
        (relocates_readString hplace c).bind fun _ => ih.operators _ _
    refine relocates_rest.next fun text => .ite ?_ ?_
    · exact relocates_position.next fun _ => (relocates_advance 2).next fun _ =>
        (relocates_report hplace _ _ _).next fun _ => ih.operators _ _
    refine relocates_rest.next fun text => ?_
    cases Operator.atStart? text with
    | none =>
      exact (relocates_reportHere hplace _).next fun _ => (relocates_advance 1).next fun _ =>
        ih.operators _ _
    | some op =>
      refine (relocates_advance _).next fun _ => relocates_step.next fun _ => ?_
      rw [reduce_relocateAll]
      refine ih.operand.bind fun right => ?_
      cases right with
      | none => exact relocates_pure _ _
      | some right => exact ih.operators (right :: _) _

theorem operandAt_relocates (start : Nat) (c : Char) (next : Option Char) :
    Relocates f (Option.map (Expr.relocate f)) (operandAt place fuel start c next)
      (operandAt place' fuel start c next) := by
  unfold operandAt
  refine .ite ?_ ?_
  · exact (relocates_readString hplace c).bind fun _ => ih.chain _ _
  refine .ite ih.group ?_
  refine .ite ?_ ?_
  · exact (relocates_advance 1).next fun _ => ih.operand.bind (relocates_afterNot hplace start)
  refine .ite ?_ ?_
  · exact (relocates_advance 1).next fun _ => ih.operand.bind (relocates_afterMinus hplace start)
  refine .ite ?_ ?_
  · exact (relocates_reportHere hplace _).next fun _ => relocates_pure _ _
  refine .ite ?_ ?_
  · exact (relocates_reportHere hplace _).next fun _ => (relocates_advance 1).next fun _ =>
      relocates_pure _ _
  refine relocates_rest.next fun text => ?_
  cases Operator.atStart? text with
  | none => exact ih.pathOperand start
  | some op =>
    exact (relocates_report hplace _ _ _).next fun _ => (relocates_advance _).next fun _ =>
      ih.operand

theorem operand_succ : Relocates f (Option.map (Expr.relocate f))
    (Parser.operand place (fuel + 1)) (Parser.operand place' (fuel + 1)) := by
  rw [operand_eq, operand_eq]
  refine relocates_step.next fun _ => relocates_skipBlanks.next fun _ =>
    relocates_position.next fun start => ?_
  refine relocates_current?.next fun c => ?_
  cases c with
  | none => exact (relocates_report hplace _ _ _).next fun _ => relocates_pure _ _
  | some c => exact relocates_get fun s => ih.operandAt_relocates hplace start c _

theorem afterPath_relocates (start : Nat) (t : Option Tokenizer) :
    Relocates f (Option.map (Expr.relocate f)) (afterPath place fuel start t)
      (afterPath place' fuel start t) := by
  have hplaceholder : Relocates f (Option.map (Expr.relocate f))
      (do return some (← placeholder place start)) (do return some (← placeholder place' start)) :=
    (relocates_placeholder hplace start).bind fun _ => relocates_pure _ _
  cases t with
  | none => exact ih.skipCall.next fun _ => hplaceholder
  | some t =>
    refine relocates_current?.next fun c => .ite (ih.call t start) ?_
    cases t.path with
    | error fault =>
      exact relocates_position.next fun _ => (relocates_report hplace _ _ _).next fun _ =>
        hplaceholder
    | ok parts =>
      refine (relocates_originFrom hplace start).bind fun o => ?_
      have hpath : Relocates f (Option.map (Expr.relocate f)) (pure (some (.path o parts)))
          (pure (some (.path (o.relocate f) parts))) := relocates_pure _ _
      split
      · dsimp only
        split
        · exact relocates_pure _ _
        · exact relocates_pure _ _
      · exact relocates_arrowAhead.next fun arrow => .ite (ih.lambda _ _) (relocates_pure _ _)
      · exact relocates_pure _ _

theorem pathOperand_succ (start : Nat) : Relocates f (Option.map (Expr.relocate f))
    (Parser.pathOperand place (fuel + 1) start) (Parser.pathOperand place' (fuel + 1) start) := by
  rw [pathOperand_eq, pathOperand_eq]
  exact relocates_step.next fun _ =>
    (relocates_readPath hplace _).next (ih.afterPath_relocates hplace start)

omit hplace in
theorem skipCall_succ : Relocates f id (Parser.skipCall place (fuel + 1))
    (Parser.skipCall place' (fuel + 1)) := by
  rw [Parser.skipCall, Parser.skipCall]
  refine relocates_step.next fun _ => relocates_current?.next fun c => .ite ?_ (relocates_pure _ _)
  exact relocates_position.next fun _ => (relocates_advance 1).next fun _ =>
    (ih.arguments _ _).bind fun _ => relocates_pure _ _

theorem call_succ (t : Tokenizer) (start : Nat) : Relocates f (Option.map (Expr.relocate f))
    (Parser.call place (fuel + 1) t start) (Parser.call place' (fuel + 1) t start) := by
  rw [Parser.call, Parser.call]
  refine relocates_step.next fun _ => relocates_position.next fun _ =>
    (relocates_advance 1).next fun _ => ?_
  refine (ih.arguments _ _).bind fun args => ?_
  cases t.call with
  | ok result =>
    exact (relocates_originFrom hplace start).bind fun _ => ih.chain (.call _ _ _ _ _) _
  | error fault =>
    exact (relocates_report hplace _ _ _).next fun _ =>
      (relocates_placeholder hplace start).bind fun _ => relocates_pure _ _

theorem chain_succ (first : Expr) (start : Nat) : Relocates f (Option.map (Expr.relocate f))
    (Parser.chain place (fuel + 1) first start)
    (Parser.chain place' (fuel + 1) (first.relocate f) start) := by
  rw [Parser.chain, Parser.chain]
  refine relocates_step.next fun _ => ih.links.bind fun links => ?_
  cases links with
  | nil => exact relocates_pure _ _
  | cons _ _ => exact (relocates_originFrom hplace start).bind fun _ => relocates_pure _ _

theorem afterLink_relocates (start : Nat) (t : Option Tokenizer) :
    Relocates f (Expr.relocateAll f) (afterLink place fuel start t)
      (afterLink place' fuel start t) := by
  have hplaceholder : Relocates f (Expr.relocateAll f)
      (do return [← placeholder place start]) (do return [← placeholder place' start]) :=
    (relocates_placeholder hplace start).bind fun _ => relocates_pure _ _
  cases t with
  | none => exact ih.skipCall.next fun _ => hplaceholder
  | some t =>
    refine relocates_current?.next fun c => .ite ?_ (.ite ?_ ?_)
    · refine relocates_position.next fun _ => (relocates_advance 1).next fun _ => ?_
      refine (ih.arguments _ _).bind fun args => ?_
      cases t.call with
      | ok result =>
        exact (relocates_originFrom hplace start).bind fun _ => ih.links.bind fun _ =>
          relocates_pure _ (_ :: _)
      | error fault => exact (relocates_report hplace _ _ _).next fun _ => hplaceholder
    · exact (relocates_report hplace _ _ _).next fun _ => relocates_pure _ _
    · cases t.path with
      | ok parts => exact (relocates_originFrom hplace start).bind fun _ => relocates_pure _ [_]
      | error fault =>
        exact relocates_position.next fun _ => (relocates_report hplace _ _ _).next fun _ =>
          hplaceholder

theorem links_succ : Relocates f (Expr.relocateAll f) (Parser.links place (fuel + 1))
    (Parser.links place' (fuel + 1)) := by
  rw [links_eq, links_eq]
  refine relocates_step.next fun _ => relocates_current?.next fun c => .ite (relocates_pure _ _) ?_
  exact (relocates_advance 1).next fun _ => relocates_position.next fun start =>
    (relocates_readPath hplace _).next (ih.afterLink_relocates hplace start)

theorem afterGroup_relocates (start : Nat) (args : List Argument) :
    Relocates f (Option.map (Expr.relocate f)) (afterGroup place fuel start args)
      (afterGroup place' fuel start (Argument.relocateAll f args)) := by
  unfold afterGroup
  simp only [Argument.exprs_relocateAll]
  generalize args.map Argument.expr = items
  refine relocates_get fun s => .ite (relocates_pure _ _) ?_
  refine relocates_arrowAhead.next fun arrow => .ite ?_ ?_
  · exact (relocates_originFrom hplace start).bind fun _ => ih.lambda (.list _ _ _) _
  have hchain : Relocates f (Option.map (Expr.relocate f))
      (originFrom place start >>= fun o => Parser.chain place fuel (.list o .bracket items) start)
      (originFrom place' start >>= fun o =>
        Parser.chain place' fuel (.list o .bracket (Expr.relocateAll f items)) start) :=
    (relocates_originFrom hplace start).bind fun _ => ih.chain (.list _ _ _) _
  rcases items with _ | ⟨e, _ | ⟨e', rest⟩⟩
  · exact relocates_position.next fun _ => (relocates_report hplace _ _ _).next fun _ => hchain
  · exact hchain
  · exact relocates_position.next fun _ => (relocates_report hplace _ _ _).next fun _ => hchain

theorem group_succ : Relocates f (Option.map (Expr.relocate f)) (Parser.group place (fuel + 1))
    (Parser.group place' (fuel + 1)) := by
  rw [group_eq, group_eq]
  exact relocates_step.next fun _ => relocates_position.next fun start =>
    (relocates_advance 1).next fun _ =>
    (ih.arguments _ _).bind (ih.afterGroup_relocates hplace start)

theorem lambda_succ (parameters : Expr) (start : Nat) : Relocates f (Option.map (Expr.relocate f))
    (Parser.lambda place (fuel + 1) parameters start)
    (Parser.lambda place' (fuel + 1) (parameters.relocate f) start) := by
  rw [lambda_eq, lambda_eq, areParameters_relocate]
  refine relocates_step.next fun _ => relocates_skipBlanks.next fun _ =>
    (relocates_advance 2).next fun _ => ?_
  have hbody := ih.expression.bind (relocates_afterBody hplace parameters start)
  refine .ite ?_ hbody
  exact relocates_position.next fun _ => (relocates_report hplace _ _ _).next fun _ => hbody

omit hplace in
theorem arguments_succ (kind : BracketKind) (start : Nat) : Relocates f (Argument.relocateAll f)
    (Parser.arguments place (fuel + 1) kind start)
    (Parser.arguments place' (fuel + 1) kind start) := by
  rw [Parser.arguments, Parser.arguments]
  refine relocates_step.next fun _ => (relocates_openBracket _ _).next fun _ => ?_
  refine relocates_skipBlanks.next fun _ => relocates_current?.next fun c =>
    .ite ?_ (ih.argumentList kind)
  exact (relocates_advance 1).next fun _ => relocates_closeBracket.next fun _ => relocates_pure _ _

theorem afterItem_relocates (kind : BracketKind) (start : Nat) (name : Option String)
    (e : Option Expr) : Relocates f (Argument.relocateAll f)
      (afterItem place fuel kind start name e)
      (afterItem place' fuel kind start name (e.map (Expr.relocate f))) := by
  refine (relocates_originFrom hplace start).bind fun here => ?_
  have hread : (e.map (Expr.relocate f)).toList.map
      (fun e => (⟨name, (here.relocate f).span, e⟩ : Argument)) =
      Argument.relocateAll f (e.toList.map fun e => ⟨name, here.span, e⟩) := by
    cases e <;> rfl
  dsimp only
  rw [hread]
  generalize e.toList.map (fun e => (⟨name, here.span, e⟩ : Argument)) = read
  refine relocates_skipBlanks.next fun _ => relocates_current?.next fun c => ?_
  cases c with
  | none => exact (relocates_giveUp hplace).next fun _ => relocates_pure _ _
  | some c =>
    have hnext : Relocates f (Argument.relocateAll f)
        (do advance 1; return read ++ (← Parser.argumentList place fuel kind))
        (do
          advance 1
          return Argument.relocateAll f read ++ (← Parser.argumentList place' fuel kind)) := by
      refine (relocates_advance 1).next fun _ => (ih.argumentList kind).bind fun more => ?_
      rw [← Argument.relocateAll_append]
      exact relocates_pure _ _
    refine .ite ?_ (.ite ?_ hnext)
    · exact (relocates_advance 1).next fun _ => relocates_closeBracket.next fun _ =>
        relocates_pure _ _
    · exact (relocates_reportHere hplace _).next fun _ => hnext

theorem item_relocates (kind : BracketKind) (start : Nat) (name : Option String) :
    Relocates f (Argument.relocateAll f) (item place fuel kind start name)
      (item place' fuel kind start name) :=
  ih.expression.bind (ih.afterItem_relocates hplace kind start name)

theorem argumentList_succ (kind : BracketKind) : Relocates f (Argument.relocateAll f)
    (Parser.argumentList place (fuel + 1) kind) (Parser.argumentList place' (fuel + 1) kind) := by
  rw [argumentList_eq, argumentList_eq]
  refine relocates_step.next fun _ => relocates_skipBlanks.next fun _ =>
    relocates_position.next fun start => ?_
  refine relocates_current?.next fun c => .ite ?_ (ih.item_relocates hplace kind start none)
  exact (relocates_readArgumentName hplace kind).next fun _ => ih.item_relocates hplace kind start _

end ReadingRelocates

include hplace

/-- All reading functions do the same at both places. -/
theorem reading_relocates : ∀ fuel, ReadingRelocates f place place' fuel
  | 0 => by
    constructor <;> intros <;>
      simp only [expression, operators, operand, pathOperand, skipCall, call, chain, links, group,
        lambda, arguments, argumentList, relocates_failure]
  | fuel + 1 =>
    have ih := reading_relocates fuel
    ⟨ih.expression_succ, ih.operators_succ hplace, ih.operand_succ hplace,
      ih.pathOperand_succ hplace, ih.skipCall_succ, ih.call_succ hplace, ih.chain_succ hplace,
      ih.links_succ hplace, ih.group_succ hplace, ih.lambda_succ hplace, ih.arguments_succ,
      ih.argumentList_succ hplace⟩

theorem relocates_whole (fuel : Nat) :
    Relocates f (Option.map (Expr.relocate f)) (whole place fuel) (whole place' fuel) := by
  refine relocates_skipBlanks.next fun _ => relocates_current?.next fun c => ?_
  cases c with
  | none =>
    exact relocates_position.next fun _ => (relocates_report hplace _ _ _).next fun _ =>
      relocates_pure _ _
  | some c =>
    refine (reading_relocates hplace fuel).expression.bind fun e => relocates_get fun s => ?_
    have hgaveUp : (s.relocate f).gaveUp = s.gaveUp := rfl
    rw [hgaveUp]
    cases s.gaveUp with
    | true => exact relocates_pure _ none
    | false => exact relocates_pure _ e

end Parser

/-! ## An expression in a template -/

/-- The place in a template of a place in an expression that begins at an offset of it. -/
def Position.within (template : List Char) (offset : Nat) (p : Position) : Position :=
  Text.positionAt template (offset + p.offset)

theorem movesTo_within (template text : List Char) (offset : Nat) :
    Placement.MovesTo (Position.within template offset) (.within text 0)
      (.within template offset) := by
  intro start stop
  simp only [Placement.span, Placement.within, LineTable.span, Span.map, Position.within,
    LineTable.locate_ofText, Text.positionAt_offset, Nat.zero_add]

/-- A node covers the same text at both places. -/
theorem sourceText_within (template text : List Char) (offset : Nat) (span : Span) :
    sourceText text offset (span.map (Position.within template offset)) =
      sourceText text 0 span := by
  simp [sourceText, Span.map, Position.within]

theorem Expr.withSources_relocate (template text : List Char) (offset : Nat) (e : Expr) :
    (e.relocate (Position.within template offset)).withSources text offset =
      (e.withSources text 0).relocate (Position.within template offset) := by
  refine Expr.mapOrigin_relocate (fun o => ?_) e
  simp only [Origin.relocate, sourceText_within]

/-- Reading an expression at some offset of a template gives what reading it alone gives: the same
tree with the same texts, and the same problems, with every position moved to where it is in the
template. -/
theorem parseAt_within (template : List Char) (offset : Nat) (text : String) :
    parseAt text.toList (.within template offset) =
        (parse text).relocate (Position.within template offset) ∧
      (parse text).expr.all
        (fun t => (t.relocate (Position.within template offset)).same t) = true := by
  constructor
  · have hrelocates := Parser.relocates_whole (movesTo_within template text.toList offset)
      (Parser.enoughFuel text.toList.length) (Parser.start text.toList)
    have hstart : (Parser.start text.toList).relocate (Position.within template offset) =
        Parser.start text.toList := rfl
    rw [hstart] at hrelocates
    simp only [parse, parseAt, StateT.run, hrelocates]
    cases hrun : Parser.whole (.within text.toList 0) (Parser.enoughFuel text.toList.length)
        (Parser.start text.toList) with
    | none => rfl
    | some r =>
      obtain ⟨e, s⟩ := r
      simp only [Option.map_some, Parsed.relocate, Option.map_map]
      congr 1
      refine congrArg (Option.map · e) (funext fun e => ?_)
      show ((Expr.withSources text.toList offset (e.relocate _)).numberSites 0).1 = _
      rw [Expr.withSources_relocate, Expr.numberSites_relocate]
      rfl
  · cases (parse text).expr with
    | none => rfl
    | some t => exact Expr.same_of_bare (Expr.bare_relocate _ t)

/-- A problem of an expression on the second line of a template. -/
example : (parseAt ['a', ')'] (.within ['x', '\n', 'y', 'a', ')'] 3)).diagnostics =
    [⟨⟨⟨2, 3, 4⟩, ⟨2, 4, 5⟩⟩, .unmatchedBracket ')'⟩] := by
  decide +kernel

end Stencil
