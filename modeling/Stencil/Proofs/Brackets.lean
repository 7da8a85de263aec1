import Stencil.Proofs.Budget
import Stencil.Proofs.MissingOperands

/-!
# Every bracket is accounted for

The brackets that were opened are those that were closed, those that are open, and those that were
found to be never closed, which were reported each at its own place (`ParserState.Accounts`).
Every reading function keeps this account and leaves the brackets that are open as it found them, so
none is open in the end. What is found to be never closed is found at the end of the text, and then
there is no tree.

Main statements: `brackets_accounted`, and `tree_unless`, the reasons why there is no tree.
-/

namespace Stencil

/-! ## Problems with opening brackets -/

/-- The character that closes a bracket. -/
def BracketKind.closing : BracketKind → Char
  | call | group => ')'
  | argumentName => ']'

theorem BracketKind.closing_of_symbol {kind : BracketKind} (h : kind.symbol = '(') :
    kind.closing = ')' := by
  cases kind <;> first | rfl | exact absurd h (by decide)

/-- Whether the problem is an opening bracket that is never closed. -/
def Fault.isUnclosed : Fault → Bool
  | .unmatchedBracket c => c == '(' || c == '['
  | _ => false

/-- Whether the problem is an opening bracket or an opening brace. -/
def Fault.isOpening : Fault → Bool
  | .unmatchedBracket c => c == '(' || c == '[' || c == '\x7b'
  | _ => false

theorem Fault.isUnclosed_of_not_isOpening {fault : Fault} (h : fault.isOpening = false) :
    fault.isUnclosed = false := by
  cases fault with
  | unmatchedBracket c => exact (Bool.or_eq_false_iff.mp h).1
  | _ => rfl

/-- What is reported of a bracket that is never closed. -/
def Placement.unclosed (place : Placement) (b : OpenBracket) : Diagnostic :=
  ⟨place.span b.start (b.start + 1), .unmatchedBracket b.kind.symbol⟩

theorem isUnclosed_unclosed (place : Placement) (b : OpenBracket) :
    (place.unclosed b).fault.isUnclosed = true := by
  obtain ⟨kind, start⟩ := b
  cases kind <;> rfl

/-! ## Problems with paths -/

/-- Whether what is wrong, if anything is, is no opening bracket. -/
def SparesBrackets {α : Type} (result : Except Fault α) : Prop :=
  ∀ fault, result = .error fault → fault.isOpening = false

section SparesBrackets

variable {α β : Type}

theorem sparesBrackets_ok (a : α) : SparesBrackets (.ok a : Except Fault α) := by
  rintro _ ⟨⟩

theorem sparesBrackets_error {fault : Fault} (h : fault.isOpening = false) :
    SparesBrackets (.error fault : Except Fault α) := by
  rintro _ ⟨⟩
  exact h

theorem SparesBrackets.bind {result : Except Fault α} {f : α → Except Fault β}
    (h : SparesBrackets result) (hf : ∀ a, SparesBrackets (f a)) :
    SparesBrackets (result >>= f) := by
  cases result with
  | ok a => exact hf a
  | error fault => exact sparesBrackets_error (h fault rfl)

theorem SparesBrackets.ite {p : Prop} [Decidable p] {x y : Except Fault α} (hx : SparesBrackets x)
    (hy : SparesBrackets y) : SparesBrackets (if p then x else y) := by
  split
  · exact hx
  · exact hy

end SparesBrackets

namespace Tokenizer

variable (t : Tokenizer)

theorem sparesBrackets_dot : SparesBrackets t.dot := by
  unfold dot
  split <;> first
    | exact sparesBrackets_ok _
    | exact sparesBrackets_error rfl
    | exact .ite (sparesBrackets_ok _) (sparesBrackets_ok _)
    | exact .ite (sparesBrackets_ok _) (sparesBrackets_error rfl)

theorem sparesBrackets_slash : SparesBrackets t.slash := by
  unfold slash
  split
  · exact sparesBrackets_ok _
  · exact .ite (sparesBrackets_error rfl) (sparesBrackets_error rfl)
  · exact sparesBrackets_error rfl

theorem sparesBrackets_entries : SparesBrackets t.entries := by
  unfold entries
  split <;> first
    | exact sparesBrackets_ok _
    | exact sparesBrackets_error rfl
    | exact .ite (sparesBrackets_ok _) (sparesBrackets_error rfl)

theorem sparesBrackets_beginSegment : SparesBrackets t.beginSegment := by
  unfold beginSegment
  split <;> first
    | exact sparesBrackets_ok _
    | exact sparesBrackets_error rfl
    | exact .ite (sparesBrackets_ok _) (sparesBrackets_error rfl)

theorem sparesBrackets_dollar : SparesBrackets t.dollar := by
  refine t.sparesBrackets_beginSegment.bind fun begun => ?_
  cases begun with
  | none => exact sparesBrackets_error rfl
  | some t => exact sparesBrackets_ok _

theorem sparesBrackets_word (c : Char) : SparesBrackets (t.word c) := by
  unfold word
  split
  · exact sparesBrackets_ok _
  · exact .ite (sparesBrackets_ok _) (.ite (sparesBrackets_error rfl) (sparesBrackets_ok _))
  · exact .ite (sparesBrackets_ok _) (sparesBrackets_ok _)
  · refine t.sparesBrackets_beginSegment.bind fun begun => ?_
    cases begun with
    | none => exact sparesBrackets_error rfl
    | some t => exact sparesBrackets_ok _

theorem sparesBrackets_add (c : Char) : SparesBrackets (t.add c) := by
  unfold add
  refine .ite (.ite (sparesBrackets_ok _) (sparesBrackets_error rfl)) ?_
  refine .ite t.sparesBrackets_dot (.ite t.sparesBrackets_slash ?_)
  refine .ite t.sparesBrackets_entries (.ite t.sparesBrackets_dollar ?_)
  exact .ite (t.sparesBrackets_word c) (sparesBrackets_error rfl)

theorem sparesBrackets_checkNumber (parts : Path) : SparesBrackets (checkNumber parts) := by
  unfold checkNumber
  split
  · exact .ite (sparesBrackets_error rfl) (sparesBrackets_ok _)
  · exact sparesBrackets_ok _

theorem sparesBrackets_checked {α : Type} (parts : Path) (a : α) :
    SparesBrackets (checkNumber parts >>= fun _ => .ok a) :=
  (sparesBrackets_checkNumber parts).bind fun _ => sparesBrackets_ok a

theorem sparesBrackets_path : SparesBrackets t.path := by
  unfold path
  cases t.stage <;> first
    | exact sparesBrackets_checked _ _
    | exact sparesBrackets_error rfl
    | exact .ite (sparesBrackets_checked _ _) (sparesBrackets_error rfl)

theorem sparesBrackets_call : SparesBrackets t.call := by
  unfold call
  cases t.stage
  case segment | number =>
    dsimp only
    split
    · exact sparesBrackets_checked _ _
    · exact sparesBrackets_error rfl
  all_goals first
    | exact sparesBrackets_checked _ _
    | exact sparesBrackets_error rfl
    | exact .ite (sparesBrackets_checked _ _) (sparesBrackets_error rfl)

end Tokenizer

theorem isOpening_scanPath {t : Tokenizer} {text : List Char} {fault : Fault}
    (h : (scanPath t text).fault = some fault) : fault.isOpening = false := by
  induction text generalizing t with
  | nil => cases h
  | cons c rest ih =>
    unfold scanPath at h
    split at h
    · cases h
    split at h
    · next hadd =>
      cases h
      exact t.sparesBrackets_add c _ hadd
    · exact ih h

/-! ## The account -/

/-- The brackets that were opened are the open ones, the closed ones and those that are lost: each
of these was reported, no other was, and reading was given up if there are any. -/
structure ParserState.Accounts (place : Placement) (s : ParserState) : Prop where
  /-- Brackets are opened from left to right, the last one first here. -/
  ordered : s.opened.Pairwise fun b before => before.start < b.start
  opened : ∀ b ∈ s.opened,
    b.start < s.cursor.position ∧ s.cursor.input[b.start]? = some b.kind.symbol
  closed : ∀ x ∈ s.closed, x.1.start < x.2 ∧ s.cursor.input[x.2]? = some x.1.kind.closing
  lost : ∃ lost : List OpenBracket,
    s.opened.Perm (lost ++ (s.brackets ++ s.closed.map Prod.fst)) ∧
      s.diagnostics.filter (·.fault.isUnclosed) = lost.map place.unclosed ∧
      (s.gaveUp = true ↔ lost ≠ [])
  /-- Reading is given up at the end of the text only. -/
  ended : s.gaveUp = true → s.cursor.rest = []
  /-- Braces mean nothing within a tag. -/
  braceless : ∀ d ∈ s.diagnostics, d.fault ≠ .unmatchedBracket '\x7b'

/-- Whether a bracket of this kind was just read at `start`. -/
structure ParserState.Opens (s : ParserState) (kind : BracketKind) (start : Nat) : Prop where
  before : start < s.cursor.position
  symbol : s.cursor.input[start]? = some kind.symbol
  last : ∀ b ∈ s.opened, b.start < start

namespace ParserState.Accounts

variable {place : Placement} {s : ParserState} (hs : s.Accounts place)
include hs

theorem count (steps : Nat) : Accounts place { s with steps } :=
  ⟨hs.ordered, hs.opened, hs.closed, hs.lost, hs.ended, hs.braceless⟩

theorem advance (k : Nat) : Accounts place { s with cursor := s.cursor.advance k } where
  ordered := hs.ordered
  opened b hb := ⟨Nat.lt_add_right k (hs.opened b hb).1, (hs.opened b hb).2⟩
  closed := hs.closed
  lost := hs.lost
  ended h := by
    rw [Cursor.rest_advance, hs.ended h, List.drop_nil]
  braceless := hs.braceless

/-- A problem that is no bracket does not count. -/
theorem report {d : Diagnostic} (hd : d.fault.isOpening = false) :
    Accounts place { s with diagnostics := s.diagnostics ++ [d] } := by
  obtain ⟨lost, hopened, hreported, hgaveUp⟩ := hs.lost
  refine ⟨hs.ordered, hs.opened, hs.closed, ⟨lost, hopened, ?_, hgaveUp⟩, hs.ended, ?_⟩
  · rw [List.filter_append, hreported, List.filter_singleton, Fault.isUnclosed_of_not_isOpening hd,
      cond_false, List.append_nil]
  · refine List.forall_mem_append.mpr ⟨hs.braceless, List.forall_mem_singleton.mpr fun hbrace => ?_⟩
    rw [hbrace] at hd
    cases hd

/-- A bracket is opened after it was read. -/
theorem openBracket {kind : BracketKind} {start : Nat} (h : s.Opens kind start) :
    Accounts place
      { s with brackets := ⟨kind, start⟩ :: s.brackets, opened := ⟨kind, start⟩ :: s.opened } := by
  obtain ⟨lost, hopened, hreported, hgaveUp⟩ := hs.lost
  refine ⟨List.pairwise_cons.mpr ⟨h.last, hs.ordered⟩,
    List.forall_mem_cons.mpr ⟨⟨h.before, h.symbol⟩, hs.opened⟩, hs.closed,
    ⟨lost, ?_, hreported, hgaveUp⟩, hs.ended, hs.braceless⟩
  exact (hopened.cons _).trans List.perm_middle.symm

/-- Reading the bracket comes before it is opened. -/
theorem opens (kind : BracketKind) (hc : s.cursor.current? = some kind.symbol) :
    Opens { s with cursor := s.cursor.advance 1 } kind s.cursor.position where
  before := Nat.lt_succ_self _
  symbol := (s.cursor.head?_rest).symm.trans hc
  last b hb := (hs.opened b hb).1

/-- The innermost bracket is closed by the character that closes it. -/
theorem closeBracket {b : OpenBracket} {more : List OpenBracket} (hb : s.brackets = b :: more)
    (hc : s.cursor.current? = some b.kind.closing) :
    Accounts place
      { s with
        cursor := s.cursor.advance 1
        brackets := s.brackets.tail
        closed := s.brackets.head?.toList.map (·, s.cursor.position) ++ s.closed } := by
  obtain ⟨lost, hopened, hreported, hgaveUp⟩ := hs.lost
  rw [hb] at hopened ⊢
  have hmoved := hs.advance 1
  have hread : b ∈ s.opened := by
    rw [hopened.mem_iff]
    simp
  refine ⟨hs.ordered, hmoved.opened, List.forall_mem_cons.mpr ⟨?_, hs.closed⟩,
    ⟨lost, ?_, hreported, hgaveUp⟩, hmoved.ended, hs.braceless⟩
  · exact ⟨(hs.opened b hread).1, (s.cursor.head?_rest).symm.trans hc⟩
  · exact hopened.trans (List.perm_middle.symm.append_left lost)

/-- The innermost bracket is lost when the text has ended. -/
theorem giveUp {b : OpenBracket} {more : List OpenBracket} (hb : s.brackets = b :: more)
    (hend : s.cursor.rest = []) :
    Accounts place
      { s with
        brackets := s.brackets.tail
        diagnostics := s.diagnostics ++
          [⟨place.span b.start (max b.start (b.start + 1)), .unmatchedBracket b.kind.symbol⟩]
        gaveUp := true } := by
  obtain ⟨lost, hopened, hreported, -⟩ := hs.lost
  rw [Nat.max_eq_right (Nat.le_succ _)]
  refine ⟨hs.ordered, hs.opened, hs.closed, ⟨lost ++ [b], ?_, ?_, by simp⟩, fun _ => hend,
    List.forall_mem_append.mpr ⟨hs.braceless, List.forall_mem_singleton.mpr fun hbrace => ?_⟩⟩
  · rw [hb] at hopened ⊢
    rw [List.append_assoc]
    exact hopened
  · rw [List.filter_append, hreported, List.filter_singleton]
    change _ ++ (bif (place.unclosed b).fault.isUnclosed then _ else _) = _
    rw [isUnclosed_unclosed, List.map_append]
    rfl
  · obtain ⟨kind, start⟩ := b
    cases kind <;> cases hbrace

end ParserState.Accounts

theorem accounts_start (place : Placement) (text : List Char) :
    (Parser.start text).Accounts place where
  ordered := .nil
  opened := List.forall_mem_nil _
  closed := List.forall_mem_nil _
  lost := ⟨[], .nil, rfl, by simp [Parser.start]⟩
  ended h := by cases h
  braceless := List.forall_mem_nil _

namespace Parser

variable {α β : Type} {place : Placement} {s : ParserState}

/-! ## Steps that keep the account -/

/-- The open brackets are the same in both states, and all are accounted for in the second one if
they are in the first. -/
def Kept (place : Placement) (s t : ParserState) : Prop :=
  t.brackets = s.brackets ∧ (s.Accounts place → t.Accounts place)

theorem Kept.trans {s t u : ParserState} (h : Kept place s t) (h' : Kept place t u) :
    Kept place s u :=
  ⟨h'.1.trans h.1, h'.2 ∘ h.2⟩

/-- Whether the step, if it is taken in this state, leaves the open brackets as they are and keeps
the account. -/
abbrev Keeps (place : Placement) (m : ParserM α) (s : ParserState) : Prop :=
  Leaves m s fun _ t => Kept place s t

theorem keeps_pure (a : α) : Keeps place (pure a) s :=
  leaves_pure ⟨rfl, id⟩

theorem keeps_modify {u : ParserState → ParserState} (h : Kept place s (u s)) :
    Keeps place (modify u) s := by
  rintro _ _ ⟨⟩
  exact h

theorem Kept.keeps {t : ParserState} {m : ParserM α} (h : Kept place s t) (hm : Keeps place m t) :
    Leaves m t fun _ u => Kept place s u :=
  hm.imp fun _ _ => h.trans

theorem Keeps.bind {m : ParserM α} {f : α → ParserM β} (hm : Keeps place m s)
    (hf : ∀ a t, Keeps place (f a) t) : Keeps place (m >>= f) s :=
  Leaves.bind hm fun a t ht => ht.keeps (hf a t)

section Steps

variable {f : Unit → ParserM β}

theorem keeps_step (hf : ∀ t, t.cursor = s.cursor → Keeps place (f ()) t) :
    Keeps place (step >>= f) s :=
  leaves_step (Kept.keeps ⟨rfl, (·.count _)⟩ (hf _ rfl))

theorem keeps_advance {k : Nat} (hf : ∀ t, Keeps place (f ()) t) :
    Keeps place (advance k >>= f) s :=
  leaves_advance (Kept.keeps ⟨rfl, (·.advance k)⟩ (hf _))

theorem keeps_skipBlanks (hf : ∀ t, Keeps place (f ()) t) : Keeps place (skipBlanks >>= f) s :=
  keeps_advance hf

theorem keeps_report {start stop : Nat} {fault : Fault} (hfault : fault.isOpening = false)
    (hf : ∀ t, t.cursor = s.cursor → Keeps place (f ()) t) :
    Keeps place (report place start stop fault >>= f) s :=
  leaves_report (Kept.keeps ⟨rfl, (·.report hfault)⟩ (hf _ rfl))

theorem keeps_reportHere {fault : Fault} (hfault : fault.isOpening = false)
    (hf : ∀ t, t.cursor = s.cursor → Keeps place (f ()) t) :
    Keeps place (reportHere place fault >>= f) s :=
  leaves_reportHere (Kept.keeps ⟨rfl, (·.report hfault)⟩ (hf _ rfl))

theorem keeps_arrowAhead {f : Bool → ParserM β}
    (hf : ∀ arrow t, t.cursor = s.cursor → Keeps place (f arrow) t) :
    Keeps place (arrowAhead >>= f) s :=
  leaves_arrowAhead fun _ => Kept.keeps ⟨rfl, (·.count _)⟩ (hf _ _ rfl)

end Steps

/-- Giving up takes the innermost bracket away and reports it. -/
theorem leaves_giveUp : Leaves (giveUp place) s fun _ t => t.brackets = s.brackets.tail ∧
    (s.Accounts place → s.brackets ≠ [] → s.cursor.rest = [] → t.Accounts place) := by
  refine leaves_get ?_
  cases hbrackets : s.brackets with
  | nil =>
    rintro _ _ ⟨⟩
    exact ⟨hbrackets, fun _ hne => absurd rfl hne⟩
  | cons b more =>
    rintro _ _ ⟨⟩
    exact ⟨congrArg List.tail hbrackets, fun hs _ hend => hs.giveUp hbrackets hend⟩

theorem keeps_placeholder (start : Nat) : Keeps place (placeholder place start) s :=
  leaves_originFrom (keeps_pure _)

theorem keeps_readPath (t : Tokenizer) : Keeps place (readPath place t) s := by
  refine keeps_step fun s _ => leaves_rest ?_
  dsimp only
  generalize hscan : scanPath t s.cursor.rest = scan
  refine keeps_advance fun s => ?_
  cases hfaults : scan.fault with
  | none => exact keeps_pure _
  | some fault =>
    rw [← hscan] at hfaults
    refine keeps_reportHere (isOpening_scanPath hfaults) fun s _ => keeps_advance fun s => ?_
    exact leaves_rest (keeps_advance fun s => keeps_pure _)

theorem keeps_readString (delimiter : Char) : Keeps place (readString place delimiter) s := by
  refine keeps_step fun s _ => leaves_position (keeps_advance fun t => leaves_rest ?_)
  dsimp only
  generalize scanString delimiter t.cursor.rest = scan
  refine keeps_advance fun u => ?_
  have hend (v : ParserState) : Keeps place (do
      let origin ← originFrom place s.cursor.position
      return Expr.string origin delimiter scan.fragments) v :=
    leaves_originFrom (keeps_pure _)
  cases scan.closed with
  | true => exact hend u
  | false => exact leaves_position (keeps_report rfl fun v _ => hend v)

/-- The bracket of a name is closed or lost before the name is returned. -/
theorem leaves_readArgumentName (kind : BracketKind) :
    Leaves (readArgumentName place kind) s fun _ t => t.brackets = s.brackets ∧
      (s.Accounts place → s.cursor.current? = some '[' → t.Accounts place) := by
  refine leaves_step (leaves_position (leaves_openBracket (leaves_advance (leaves_rest ?_))))
  dsimp only
  -- After the name, its bracket is the innermost one, and only what closes it can come next.
  refine Leaves.bind (P := fun _ t =>
    t.brackets = ⟨.argumentName, s.cursor.position⟩ :: s.brackets ∧
      (s.Accounts place → s.cursor.current? = some '[' → t.Accounts place) ∧
      ∀ c ∈ t.cursor.current?, c = ']') ?_ ?_
  · rintro _ _ ⟨⟩
    refine ⟨rfl, fun hs hc => ?_, fun c => Cursor.head?_advance_takeWhile⟩
    · have hopens := (hs.count (s.steps + 1)).opens .argumentName hc
      exact (((hs.count _).advance 1).openBracket hopens).advance _
  rintro ⟨⟩ t ⟨hbrackets, haccounts, hclose⟩
  refine leaves_current? ?_
  cases hcurrent : t.cursor.current? with
  | none =>
    refine leaves_giveUp.bind fun _ u hu => leaves_pure ⟨?_, fun hs hc => ?_⟩
    · rw [hu.1, hbrackets]
      rfl
    · refine hu.2 (haccounts hs hc) ?_ (List.head?_eq_none_iff.mp hcurrent)
      rw [hbrackets]
      exact List.cons_ne_nil _ _
  | some c =>
    obtain rfl := hclose c hcurrent
    refine leaves_advance (leaves_closeBracket ?_)
    have hrestored : t.brackets.tail = s.brackets := congrArg List.tail hbrackets
    have hkept (hs : s.Accounts place) (hc : s.cursor.current? = some '[') :=
      (haccounts hs hc).closeBracket hbrackets hcurrent
    split
    · exact leaves_pure ⟨hrestored, hkept⟩
    · refine leaves_position (leaves_report (leaves_pure ⟨hrestored, fun hs hc => ?_⟩))
      exact (hkept hs hc).report rfl

/-! ## The reading functions -/

theorem keeps_somePlaceholder (start : Nat) :
    Keeps place (do return some (← placeholder place start)) s :=
  (keeps_placeholder start).bind fun _ _ => keeps_pure _

theorem keeps_onlyPlaceholder (start : Nat) :
    Keeps place (do return [← placeholder place start]) s :=
  (keeps_placeholder start).bind fun _ _ => keeps_pure _

theorem keeps_afterNot (start : Nat) (e : Option Expr) :
    Keeps place (afterNot place start e) s := by
  cases e with
  | none => exact keeps_pure _
  | some e => exact leaves_originFrom (keeps_pure _)

theorem keeps_afterMinus (start : Nat) (e : Option Expr) :
    Keeps place (afterMinus place start e) s := by
  unfold afterMinus
  split
  · exact keeps_pure _
  · exact leaves_originFrom (keeps_pure _)
  · exact keeps_report rfl fun _ _ => keeps_pure _

theorem keeps_afterBody (parameters : Expr) (start : Nat) (body : Option Expr) :
    Keeps place (afterBody place parameters start body) s := by
  cases body with
  | none => exact keeps_pure _
  | some body => exact leaves_originFrom (keeps_pure _)

/-- The innermost bracket, if it is that of arguments, is not open any more in the second state, and
is accounted for. -/
def Taken (place : Placement) (s t : ParserState) : Prop :=
  t.brackets = s.brackets.tail ∧
    (s.Accounts place → (∃ b ∈ s.brackets.head?, b.kind.symbol = '(') → t.Accounts place)

theorem Kept.taken {s t u : ParserState} (h : Kept place s t) (h' : Taken place t u) :
    Taken place s u := by
  obtain ⟨hbrackets, haccounts⟩ := h'
  rw [h.1] at hbrackets haccounts
  exact ⟨hbrackets, fun hs => haccounts (h.2 hs)⟩

/-- Whether the step, if it is taken in this state, closes the innermost bracket or finds that it is
never closed. -/
abbrev Takes (place : Placement) (m : ParserM α) (s : ParserState) : Prop :=
  Leaves m s fun _ t => Taken place s t

theorem Keeps.takes {m : ParserM α} {f : α → ParserM β} (hm : Keeps place m s)
    (hf : ∀ a t, Takes place (f a) t) : Takes place (m >>= f) s :=
  Leaves.bind hm fun a t ht => (hf a t).imp fun _ _ => ht.taken

/-- What is claimed of all reading functions for one amount of fuel. The brackets that are open are
left as they are by every call, whatever the state. The account is kept by those that begin with a
bracket if it is there. -/
structure ReadingKeeps (place : Placement) (fuel : Nat) : Prop where
  expression : ∀ s, Keeps place (expression place fuel) s
  operators : ∀ s operands ops, Keeps place (operators place fuel operands ops) s
  operand : ∀ s, Keeps place (operand place fuel) s
  pathOperand : ∀ s start, Keeps place (pathOperand place fuel start) s
  skipCall : ∀ s, Keeps place (skipCall place fuel) s
  call : ∀ s t start, s.cursor.current? = some '(' → Keeps place (call place fuel t start) s
  chain : ∀ s first start, Keeps place (chain place fuel first start) s
  links : ∀ s, Keeps place (links place fuel) s
  group : ∀ s, s.cursor.current? = some '(' → Keeps place (group place fuel) s
  lambda : ∀ s parameters start, Keeps place (lambda place fuel parameters start) s
  arguments : ∀ s kind start, Leaves (arguments place fuel kind start) s fun _ t =>
    t.brackets = s.brackets ∧
      (s.Accounts place → kind.symbol = '(' → s.Opens kind start → t.Accounts place)
  argumentList : ∀ s kind, Takes place (argumentList place fuel kind) s

namespace ReadingKeeps

variable {fuel : Nat} (ih : ReadingKeeps place fuel)
include ih

/-- What stands in a bracket is read after the bracket itself. -/
theorem bracket {kind : BracketKind} (hkind : kind.symbol = '(')
    (hc : s.cursor.current? = some '(') {f : List Argument → ParserM β}
    (hf : ∀ args t, Keeps place (f args) t) :
    Keeps place (do
      advance 1
      let args ← Parser.arguments place fuel kind s.cursor.position
      f args) s := by
  refine leaves_advance ((ih.arguments _ _ _).bind fun args t ht => ?_)
  refine Kept.keeps ⟨ht.1, fun hs => ?_⟩ (hf args t)
  exact ht.2 (hs.advance 1) hkind (hs.opens kind (by rw [hkind]; exact hc))

theorem expression_succ : Keeps place (Parser.expression place (fuel + 1)) s := by
  rw [Parser.expression]
  refine keeps_step fun s _ => (ih.operand s).bind fun first s => ?_
  cases first with
  | none => exact keeps_pure _
  | some first => exact (ih.operators s _ _).bind fun _ _ => keeps_pure _

theorem operators_succ (operands : List Expr) (ops : List Operator) :
    Keeps place (Parser.operators place (fuel + 1) operands ops) s := by
  rw [Parser.operators]
  refine keeps_step fun s _ => keeps_skipBlanks fun s => leaves_current? ?_
  cases s.cursor.current? with
  | none => exact keeps_pure _
  | some c =>
    have hskip {fault : Fault} (hfault : fault.isOpening = false) : Keeps place (do
        reportHere place fault
        advance 1
        Parser.operators place fuel operands ops) s :=
      keeps_reportHere hfault fun s _ => keeps_advance fun s => ih.operators s _ _
    refine leaves_get ?_
    dsimp only
    split
    · exact keeps_pure _
    split
    · exact hskip rfl
    split
    · exact hskip rfl
    split
    · exact keeps_reportHere rfl fun s _ => (keeps_readString c).bind fun _ s => ih.operators s _ _
    refine leaves_rest ?_
    split
    · exact leaves_position (keeps_advance fun s => keeps_report rfl fun s _ => ih.operators s _ _)
    refine leaves_rest ?_
    split
    · exact hskip rfl
    · refine keeps_advance fun s => keeps_step fun s _ => (ih.operand s).bind fun right s => ?_
      cases right with
      | none => exact keeps_pure _
      | some right => exact ih.operators s _ _

theorem operandAt_keeps {c : Char} (hc : s.cursor.current? = some c) (start : Nat)
    (next : Option Char) : Keeps place (operandAt place fuel start c next) s := by
  unfold operandAt
  split
  · exact (keeps_readString c).bind fun _ s => ih.chain s _ _
  split
  · next hopen => exact ih.group s (by rw [hc, eq_of_beq hopen])
  split
  · exact keeps_advance fun s => (ih.operand s).bind fun e _ => keeps_afterNot start e
  split
  · exact keeps_advance fun s => (ih.operand s).bind fun e _ => keeps_afterMinus start e
  split
  · exact keeps_reportHere rfl fun _ _ => keeps_pure _
  split
  · exact keeps_reportHere rfl fun _ _ => keeps_advance fun _ => keeps_pure _
  refine leaves_rest ?_
  split
  · exact keeps_report rfl fun _ _ => keeps_advance fun s => ih.operand s
  · exact ih.pathOperand s start

theorem operand_succ : Keeps place (Parser.operand place (fuel + 1)) s := by
  rw [operand_eq]
  refine keeps_step fun s _ => keeps_skipBlanks fun s => leaves_position (leaves_current? ?_)
  cases hcurrent : s.cursor.current? with
  | none => exact keeps_report rfl fun _ _ => keeps_pure _
  | some c => exact leaves_get (ih.operandAt_keeps hcurrent _ _)

theorem afterPath_keeps (start : Nat) (path : Option Tokenizer) :
    Keeps place (afterPath place fuel start path) s := by
  cases path with
  | none => exact (ih.skipCall s).bind fun _ _ => keeps_somePlaceholder start
  | some t =>
    refine leaves_current? ?_
    split
    · next hopen => exact ih.call s t start (eq_of_beq hopen)
    split
    · next fault hpath =>
      exact leaves_position (keeps_report (t.sparesBrackets_path fault hpath) fun _ _ =>
        keeps_somePlaceholder start)
    · refine leaves_originFrom ?_
      split
      · dsimp only
        split <;> exact keeps_pure _
      · refine keeps_arrowAhead fun arrow s _ => ?_
        split
        · exact ih.lambda s _ start
        · exact keeps_pure _
      · exact keeps_pure _

theorem pathOperand_succ (start : Nat) :
    Keeps place (Parser.pathOperand place (fuel + 1) start) s := by
  rw [pathOperand_eq]
  exact keeps_step fun s _ => (keeps_readPath _).bind fun path _ => ih.afterPath_keeps start path

theorem skipCall_succ : Keeps place (Parser.skipCall place (fuel + 1)) s := by
  rw [Parser.skipCall]
  refine keeps_step fun s _ => leaves_current? ?_
  split
  · next hopen =>
    exact leaves_position (ih.bracket rfl (eq_of_beq hopen) fun _ _ => keeps_pure _)
  · exact keeps_pure _

theorem call_succ (t : Tokenizer) (start : Nat) (hc : s.cursor.current? = some '(') :
    Keeps place (Parser.call place (fuel + 1) t start) s := by
  rw [Parser.call]
  refine keeps_step fun s hsame => leaves_position ?_
  refine ih.bracket rfl (by rw [hsame]; exact hc) fun args s => ?_
  split
  · exact leaves_originFrom (ih.chain s _ _)
  · next fault hcall =>
    exact keeps_report (t.sparesBrackets_call fault hcall) fun _ _ => keeps_somePlaceholder start

theorem chain_succ (first : Expr) (start : Nat) :
    Keeps place (Parser.chain place (fuel + 1) first start) s := by
  rw [Parser.chain]
  refine keeps_step fun s _ => (ih.links s).bind fun links s => ?_
  cases links with
  | nil => exact keeps_pure _
  | cons _ _ => exact leaves_originFrom (keeps_pure _)

theorem afterLink_keeps (start : Nat) (path : Option Tokenizer) :
    Keeps place (afterLink place fuel start path) s := by
  cases path with
  | none => exact (ih.skipCall s).bind fun _ _ => keeps_onlyPlaceholder start
  | some t =>
    refine leaves_current? ?_
    split
    · next hopen =>
      refine leaves_position (ih.bracket rfl (eq_of_beq hopen) fun args s => ?_)
      split
      · exact leaves_originFrom ((ih.links s).bind fun _ _ => keeps_pure _)
      · next fault hcall =>
        exact keeps_report (t.sparesBrackets_call fault hcall) fun _ _ =>
          keeps_onlyPlaceholder start
    split
    · exact keeps_report rfl fun _ _ => keeps_pure _
    split
    · exact leaves_originFrom (keeps_pure _)
    · next fault hpath =>
      exact leaves_position (keeps_report (t.sparesBrackets_path fault hpath) fun _ _ =>
        keeps_onlyPlaceholder start)

theorem links_succ : Keeps place (Parser.links place (fuel + 1)) s := by
  rw [links_eq]
  refine keeps_step fun s _ => leaves_current? ?_
  split
  · exact keeps_pure _
  · exact keeps_advance fun s => leaves_position ((keeps_readPath _).bind fun path _ =>
      ih.afterLink_keeps _ path)

theorem afterGroup_keeps (start : Nat) (args : List Argument) :
    Keeps place (afterGroup place fuel start args) s := by
  refine leaves_get ?_
  split
  · exact keeps_pure _
  refine keeps_arrowAhead fun arrow s _ => ?_
  split
  · exact leaves_originFrom (ih.lambda s _ start)
  have hchain (s : ParserState) : Keeps place (originFrom place start >>= fun o =>
      Parser.chain place fuel (.list o .bracket (args.map Argument.expr)) start) s :=
    leaves_originFrom (ih.chain s _ start)
  split
  · exact leaves_position (keeps_report rfl fun s _ => hchain s)
  · exact hchain s
  · exact leaves_position (keeps_report rfl fun s _ => hchain s)

theorem group_succ (hc : s.cursor.current? = some '(') :
    Keeps place (Parser.group place (fuel + 1)) s := by
  rw [group_eq]
  refine keeps_step fun s hsame => leaves_position ?_
  exact ih.bracket rfl (by rw [hsame]; exact hc) fun args _ => ih.afterGroup_keeps _ args

theorem lambda_succ (parameters : Expr) (start : Nat) :
    Keeps place (Parser.lambda place (fuel + 1) parameters start) s := by
  rw [lambda_eq]
  have hbody (s : ParserState) : Keeps place
      (Parser.expression place fuel >>= afterBody place parameters start) s :=
    (ih.expression s).bind fun body _ => keeps_afterBody parameters start body
  refine keeps_step fun s _ => keeps_skipBlanks fun s => keeps_advance fun s => ?_
  dsimp only
  split
  · exact leaves_position (keeps_report rfl fun s _ => hbody s)
  · exact hbody s

/-- The bracket is closed here, after the arguments that follow, or lost. -/
theorem afterItem_takes (kind : BracketKind) (start : Nat) (name : Option String)
    (e : Option Expr) : Takes place (afterItem place fuel kind start name e) s := by
  refine leaves_originFrom ?_
  refine Keeps.takes (keeps_modify ⟨rfl, (·.advance _)⟩) fun _ s => leaves_current? ?_
  cases hcurrent : s.cursor.current? with
  | none =>
    refine leaves_giveUp.bind fun _ t ht => leaves_pure ⟨ht.1, ?_⟩
    rintro hs ⟨b, hb, -⟩
    refine ht.2 hs (fun hnil => ?_) (List.head?_eq_none_iff.mp hcurrent)
    rw [hnil] at hb
    cases hb
  | some c =>
    have hnext (read : List Argument) (s : ParserState) : Takes place (do
        advance 1
        return read ++ (← Parser.argumentList place fuel kind)) s :=
      Keeps.takes (keeps_modify ⟨rfl, (·.advance 1)⟩) fun _ s =>
        (ih.argumentList s kind).bind fun _ _ ht => leaves_pure ht
    dsimp only
    split
    · next hclose =>
      refine leaves_advance (leaves_closeBracket (leaves_pure ⟨rfl, ?_⟩))
      rintro hs ⟨b, hb, hsymbol⟩
      obtain ⟨more, hbrackets⟩ := List.head?_eq_some_iff.mp hb
      refine hs.closeBracket hbrackets ?_
      rw [hcurrent, BracketKind.closing_of_symbol hsymbol, eq_of_beq hclose]
    split
    · refine Keeps.takes (leaves_position (keeps_modify ⟨rfl, ?_⟩)) fun _ s => hnext _ s
      exact fun hs => hs.report rfl
    · exact hnext _ s

theorem item_takes (kind : BracketKind) (start : Nat) (name : Option String) :
    Takes place (item place fuel kind start name) s :=
  (ih.expression s).takes fun e _ => ih.afterItem_takes kind start name e

theorem argumentList_succ (kind : BracketKind) :
    Takes place (Parser.argumentList place (fuel + 1) kind) s := by
  rw [argumentList_eq]
  refine Keeps.takes (keeps_modify ⟨rfl, (·.count _)⟩) fun _ s => ?_
  refine Keeps.takes (keeps_modify ⟨rfl, (·.advance _)⟩) fun _ s => ?_
  refine leaves_position (leaves_current? ?_)
  split
  · next hopen =>
    refine (leaves_readArgumentName kind).bind fun name t ht => ?_
    refine (ih.item_takes kind _ name).imp fun _ _ => Kept.taken ⟨ht.1, fun hs => ?_⟩
    exact ht.2 hs (eq_of_beq hopen)
  · exact ih.item_takes kind _ none

/-- The bracket that is opened is the one that is closed or lost. -/
theorem arguments_succ (kind : BracketKind) (start : Nat) :
    Leaves (Parser.arguments place (fuel + 1) kind start) s fun _ t => t.brackets = s.brackets ∧
      (s.Accounts place → kind.symbol = '(' → s.Opens kind start → t.Accounts place) := by
  rw [Parser.arguments]
  refine leaves_step (leaves_openBracket (leaves_skipBlanks (leaves_current? ?_)))
  have hopened (hs : s.Accounts place) (hopens : s.Opens kind start) :=
    (ParserState.Accounts.openBracket (hs.count (s.steps + 1))
      ⟨hopens.before, hopens.symbol, hopens.last⟩).advance (s.cursor.blanks)
  split
  · next hclose =>
    refine leaves_advance (leaves_closeBracket (leaves_pure ⟨rfl, fun hs hkind hopens => ?_⟩))
    refine (hopened hs hopens).closeBracket rfl ?_
    rw [BracketKind.closing_of_symbol hkind]
    exact eq_of_beq hclose
  · refine (ih.argumentList _ kind).imp fun _ t ht => ⟨ht.1, ?_⟩
    exact fun hs hkind hopens => ht.2 (hopened hs hopens) ⟨_, rfl, hkind⟩

end ReadingKeeps

/-- All reading functions leave the open brackets as they are and keep the account. -/
theorem reading_keeps (place : Placement) : ∀ fuel, ReadingKeeps place fuel
  | 0 => by
    constructor <;> intros <;>
      simp only [expression, operators, operand, pathOperand, skipCall, call, chain, links, group,
        lambda, arguments, argumentList, leaves_failure]
  | fuel + 1 =>
    have ih := reading_keeps place fuel
    { expression := fun _ => ih.expression_succ
      operators := fun _ operands ops => ih.operators_succ operands ops
      operand := fun _ => ih.operand_succ
      pathOperand := fun _ start => ih.pathOperand_succ start
      skipCall := fun _ => ih.skipCall_succ
      call := fun _ t start hc => ih.call_succ t start hc
      chain := fun _ first start => ih.chain_succ first start
      links := fun _ => ih.links_succ
      group := fun _ hc => ih.group_succ hc
      lambda := fun _ parameters start => ih.lambda_succ parameters start
      arguments := fun _ kind start => ih.arguments_succ kind start
      argumentList := fun _ kind => ih.argumentList_succ kind }

theorem keeps_whole (place : Placement) (fuel : Nat) : Keeps place (whole place fuel) s := by
  refine keeps_skipBlanks fun s => leaves_current? ?_
  cases s.cursor.current? with
  | none => exact leaves_position (keeps_report rfl fun _ _ => keeps_pure _)
  | some c =>
    exact ((reading_keeps place fuel).expression s).bind fun e s => leaves_get (keeps_pure _)

end Parser

open Stencil.Parser

/-- A text without a tree has a problem. -/
theorem diagnostics_ne_nil {text : List Char} {place : Placement} {fuel : Nat} {s : ParserState}
    (hrun : whole place fuel (start text) = some (none, s)) (hs : s.Accounts place) :
    s.diagnostics ≠ [] := by
  rintro hnil
  rcases lacks_whole fuel (leading_start text) _ s hrun rfl with hlost | ⟨_, _, -, -, hlast⟩
  · obtain ⟨lost, -, hreported, hgaveUp⟩ := hs.lost
    rw [hnil] at hreported
    exact hgaveUp.mp hlost (List.map_eq_nil_iff.mp hreported.symm)
  · rw [hnil] at hlast
    cases hlast

/-- An opening brace is no problem of an expression. -/
theorem fault_ne_brace {text : List Char} {place : Placement} {d : Diagnostic}
    (h : d ∈ (parseAt text place).diagnostics) : d.fault ≠ .unmatchedBracket '\x7b' := by
  obtain ⟨e, s, hrun, hparsed⟩ := exists_run text place
  have hs := (keeps_whole place _ e s hrun).2 (accounts_start place text)
  rw [hparsed] at h
  exact hs.braceless d h

/-- Every bracket is accounted for, and no failure is silent. A call that reads arguments or the
name of one leaves the brackets that are open as it found them, in every state. So none is open when
a text was read: each one that was opened, at its own character, was closed by the character that
closes it or is lost. Each lost one is reported once, at its place, no other opening bracket is, and
then the text has ended and there is no tree. If there is none, there is a problem. -/
theorem brackets_accounted (text : List Char) (place : Placement) :
    (∀ fuel kind start s, Leaves (arguments place fuel kind start) s fun _ t =>
      t.brackets = s.brackets) ∧
    (∀ kind s, Leaves (readArgumentName place kind) s fun _ t => t.brackets = s.brackets) ∧
    ∃ e s, whole place (enoughFuel text.length) (start text) = some (e, s) ∧
      parseAt text place =
        ⟨e.map fun e => ((e.withSources text place.offset).numberSites 0).1, s.diagnostics⟩ ∧
      (e = none → s.diagnostics ≠ []) ∧
      s.brackets = [] ∧
      (s.opened.Pairwise fun b before => before.start < b.start) ∧
      (∀ b ∈ s.opened, text[b.start]? = some b.kind.symbol) ∧
      (∀ x ∈ s.closed, x.1.start < x.2 ∧ text[x.2]? = some x.1.kind.closing) ∧
      ∃ lost : List OpenBracket, s.opened.Perm (lost ++ s.closed.map Prod.fst) ∧
        s.diagnostics.filter (·.fault.isUnclosed) = lost.map place.unclosed ∧
        (lost ≠ [] → s.cursor.rest = [] ∧ e = none) := by
  refine ⟨fun fuel kind start s => ?_, fun kind s => ?_, ?_⟩
  · exact ((reading_keeps place fuel).arguments s kind start).imp fun _ _ h => h.1
  · exact (leaves_readArgumentName kind).imp fun _ _ h => h.1
  obtain ⟨e, s, hrun, hparsed⟩ := exists_run text place
  obtain ⟨hbrackets, haccounts⟩ := keeps_whole place _ e s hrun
  have hs := haccounts (accounts_start place text)
  have hinput : s.cursor.input = text := (forward.across_whole place _ _ e s hrun).input
  obtain ⟨lost, hopened, hreported, hgaveUp⟩ := hs.lost
  refine ⟨e, s, hrun, hparsed, ?_, hbrackets, hs.ordered, ?_, ?_, lost, ?_, hreported, ?_⟩
  · rintro rfl
    exact diagnostics_ne_nil hrun hs
  · exact fun b hb => hinput ▸ (hs.opened b hb).2
  · exact hinput ▸ hs.closed
  · rwa [hbrackets] at hopened
  · exact fun hlost => ⟨hs.ended (hgaveUp.mpr hlost),
      none_of_gaveUp _ e s hrun (hgaveUp.mpr hlost)⟩

/-! ## Texts without a tree -/

/-- The offset where an operand is missing is that of the problem. -/
theorem MissingAt.start {place : Placement} {text : List Char} {offset : Nat} {d : Diagnostic}
    (h : MissingAt place text offset d) : d.span.start.offset = place.offset + offset := by
  cases h <;> rfl

/-- Why a text has no tree. A blank text has none, and neither has one in which a bracket was never
closed. The only other reason is that the first operand is missing: then the last problem says so,
at the place where reading stopped, and only operators and heads of lambdas come before it. -/
theorem tree_unless (text : List Char) (place : Placement) :
    (Text.Blanks text → (parseAt text place).expr = none) ∧
    (∀ d ∈ (parseAt text place).diagnostics, d.fault.isUnclosed = true →
      (parseAt text place).expr = none) ∧
    ((parseAt text place).expr = none →
      (∃ b : OpenBracket, text[b.start]? = some b.kind.symbol ∧
        place.unclosed b ∈ (parseAt text place).diagnostics) ∨
      ∃ offset problem, offset ≤ text.length ∧ Prelude (text.take offset) ∧
        MissingAt place text offset problem ∧
        (parseAt text place).diagnostics.getLast? = some problem) := by
  obtain ⟨e, s, hrun, hparsed⟩ := exists_run text place
  have hs := (keeps_whole place _ e s hrun).2 (accounts_start place text)
  have hinput : s.cursor.input = text := (forward.across_whole place _ _ e s hrun).input
  obtain ⟨lost, hopened, hreported, hgaveUp⟩ := hs.lost
  have hnone (h : e = none) : (parseAt text place).expr = none := by
    rw [hparsed, h]
    rfl
  have hproblems : (parseAt text place).diagnostics = s.diagnostics := by rw [hparsed]
  refine ⟨fun hblank => hnone ?_, fun d hd hunclosed => hnone ?_, fun hexpr => ?_⟩
  · exact none_of_blank _ hblank e s hrun
  · -- Only brackets that were lost are reported so.
    refine none_of_gaveUp _ e s hrun (hgaveUp.mpr fun hnil => ?_)
    have hmem : d ∈ s.diagnostics.filter (·.fault.isUnclosed) :=
      List.mem_filter.mpr ⟨hproblems ▸ hd, hunclosed⟩
    rw [hreported, hnil] at hmem
    cases hmem
  · have he : e = none := by
      rw [hparsed] at hexpr
      exact Option.map_eq_none_iff.mp hexpr
    rw [hproblems]
    rcases lacks_whole _ (leading_start text) e s hrun he with hlost | ⟨offset, d, hlead, hd, hlast⟩
    · obtain ⟨b, hb⟩ := List.exists_mem_of_ne_nil lost (hgaveUp.mp hlost)
      have hmem : place.unclosed b ∈ s.diagnostics.filter (·.fault.isUnclosed) := by
        rw [hreported]
        exact List.mem_map_of_mem hb
      have hread : b ∈ s.opened := hopened.mem_iff.mpr (List.mem_append_left _ hb)
      exact .inl ⟨b, hinput ▸ (hs.opened b hread).2, (List.mem_filter.mp hmem).1⟩
    · rw [hinput] at hlead hd
      refine .inr ⟨offset, d, ?_, hlead, hd, hlast⟩
      obtain ⟨start, stop, hle, hstop, hspan⟩ := covers_of_mem_parseAt
        (hproblems ▸ List.mem_of_getLast? hlast : d ∈ (parseAt text place).diagnostics)
      have hoffset := hd.start
      rw [hspan] at hoffset
      have hstart : place.offset + start = place.offset + offset := hoffset
      omega

/-- Blank texts and open brackets are not the only reasons. -/
theorem closing_bracket_has_no_tree :
    ¬ ∀ text : String, (parse text).expr = none →
      Text.Blanks text.toList ∨ ∃ d ∈ (parse text).diagnostics, d.fault.isUnclosed = true := by
  intro h
  rcases h "]" (by decide +kernel) with hblank | ⟨d, hd, hunclosed⟩
  · exact absurd (hblank ']' (by decide)) (by decide +kernel)
  · have hnone : (parse "]").diagnostics.all (!·.fault.isUnclosed) = true := by decide +kernel
    have hd := List.all_eq_true.mp hnone d hd
    rw [hunclosed] at hd
    cases hd

end Stencil
