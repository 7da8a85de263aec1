import Stencil.Proofs.Growing
import Stencil.Proofs.Nodes
import Stencil.Proofs.PathText
import Stencil.Proofs.Writing

/-!
# Written operands are read

`Phrase.Reads` says what is claimed of each phrase that is written: that it is read without a
problem wherever there is enough fuel, and that the phrase it is read as differs in origins and
sites only. Here this is shown of operands, links and arguments, given that it holds of their parts.
The fuel that is needed grows with the text that is left: every call of a reading function either
takes a character first or goes to a function that needs less.
-/

namespace Stencil

open Text (Blanks)
open Tokenizer (leading continuation)

namespace Parser

variable {place : Placement} {c : Cursor} {b : List OpenBracket}

/-! ## Names and literals -/

theorem steps_readPath {t t' : Tokenizer} {cs tail : List Char} (hfeed : t.feed cs = .ok t')
    (hslash : t'.expectsSlash = false) (hcloses : Closes cs tail) (hrest : c.rest = cs ++ tail) :
    Steps (readPath place t) c b (some t') (c.advance cs.length) b := by
  have hscan := scanPath_append hfeed hslash hcloses
  refine (steps_step c b).bind ((steps_rest c b).bind ?_)
  rw [hrest, hscan]
  exact (steps_advance c b cs.length).bind (steps_pure _ _ _)

theorem steps_readString {d : Char} {fs : List Fragment} {tail : List Char}
    (hliteral : IsLiteral d fs) (hrest : c.rest = d :: (Fragment.render fs ++ d :: tail)) :
    ∃ o c', Steps (readString place d) c b (.string o d fs) c' b ∧ c'.rest = tail := by
  have hscan := hliteral tail
  refine ⟨⟨place.span c.position (c.position + 1 + ((Fragment.render fs).length + 1)), none⟩,
    (c.advance 1).advance ((Fragment.render fs).length + 1), ?_, ?_⟩
  · refine (steps_step c b).bind ?_
    refine (steps_position c b).bind ((steps_advance c b 1).bind ((steps_rest _ b).bind ?_))
    rw [Cursor.rest_advance, hrest, List.drop_one, List.tail_cons, hscan]
    exact (steps_advance _ b _).bind ((steps_originFrom place _ b _).bind (steps_pure _ _ _))
  · have hlength : (Fragment.render fs).length + 1 = (Fragment.render fs ++ [d]).length := by
      simp
    rw [hlength]
    refine Cursor.rest_advance_length ?_
    rw [Cursor.rest_advance, hrest]
    simp

theorem isWord_bracket : Text.isWord ']' = false := by decide

theorem steps_readArgumentName {cs tail : List Char} (hne : cs ≠ [])
    (hword : cs.all Text.isWord = true) (hrest : c.rest = '[' :: (cs ++ ']' :: tail)) :
    ∃ c', Steps (readArgumentName place .call) c b (some (String.ofList cs)) c' b ∧
      c'.rest = tail := by
  -- A name consists of word characters, so it goes on up to the bracket.
  have hname : (cs ++ ']' :: tail).takeWhile (· != ']') = cs := by
    have hall : ∀ x ∈ cs, (x != ']') = true := by
      intro x hx
      refine bne_iff_ne.mpr ?_
      rintro rfl
      have hx := List.all_eq_true.mp hword ']' hx
      rw [isWord_bracket] at hx
      cases hx
    rw [List.takeWhile_append_of_pos hall]
    simp
  have hrest₁ : (c.advance 1).rest = cs ++ ']' :: tail := by
    rw [Cursor.rest_advance, hrest]
    rfl
  have hrest₂ : ((c.advance 1).advance cs.length).rest = ']' :: tail :=
    Cursor.rest_advance_length hrest₁
  refine ⟨((c.advance 1).advance cs.length).advance 1, ?_, by rw [Cursor.rest_advance, hrest₂]; rfl⟩
  refine (steps_step c b).bind ((steps_position c b).bind ((steps_openBracket c b _ _).bind ?_))
  refine (steps_advance c _ 1).bind ((steps_rest _ _).bind ?_)
  rw [hrest₁, hname]
  refine (steps_advance _ _ _).bind ((steps_current? _ _).bind ?_)
  rw [hrest₂]
  refine (steps_advance _ _ 1).bind ((steps_closeBracket _ _).bind ?_)
  have hempty : cs.isEmpty = false := by
    cases cs with
    | nil => exact absurd rfl hne
    | cons x xs => rfl
  rw [if_pos (by rw [hempty, hword]; rfl)]
  exact steps_pure _ _ _

/-! ## What is claimed of each phrase -/

/-- The result is the expression, up to origins and sites, and at most blanks were skipped after
it. -/
def Gives (e : Expr) (tail : List Char) (b : List OpenBracket) (r : Option Expr) (c' : Cursor)
    (b' : List OpenBracket) : Prop :=
  b' = b ∧ (∃ e', r = some e' ∧ e'.bare = e.bare) ∧ ∃ bl, Blanks bl ∧ tail = bl ++ c'.rest

/-- Reading an operand onto the stacks and going on is going on from a later state, where the
expression is on the stack as far as operators that bind as tightly are concerned. -/
def Resumes (place : Placement) (e : Expr) (tail : List Char) (b : List OpenBracket) (fuel : Nat)
    (operands : List Expr) (ops : List Operator) (s : ParserState) : Prop :=
  ∃ first s₁, operand place fuel s = some (some first, s₁) ∧
    ∃ fuel' operands' ops' s' c',
      operators place fuel (first :: operands) ops s₁ = operators place fuel' operands' ops' s' ∧
        Sees s' c' b ∧ s'.diagnostics = s.diagnostics ∧ 8 * c'.rest.length + 1 ≤ fuel' ∧
          (∃ bl, Blanks bl ∧ tail = bl ++ c'.rest) ∧
            ∀ p ≤ e.tightness, AlikeStacks (reduce p operands' ops') (reduce p (e :: operands) ops)

end Parser

open Stencil.Parser

/-- Whether the text is read as the phrase wherever fuel and brackets allow it. -/
def Phrase.Reads (place : Placement) (inside : Bool) (cs tail : List Char) : Phrase → Prop
  | .operand e => ∀ (fuel : Nat) (c : Cursor) (b : List OpenBracket) (ws : List Char),
    b.isEmpty = !inside → Blanks ws → c.rest = ws ++ (cs ++ tail) →
      8 * c.rest.length + 4 ≤ fuel → Succeeds (Parser.operand place fuel) c b (Gives e tail b)
  | .links es => ∀ (fuel : Nat) (c : Cursor) (b : List OpenBracket),
    b.isEmpty = !inside → c.rest = cs ++ tail → 8 * c.rest.length + 1 ≤ fuel →
      Succeeds (Parser.links place fuel) c b fun es' c' b' =>
        b' = b ∧ Expr.bareAll es' = Expr.bareAll es ∧ c'.rest = tail
  | .arguments kind args => ∀ (fuel start : Nat) (c : Cursor) (b : List OpenBracket),
    c.rest = cs ++ tail → 8 * c.rest.length + 7 ≤ fuel →
      Succeeds (Parser.arguments place fuel kind start) c b fun args' c' b' =>
        b' = b ∧ Argument.bareAll args' = Argument.bareAll args ∧ c'.rest = tail
  | .items kind args => ∀ (fuel : Nat) (c : Cursor) (b : List OpenBracket),
    b ≠ [] → Text.trimStart c.rest = Text.trimStart (cs ++ tail) → 8 * c.rest.length + 6 ≤ fuel →
      Succeeds (argumentList place fuel kind) c b fun args' c' b' =>
        b' = b.tail ∧ Argument.bareAll args' = Argument.bareAll args ∧ c'.rest = tail
  | .tree e => ∀ (fuel : Nat) (c : Cursor) (b : List OpenBracket) (ws : List Char)
      (operands : List Expr) (ops : List Operator) (s : ParserState), Sees s c b →
    b.isEmpty = !inside → Blanks ws → c.rest = ws ++ (cs ++ tail) →
      8 * c.rest.length + 4 ≤ fuel → (∀ op ∈ ops.head?, op.precedence < e.tightness) →
        Resumes place e tail b fuel operands ops s

namespace Parser

variable {place : Placement} {c : Cursor} {b : List OpenBracket} {inside : Bool}

/-! ## Operands -/

/-- An operand is read from its first character on. -/
theorem succeeds_operand {fuel : Nat} {ws : List Char} {ch : Char} {text : List Char}
    {Q : Option Expr → Cursor → List OpenBracket → Prop} (hws : Blanks ws)
    (hch : Text.isBlank ch = false) (hrest : c.rest = ws ++ ch :: text)
    (h : Succeeds (operandAt place fuel (c.advance ws.length).position ch text.head?)
      (c.advance ws.length) b Q) : Succeeds (operand place (fuel + 1)) c b Q := by
  have hskip := Cursor.skipBlanks_eq hws hrest (Text.trimStart_cons hch text)
  have hrest' : (c.advance ws.length).rest = ch :: text := Cursor.rest_advance_length hrest
  rw [operand_eq]
  refine (steps_step c b).succeeds ((steps_skipBlanks c b).succeeds ?_)
  rw [hskip]
  refine (steps_position _ b).succeeds ((steps_current? _ b).succeeds ?_)
  rw [hrest']
  refine succeeds_get fun s hs => ?_
  have hpeek : s.cursor.peek? 1 = text.head? := by
    rw [hs.cursor, Cursor.peek?, hrest', List.getElem?_cons_succ, List.head?_eq_getElem?]
  rw [hpeek]
  exact h

/-- The characters with which an operand that is no path begins. -/
def specialChars : List Char :=
  ['\'', '"', '(', '!', '-', ')', ',', ']', '[', '\x7b', '\x7d']

theorem ne_special {ch x : Char} (h : isPathChar ch = true) (hx : x ∈ specialChars) :
    (ch == x) = false := by
  have hall : specialChars.all (fun x => !isPathChar x) = true := by decide +kernel
  refine beq_eq_false_iff_ne.mpr ?_
  rintro rfl
  have hnot := List.all_eq_true.mp hall ch hx
  rw [h] at hnot
  cases hnot

theorem atStart?_eq_none {text : List Char} (h : endsPath text = false) :
    Operator.atStart? text = none := by
  cases hop : Operator.atStart? text with
  | none => rfl
  | some op =>
    rw [(beginsOperator hop).ends] at h
    cases h

/-- An operand that begins with a path. -/
theorem succeeds_operandAt_path {fuel start : Nat} {ch : Char} {text : List Char}
    {next : Option Char} {Q : Option Expr → Cursor → List OpenBracket → Prop}
    (hch : isPathChar ch = true) (hends : endsPath (ch :: text) = false)
    (hrest : c.rest = ch :: text) (h : Succeeds (pathOperand place fuel start) c b Q) :
    Succeeds (operandAt place fuel start ch next) c b Q := by
  have hne : ∀ x ∈ specialChars, (ch == x) = false := fun x hx => ne_special hch hx
  simp only [specialChars, List.forall_mem_cons] at hne
  obtain ⟨h₁, h₂, h₃, h₄, h₅, h₆, h₇, h₈, h₉, h₁₀, h₁₁, -⟩ := hne
  simp only [operandAt, h₁, h₂, h₃, h₄, h₅, h₆, h₇, h₈, h₉, h₁₀, h₁₁, Bool.or_self,
    Bool.false_and, Bool.false_eq_true, if_false]
  refine (steps_rest c b).succeeds ?_
  rw [hrest, atStart?_eq_none hends]
  exact h

/-- The first character of a path is no end of it. -/
theorem exists_first_of_feed {t : Tokenizer} {cs tail : List Char} (hfeed : leading.feed cs = .ok t)
    (hne : cs ≠ []) (hcloses : Closes cs tail) :
    ∃ ch rest, cs = ch :: rest ∧ isPathChar ch = true ∧
      endsPath (ch :: (rest ++ tail)) = false := by
  cases cs with
  | nil => exact absurd rfl hne
  | cons ch rest =>
    obtain ⟨t₁, hadd, hrest⟩ := Tokenizer.exists_of_feed_cons hfeed
    refine ⟨ch, rest, rfl, isPathChar_of_add hadd, ?_⟩
    have hgoes := @goesOn _ _ _ hadd (rest ++ tail) fun hc => by
      subst hc
      exact head?_append_ne_entries hrest hadd fun hnil => hcloses.entries (by rw [hnil]; rfl)
    simpa [Tokenizer.expectsSlash, leading] using hgoes

/-- An operand whose text begins with a path is read by reading the path. -/
theorem succeeds_operand_path {fuel : Nat} {ws cs tail : List Char} {t : Tokenizer}
    {Q : Option Expr → Cursor → List OpenBracket → Prop} (hfeed : leading.feed cs = .ok t)
    (hne : cs ≠ []) (hcloses : Closes cs tail) (hws : Blanks ws)
    (hrest : c.rest = ws ++ (cs ++ tail))
    (h : ∀ c' : Cursor, c'.rest = cs ++ tail →
      Succeeds (pathOperand place fuel c'.position) c' b Q) :
    Succeeds (operand place (fuel + 1)) c b Q := by
  obtain ⟨ch, rest, rfl, hch, hends⟩ := exists_first_of_feed hfeed hne hcloses
  refine succeeds_operand hws (isBlank_of_isPathChar hch) hrest ?_
  have hrest' := Cursor.rest_advance_length hrest
  exact succeeds_operandAt_path hch hends hrest' (h _ hrest')

theorem succeeds_pathOperand_path {fuel start : Nat} {cs tail : List Char} {t : Tokenizer}
    {parts : Path} (o : Origin) (hfeed : leading.feed cs = .ok t) (hpath : t.path = .ok parts)
    (hcloses : Closes cs tail) (hcall : tail.head? ≠ some '(')
    (harrow : isParameter (.path o parts) = true → arrowFollows tail = false)
    (hrest : c.rest = cs ++ tail) :
    Succeeds (pathOperand place (fuel + 1) start) c b (Gives (pathExpr o parts) tail b) := by
  have hrest' := Cursor.rest_advance_length hrest
  rw [pathOperand]
  refine (steps_step c b).succeeds ?_
  refine (steps_readPath hfeed (Tokenizer.expectsSlash_of_path hpath) hcloses hrest).succeeds ?_
  refine (steps_current? _ b).succeeds ?_
  rw [hrest', if_neg (by simpa using hcall), hpath]
  refine (steps_originFrom place _ b start).succeeds ?_
  have hgives (e : Expr) (he : e.bare = (pathExpr o parts).bare) :
      Succeeds (pure (some e)) (c.advance cs.length) b (Gives (pathExpr o parts) tail b) :=
    succeeds_pure ⟨rfl, ⟨e, rfl, he⟩, [], Text.blanks_nil, hrest'.symm⟩
  -- One number is a literal, one name may be a parameter, and anything else is a path.
  split
  · next key =>
    rw [pathExpr] at hgives ⊢
    cases hvalue : Numeral.ofLiteral? (key.getD "") with
    | some value =>
      simp only [hvalue] at hgives ⊢
      exact hgives _ rfl
    | none =>
      simp only [hvalue] at hgives ⊢
      exact hgives _ rfl
  · next key =>
    refine (steps_arrowAhead _ b).succeeds ?_
    rw [hrest', harrow rfl, if_neg Bool.false_ne_true]
    exact hgives _ rfl
  · next hnumber _ =>
    rw [pathExpr_of_ne o hnumber] at hgives ⊢
    exact hgives _ rfl

/-! ## Chains -/

theorem succeeds_chain {fuel start : Nat} {first first' : Expr} {es : List Expr}
    {ls tail : List Char} (o : Origin)
    (hlinks : Phrase.Reads place inside ls tail (.links es)) (hfirst : first'.bare = first.bare)
    (hb : b.isEmpty = !inside) (hrest : c.rest = ls ++ tail)
    (hfuel : 8 * c.rest.length + 2 ≤ fuel) :
    Succeeds (chain place fuel first' start) c b (Gives (chained o first es) tail b) := by
  obtain ⟨fuel, rfl⟩ : ∃ f, fuel = f + 1 := ⟨fuel - 1, by omega⟩
  rw [chain]
  refine (steps_step c b).succeeds ((hlinks fuel c b hb hrest (by omega)).bind ?_)
  rintro es' c' b' ⟨rfl, hes, htail⟩
  have hblanks : ∃ bl, Blanks bl ∧ tail = bl ++ c'.rest := ⟨[], Text.blanks_nil, htail.symm⟩
  cases es' with
  | nil =>
    cases es with
    | nil => exact succeeds_pure ⟨rfl, ⟨_, rfl, hfirst⟩, hblanks⟩
    | cons _ _ => cases hes
  | cons e' es' =>
    cases es with
    | nil => cases hes
    | cons e es =>
      refine (steps_originFrom place c' _ start).succeeds
        (succeeds_pure ⟨rfl, ⟨_, rfl, ?_⟩, hblanks⟩)
      simp only [chained, Expr.bare, Expr.bareAll, hfirst] at hes ⊢
      rw [hes]

/-- Links are read as what they are only if they begin with a dot. -/
theorem succeeds_noLinks {fuel : Nat} (h : c.rest.head? ≠ some '.') :
    Succeeds (links place (fuel + 1)) c b fun es' c' b' =>
      b' = b ∧ Expr.bareAll es' = Expr.bareAll [] ∧ c'.rest = c.rest := by
  rw [links]
  refine (steps_step c b).succeeds ((steps_current? c b).succeeds ?_)
  rw [if_pos (by simpa using h)]
  exact succeeds_pure ⟨rfl, rfl, rfl⟩

/-- What follows the dot of a link. -/
theorem closes_bracket {cs : List Char} (text : List Char) : Closes cs ('(' :: text) :=
  ⟨rfl, fun _ h => by cases h⟩

theorem succeeds_link {fuel : Nat} {cs as ls tail : List Char} {t : Tokenizer} {parts : Path}
    {name : String} {args : List Argument} {es : List Expr} (o : Origin) (n : Nat)
    (hfeed : continuation.feed cs = .ok t) (hcall : t.call = .ok (parts, name))
    (hargs : Phrase.Reads place inside as (ls ++ tail) (.arguments .call args))
    (hlinks : Phrase.Reads place inside ls tail (.links es)) (hb : b.isEmpty = !inside)
    (hrest : c.rest = '.' :: (cs ++ '(' :: (as ++ ls)) ++ tail)
    (hfuel : 8 * c.rest.length + 1 ≤ fuel + 1) :
    Succeeds (links place (fuel + 1)) c b fun es' c' b' =>
      b' = b ∧ Expr.bareAll es' = Expr.bareAll (.call o n parts name args :: es) ∧
        c'.rest = tail := by
  have hrest₁ : (c.advance 1).rest = cs ++ '(' :: (as ++ (ls ++ tail)) := by
    rw [Cursor.rest_advance, hrest]
    simp
  have hrest₂ := Cursor.rest_advance_length hrest₁
  have hrest₃ : (((c.advance 1).advance cs.length).advance 1).rest = as ++ (ls ++ tail) := by
    rw [Cursor.rest_advance, hrest₂]
    rfl
  -- Dot and parenthesis are read before the arguments are, which pays for the calls.
  have hlength : c.rest.length = (as ++ (ls ++ tail)).length + cs.length + 2 := by
    rw [hrest]
    simp only [List.length_append, List.length_cons]
    omega
  rw [links]
  refine (steps_step c b).succeeds ((steps_current? c b).succeeds ?_)
  rw [if_neg (by simp [hrest])]
  refine (steps_advance c b 1).succeeds ((steps_position _ b).succeeds ?_)
  refine (steps_readPath hfeed (Tokenizer.expectsSlash_of_call hcall) (closes_bracket _)
    hrest₁).succeeds ?_
  refine (steps_current? _ b).succeeds ?_
  rw [hrest₂, if_pos (by rfl)]
  refine (steps_position _ b).succeeds ((steps_advance _ b 1).succeeds ?_)
  refine (hargs fuel _ _ b hrest₃ (by rw [hrest₃]; omega)).bind ?_
  rintro args' c₁ b₁ ⟨rfl, hargs', htail₁⟩
  rw [hcall]
  have hfuel₁ : 8 * c₁.rest.length + 1 ≤ fuel := by
    rw [htail₁]
    simp only [List.length_append] at hlength ⊢
    omega
  refine (steps_originFrom place c₁ _ _).succeeds ((hlinks fuel c₁ _ hb htail₁ hfuel₁).bind ?_)
  rintro es' c₂ b₂ ⟨rfl, hes, htail₂⟩
  refine succeeds_pure ⟨rfl, ?_, htail₂⟩
  simp only [Expr.bareAll, Expr.bare, hargs', hes]

theorem succeeds_lastLink {fuel : Nat} {cs tail : List Char} {t : Tokenizer} {parts : Path}
    (o : Origin) (hfeed : continuation.feed cs = .ok t) (hpath : t.path = .ok parts) (hne : cs ≠ [])
    (hcloses : Closes cs tail) (hcall : tail.head? ≠ some '(')
    (hrest : c.rest = '.' :: cs ++ tail) :
    Succeeds (links place (fuel + 1)) c b fun es' c' b' =>
      b' = b ∧ Expr.bareAll es' = Expr.bareAll [.path o parts] ∧ c'.rest = tail := by
  have hrest₁ : (c.advance 1).rest = cs ++ tail := by
    rw [Cursor.rest_advance, hrest]
    rfl
  have hrest₂ := Cursor.rest_advance_length hrest₁
  have hempty : t.isEmpty = false := by
    cases h : t.isEmpty with
    | false => rfl
    | true => exact absurd ((Tokenizer.IsFresh.isEmpty_iff (.inr rfl) hfeed).mp h) hne
  rw [links]
  refine (steps_step c b).succeeds ((steps_current? c b).succeeds ?_)
  rw [if_neg (by simp [hrest])]
  refine (steps_advance c b 1).succeeds ((steps_position _ b).succeeds ?_)
  refine (steps_readPath hfeed (Tokenizer.expectsSlash_of_path hpath) hcloses hrest₁).succeeds ?_
  refine (steps_current? _ b).succeeds ?_
  rw [hrest₂, if_neg (by simpa using hcall), hempty, if_neg Bool.false_ne_true, hpath]
  exact (steps_originFrom place _ _ _).succeeds (succeeds_pure ⟨rfl, rfl, hrest₂⟩)

/-! ## Calls, groups and lambdas -/

theorem succeeds_call {fuel start : Nat} {as ls tail : List Char} {t : Tokenizer} {parts : Path}
    {name : String} {args : List Argument} {es : List Expr} (o o' : Origin) (n : Nat)
    (hcall : t.call = .ok (parts, name))
    (hargs : Phrase.Reads place inside as (ls ++ tail) (.arguments .call args))
    (hlinks : Phrase.Reads place inside ls tail (.links es)) (hb : b.isEmpty = !inside)
    (hrest : c.rest = '(' :: (as ++ (ls ++ tail))) (hfuel : 8 * c.rest.length + 2 ≤ fuel) :
    Succeeds (call place fuel t start) c b
      (Gives (chained o (.call o' n parts name args) es) tail b) := by
  obtain ⟨fuel, rfl⟩ : ∃ f, fuel = f + 1 := ⟨fuel - 1, by omega⟩
  have hrest₁ : (c.advance 1).rest = as ++ (ls ++ tail) := by
    rw [Cursor.rest_advance, hrest]
    rfl
  have hlength : c.rest.length = (as ++ (ls ++ tail)).length + 1 := by
    rw [hrest]
    rfl
  rw [call]
  refine (steps_step c b).succeeds ((steps_position c b).succeeds ?_)
  refine (steps_advance c b 1).succeeds ?_
  refine (hargs fuel _ _ b hrest₁ (by rw [hrest₁]; omega)).bind ?_
  rintro args' c₁ b₁ ⟨rfl, hargs', htail₁⟩
  rw [hcall]
  refine (steps_originFrom place c₁ _ start).succeeds ?_
  refine succeeds_chain o hlinks ?_ hb htail₁ ?_
  · simp only [Expr.bare, hargs']
  · rw [htail₁]
    simp only [List.length_append] at hlength ⊢
    omega

/-- A path with an opening parenthesis after it is read as a call. -/
theorem succeeds_operand_call {fuel : Nat} {ws cs as ls tail : List Char} {t : Tokenizer}
    {parts : Path} {name : String} {args : List Argument} {es : List Expr} (o o' : Origin) (n : Nat)
    (hfeed : leading.feed cs = .ok t) (hcall : t.call = .ok (parts, name)) (hne : cs ≠ [])
    (hargs : Phrase.Reads place inside as (ls ++ tail) (.arguments .call args))
    (hlinks : Phrase.Reads place inside ls tail (.links es)) (hb : b.isEmpty = !inside)
    (hws : Blanks ws) (hrest : c.rest = ws ++ (cs ++ '(' :: (as ++ ls) ++ tail))
    (hfuel : 8 * c.rest.length + 4 ≤ fuel + 2) :
    Succeeds (operand place (fuel + 2)) c b
      (Gives (chained o (.call o' n parts name args) es) tail b) := by
  have hrest' : c.rest = ws ++ (cs ++ '(' :: (as ++ (ls ++ tail))) := by
    rw [hrest]
    simp
  refine succeeds_operand_path hfeed hne (closes_bracket _) hws hrest' fun c' hc' => ?_
  have hafter := Cursor.rest_advance_length hc'
  rw [pathOperand]
  refine (steps_step c' b).succeeds ?_
  refine (steps_readPath hfeed (Tokenizer.expectsSlash_of_call hcall) (closes_bracket _)
    hc').succeeds ?_
  refine (steps_current? _ b).succeeds ?_
  rw [hafter, if_pos (by rfl)]
  refine succeeds_call o o' n hcall hargs hlinks hb hafter ?_
  rw [hrest'] at hfuel
  rw [hafter]
  simp only [List.length_append, List.length_cons] at hfuel ⊢
  omega

/-- A lambda is read from its arrow on. -/
theorem succeeds_lambda {fuel start : Nat} {ws text tail : List Char}
    {parameters parameters' body : Expr} (o : Origin) (hws : Blanks ws)
    (hparameters : areParameters parameters' = true) (hbare : parameters'.bare = parameters.bare)
    (hrest : c.rest = ws ++ '=' :: '>' :: text)
    (hbody : ∀ c', c'.rest = text → Succeeds (expression place fuel) c' b (Gives body tail b)) :
    Succeeds (lambda place (fuel + 1) parameters' start) c b
      (Gives (.lambda o parameters body) tail b) := by
  have hskip := Cursor.skipBlanks_eq hws hrest (Text.trimStart_cons (by decide) _)
  have hrest₁ := Cursor.rest_advance_length hrest
  have hrest₂ : ((c.advance ws.length).advance 2).rest = text := by
    rw [Cursor.rest_advance, hrest₁]
    rfl
  rw [lambda]
  refine (steps_step c b).succeeds ((steps_skipBlanks c b).succeeds ?_)
  rw [hskip]
  refine (steps_advance _ b 2).succeeds ?_
  rw [hparameters]
  refine (hbody _ hrest₂).bind ?_
  rintro r c₁ b₁ ⟨rfl, ⟨body', rfl, hbody'⟩, hblanks⟩
  refine (steps_originFrom place c₁ _ start).succeeds ?_
  refine succeeds_pure ⟨rfl, ⟨_, rfl, ?_⟩, hblanks⟩
  simp only [Expr.bare, hbare, hbody']

theorem isParameter_bare (e : Expr) : isParameter e.bare = isParameter e := by
  cases e with
  | path o parts => rcases parts with _ | ⟨p, _ | ⟨q, ps⟩⟩ <;> rfl
  | _ => rfl

theorem isParameter_of_bare {e e' : Expr} (h : e'.bare = e.bare) :
    isParameter e' = isParameter e := by
  rw [← isParameter_bare e', h, isParameter_bare e]

theorem bareAll_exprs : ∀ {args args' : List Argument},
    Argument.bareAll args' = Argument.bareAll args →
      Expr.bareAll (args'.map Argument.expr) = Expr.bareAll (args.map Argument.expr) ∧
        args'.all (fun a => isParameter a.expr) = args.all (fun a => isParameter a.expr)
  | [], [], _ => ⟨rfl, rfl⟩
  | [], ⟨_, _, _⟩ :: _, h => by cases h
  | ⟨_, _, _⟩ :: _, [], h => by cases h
  | ⟨_, _, e⟩ :: args, ⟨_, _, e'⟩ :: args', h => by
    obtain ⟨hfirst, hrest⟩ := List.cons.inj h
    obtain ⟨-, -, he⟩ := Argument.mk.inj hfirst
    obtain ⟨hbare, hall⟩ := bareAll_exprs hrest
    simp only [List.map_cons, List.all_cons, Expr.bareAll, he, hbare, isParameter_of_bare he, hall,
      and_self]

theorem exists_of_bareAll_singleton {args' : List Argument} {a : Argument}
    (h : Argument.bareAll args' = Argument.bareAll [a]) :
    ∃ a', args' = [a'] ∧ a'.expr.bare = a.expr.bare := by
  obtain ⟨e', hexprs, hbare⟩ := Expr.exists_of_bareAll_singleton (bareAll_exprs h).1
  obtain ⟨a', rfl, rfl⟩ := List.map_eq_singleton_iff.mp hexprs
  exact ⟨a', rfl, hbare⟩

/-- A group or the parameters of a lambda: what comes after them decides. -/
theorem succeeds_group {fuel : Nat} {as text : List Char} {args : List Argument}
    {Q : Option Expr → Cursor → List OpenBracket → Prop}
    (hargs : Phrase.Reads place inside as text (.arguments .group args))
    (hrest : c.rest = '(' :: (as ++ text)) (hfuel : 8 * c.rest.length + 2 ≤ fuel + 1)
    (h : ∀ (args' : List Argument) (c' : Cursor) (o : Origin), c'.rest = text →
      Argument.bareAll args' = Argument.bareAll args →
        if arrowFollows text then
          Succeeds (lambda place fuel (.list o .arguments (args'.map Argument.expr)) c.position) c'
            b Q
        else ∃ a, args' = [a] ∧
          Succeeds (chain place fuel (.list o .bracket [a.expr]) c.position) c' b Q) :
    Succeeds (group place (fuel + 1)) c b Q := by
  have hrest₁ : (c.advance 1).rest = as ++ text := by
    rw [Cursor.rest_advance, hrest]
    rfl
  have hlength : c.rest.length = (as ++ text).length + 1 := by
    rw [hrest]
    rfl
  rw [group]
  refine (steps_step c b).succeeds ((steps_position c b).succeeds ?_)
  refine (steps_advance c b 1).succeeds ?_
  refine (hargs fuel _ _ b hrest₁ (by rw [hrest₁]; omega)).bind ?_
  rintro args' c₁ b₁ ⟨rfl, hargs', htail₁⟩
  -- Nothing was given up, so what comes after the bracket decides.
  refine succeeds_get fun s hs => ?_
  rw [hs.going, if_neg Bool.false_ne_true]
  refine (steps_arrowAhead _ _).succeeds ?_
  rw [htail₁]
  cases harrow : arrowFollows text with
  | true =>
    rw [if_pos rfl]
    refine (steps_originFrom place c₁ _ _).succeeds ?_
    have hlambda := h args' c₁ ⟨place.span c.position c₁.position, none⟩ htail₁ hargs'
    rw [harrow, if_pos rfl] at hlambda
    exact hlambda
  | false =>
    rw [if_neg Bool.false_ne_true]
    have hchain := h args' c₁ ⟨place.span c.position c₁.position, none⟩ htail₁ hargs'
    rw [harrow, if_neg Bool.false_ne_true] at hchain
    obtain ⟨a, rfl, hchain⟩ := hchain
    exact (steps_originFrom place c₁ _ _).succeeds hchain

/-- An operand that begins with a parenthesis is a group, or the parameters of a lambda. -/
theorem succeeds_operand_bracket {fuel : Nat} {ws text : List Char}
    {Q : Option Expr → Cursor → List OpenBracket → Prop} (hws : Blanks ws)
    (hrest : c.rest = ws ++ '(' :: text)
    (h : ∀ c' : Cursor, c'.rest = '(' :: text → c'.rest.length ≤ c.rest.length →
      Succeeds (group place fuel) c' b Q) : Succeeds (operand place (fuel + 1)) c b Q := by
  have hlength : (c.advance ws.length).rest.length ≤ c.rest.length := by
    rw [Cursor.rest_advance, List.length_drop]
    omega
  refine succeeds_operand hws (by decide) hrest ?_
  rw [operandAt, if_neg (by decide), if_pos (by rfl)]
  exact h _ (Cursor.rest_advance_length hrest) hlength

theorem succeeds_operand_group {fuel : Nat} {ws as ls tail : List Char} {a : Argument}
    {es : List Expr} (o o' : Origin)
    (hargs : Phrase.Reads place inside as (ls ++ tail) (.arguments .group [a]))
    (harrow : arrowFollows (ls ++ tail) = false)
    (hlinks : Phrase.Reads place inside ls tail (.links es)) (hb : b.isEmpty = !inside)
    (hws : Blanks ws) (hrest : c.rest = ws ++ ('(' :: (as ++ ls) ++ tail))
    (hfuel : 8 * c.rest.length + 4 ≤ fuel + 2) :
    Succeeds (operand place (fuel + 2)) c b
      (Gives (chained o (.list o' .bracket [a.expr]) es) tail b) := by
  have hrest' : c.rest = ws ++ '(' :: (as ++ (ls ++ tail)) := by
    rw [hrest]
    simp
  refine succeeds_operand_bracket hws hrest' fun c₁ hc₁ hlength => ?_
  refine succeeds_group hargs hc₁ (by omega) fun args' c' o₁ hc' hargs' => ?_
  rw [harrow, if_neg Bool.false_ne_true]
  obtain ⟨a', rfl, hbare⟩ := exists_of_bareAll_singleton hargs'
  refine ⟨a', rfl, succeeds_chain o hlinks ?_ hb hc' ?_⟩
  · simp only [Expr.bare, Expr.bareAll, hbare]
  · rw [hrest'] at hfuel
    rw [hc']
    simp only [List.length_append, List.length_cons] at hfuel ⊢
    omega

/-! ## Arguments -/

theorem succeeds_noArguments {fuel start : Nat} {kind : BracketKind} {ws tail : List Char}
    (hws : Blanks ws) (hrest : c.rest = ws ++ [')'] ++ tail) :
    Succeeds (arguments place (fuel + 1) kind start) c b fun args' c' b' =>
      b' = b ∧ Argument.bareAll args' = Argument.bareAll [] ∧ c'.rest = tail := by
  rw [List.append_assoc] at hrest
  have hskip := Cursor.skipBlanks_eq hws hrest (Text.trimStart_cons (by decide) _)
  have hrest₁ := Cursor.rest_advance_length hrest
  rw [arguments]
  refine (steps_step c b).succeeds ((steps_openBracket c b _ _).succeeds ?_)
  refine (steps_skipBlanks c _).succeeds ((steps_current? _ _).succeeds ?_)
  rw [hskip, hrest₁, if_pos (by rfl)]
  refine (steps_advance _ _ 1).succeeds ((steps_closeBracket _ _).succeeds ?_)
  exact succeeds_pure ⟨rfl, rfl, by rw [Cursor.rest_advance, hrest₁]; rfl⟩

/-- Arguments begin with the name or the operand of the first one. -/
theorem first_of_items {ph : Phrase} {cs tail : List Char} (h : Written inside ph cs tail)
    {kind : BracketKind} {args : List Argument} (hph : ph = .items kind args) :
    ∃ ws ch text, Blanks ws ∧ cs = ws ++ ch :: text ∧ Text.isBlank ch = false ∧ ch ≠ ')' := by
  have hfirst : ∀ (more : List Char) {name : Option String} {e : Expr}
      {ns ws₁ cs tail' : List Char},
      WrittenName kind name ns → Blanks ws₁ → Written true (.tree e) cs tail' →
        ∃ ws ch text, Blanks ws ∧ ns ++ (ws₁ ++ (cs ++ more)) = ws ++ ch :: text ∧
          Text.isBlank ch = false ∧ ch ≠ ')' := by
    rintro more name e ns ws₁ cs tail' (_ | _) hws₁ h
    · obtain ⟨⟨ch, hhead, hch⟩, -⟩ := h.solid
      cases cs with
      | nil => cases hhead
      | cons x xs =>
        obtain rfl : x = ch := Option.some.inj hhead
        exact ⟨ws₁, x, xs ++ more, hws₁, rfl, isBlank_of_opensOperand hch,
          ne_of_opensOperand hch (by decide)⟩
    · exact ⟨[], '[', _, Text.blanks_nil, rfl, by decide, by decide⟩
  cases h with
  | lastItem sp hws hname hws₁ hws₂ h =>
    cases hph
    obtain ⟨ws, ch, text, hws', htext, hch⟩ := hfirst _ hname hws₁ h
    exact ⟨_ ++ ws, ch, text, hws.append hws', by rw [htext, List.append_assoc], hch⟩
  | item sp hws hname hws₁ hws₂ h hrest =>
    cases hph
    obtain ⟨ws, ch, text, hws', htext, hch⟩ := hfirst _ hname hws₁ h
    exact ⟨_ ++ ws, ch, text, hws.append hws', by rw [htext, List.append_assoc], hch⟩
  | _ => cases hph

theorem succeeds_someArguments {fuel start : Nat} {kind : BracketKind} {args : List Argument}
    {cs tail : List Char} (hwritten : Written inside (.items kind args) cs tail)
    (hitems : Phrase.Reads place inside cs tail (.items kind args)) (hrest : c.rest = cs ++ tail)
    (hfuel : 8 * c.rest.length + 7 ≤ fuel + 1) :
    Succeeds (arguments place (fuel + 1) kind start) c b fun args' c' b' =>
      b' = b ∧ Argument.bareAll args' = Argument.bareAll args ∧ c'.rest = tail := by
  obtain ⟨ws, ch, text, hws, rfl, hblank, hne⟩ := first_of_items hwritten rfl
  have hrest' := hrest
  rw [List.append_assoc, List.cons_append] at hrest'
  have hskip := Cursor.skipBlanks_eq hws hrest' (Text.trimStart_cons hblank _)
  have hrest₁ := Cursor.rest_advance_length hrest'
  have hlength : (c.advance ws.length).rest.length ≤ c.rest.length := by
    rw [Cursor.rest_advance, List.length_drop]
    omega
  rw [arguments]
  refine (steps_step c b).succeeds ((steps_openBracket c b _ _).succeeds ?_)
  refine (steps_skipBlanks c _).succeeds ((steps_current? _ _).succeeds ?_)
  rw [hskip, hrest₁, if_neg (by simpa using hne)]
  refine (hitems fuel _ _ (List.cons_ne_nil _ _) ?_ (by omega)).imp fun args' c' b' h => h
  rw [hrest₁, List.append_assoc, Text.trimStart_append hws, List.cons_append,
    Text.trimStart_cons hblank]

/-- The name of an argument, before its expression. -/
theorem succeeds_named {fuel : Nat} {kind : BracketKind} {name : Option String} {e : Expr}
    {ns ws₁ cs more tail' : List Char} {Q : List Argument → Cursor → List OpenBracket → Prop}
    (hname : WrittenName kind name ns) (hws₁ : Blanks ws₁)
    (hwritten : Written true (.tree e) cs tail')
    (hrest : Text.trimStart c.rest = Text.trimStart (ns ++ (ws₁ ++ (cs ++ more))))
    (h : ∀ (c' : Cursor) (ws : List Char) (start : Nat), Blanks ws → c'.rest = ws ++ (cs ++ more) →
      c'.rest.length ≤ c.rest.length → Succeeds (item place fuel kind start name) c' b Q) :
    Succeeds (argumentList place (fuel + 1) kind) c b Q := by
  have hlength : c.skipBlanks.rest.length ≤ c.rest.length := by
    rw [Cursor.skipBlanks, Cursor.rest_advance, List.length_drop]
    omega
  rw [argumentList_eq]
  refine (steps_step c b).succeeds ((steps_skipBlanks c b).succeeds ?_)
  refine (steps_position _ b).succeeds ((steps_current? _ b).succeeds ?_)
  cases hname with
  -- Without a name the expression begins here, with no bracket for a name.
  | none =>
    obtain ⟨⟨ch, hhead, hch⟩, -⟩ := hwritten.solid
    cases cs with
    | nil => cases hhead
    | cons x xs =>
      obtain rfl : x = ch := Option.some.inj hhead
      have hrest₁ : c.skipBlanks.rest = x :: xs ++ more := by
        rw [Cursor.rest_skipBlanks, hrest, List.nil_append, Text.trimStart_append hws₁,
          List.cons_append, Text.trimStart_cons (isBlank_of_opensOperand hch)]
      have hbracket : x ≠ '[' := ne_of_opensOperand hch (by decide)
      rw [hrest₁, if_neg (by simpa using hbracket)]
      exact h _ [] _ Text.blanks_nil hrest₁ hlength
  | @name ns hkind hne hword =>
    subst hkind
    have hrest₁ : c.skipBlanks.rest = '[' :: (ns ++ ']' :: (ws₁ ++ (cs ++ more))) := by
      rw [Cursor.rest_skipBlanks, hrest, List.cons_append, Text.trimStart_cons (by decide)]
      simp
    rw [if_pos (by rw [hrest₁]; rfl)]
    obtain ⟨c₁, hsteps, hrest₂⟩ := @steps_readArgumentName place _ b _ _ hne hword hrest₁
    refine hsteps.succeeds (h c₁ ws₁ _ hws₁ hrest₂ ?_)
    rw [hrest₁] at hlength
    rw [hrest₂]
    simp only [List.length_append, List.length_cons] at hlength ⊢
    omega

/-! ## Operands by their first character -/

theorem succeeds_string {fuel : Nat} {d : Char} {fs : List Fragment} {es : List Expr}
    {ws ls tail : List Char} (o o' : Origin) (hd : d = '\'' ∨ d = '"') (hliteral : IsLiteral d fs)
    (hlinks : Phrase.Reads place inside ls tail (.links es)) (hb : b.isEmpty = !inside)
    (hws : Blanks ws) (hrest : c.rest = ws ++ (d :: (Fragment.render fs ++ d :: ls) ++ tail))
    (hfuel : 8 * c.rest.length + 4 ≤ fuel + 1) :
    Succeeds (operand place (fuel + 1)) c b
      (Gives (chained o (.string o' d fs) es) tail b) := by
  rw [List.cons_append, List.append_assoc, List.cons_append] at hrest
  have hblank : Text.isBlank d = false := by rcases hd with rfl | rfl <;> decide
  refine succeeds_operand hws hblank hrest ?_
  obtain ⟨o₁, c₁, hsteps, hrest₁⟩ := @steps_readString place (c.advance ws.length) b d fs
    (ls ++ tail) hliteral (Cursor.rest_advance_length hrest)
  have hquote : (d == '\'' || d == '"') = true := by rcases hd with rfl | rfl <;> rfl
  rw [operandAt, if_pos hquote]
  refine hsteps.succeeds (succeeds_chain o hlinks rfl hb hrest₁ ?_)
  rw [hrest] at hfuel
  rw [hrest₁]
  simp only [List.length_append, List.length_cons] at hfuel ⊢
  omega

theorem succeeds_not {fuel : Nat} {e : Expr} {ws ws' cs tail : List Char} (o : Origin) (n : Nat)
    (hws' : Blanks ws') (hwritten : Written inside (.operand e) cs tail)
    (hoperand : Phrase.Reads place inside cs tail (.operand e)) (hb : b.isEmpty = !inside)
    (hws : Blanks ws) (hrest : c.rest = ws ++ ('!' :: (ws' ++ cs) ++ tail))
    (hfuel : 8 * c.rest.length + 4 ≤ fuel + 1) :
    Succeeds (operand place (fuel + 1)) c b (Gives (.unary o n .not e) tail b) := by
  rw [List.cons_append, List.append_assoc] at hrest
  have hrest₁ := Cursor.rest_advance_length hrest
  have hrest₂ : ((c.advance ws.length).advance 1).rest = ws' ++ (cs ++ tail) := by
    rw [Cursor.rest_advance, hrest₁]
    rfl
  -- The negation is not the beginning of `!=`: an operand or a blank comes next.
  have hnext : (ws' ++ (cs ++ tail)).head? ≠ some '=' := by
    cases ws' with
    | nil =>
      obtain ⟨⟨ch, hhead, hch⟩, -⟩ := hwritten.solid
      rw [List.nil_append, List.head?_append, hhead]
      rintro ⟨⟩
      exact absurd hch (by decide)
    | cons w ws' =>
      rintro ⟨⟩
      exact absurd (hws' _ List.mem_cons_self) (by decide)
  refine succeeds_operand hws (by decide) hrest ?_
  rw [operandAt, if_neg (by decide), if_neg (by decide), if_pos (by simpa using hnext)]
  refine (steps_advance _ b 1).succeeds ?_
  refine (hoperand fuel _ b ws' hb hws' hrest₂ ?_).bind ?_
  · rw [hrest] at hfuel
    rw [hrest₂]
    simp only [List.length_append, List.length_cons] at hfuel ⊢
    omega
  · rintro r c₁ b₁ ⟨rfl, ⟨e', rfl, hbare⟩, hblanks⟩
    refine (steps_originFrom place c₁ _ _).succeeds (succeeds_pure ⟨rfl, ⟨_, rfl, ?_⟩, hblanks⟩)
    simp only [Expr.bare, hbare]

theorem succeeds_negative {fuel : Nat} {o : Origin} {literal : String} {value : Numeral}
    {ws cs tail : List Char} (o' : Origin) (hdigit : cs.head?.any Char.isDigit = true)
    (hoperand : Phrase.Reads place inside cs tail (.operand (.number o literal value)))
    (hb : b.isEmpty = !inside) (hws : Blanks ws) (hrest : c.rest = ws ++ ('-' :: cs ++ tail))
    (hfuel : 8 * c.rest.length + 4 ≤ fuel + 1) :
    Succeeds (operand place (fuel + 1)) c b (Gives (negate o' literal value) tail b) := by
  rw [List.cons_append] at hrest
  have hrest₁ := Cursor.rest_advance_length hrest
  have hrest₂ : ((c.advance ws.length).advance 1).rest = [] ++ (cs ++ tail) := by
    rw [Cursor.rest_advance, hrest₁]
    rfl
  have hnext : (cs ++ tail).head?.any Char.isDigit = true := by
    cases cs with
    | nil => cases hdigit
    | cons x xs => exact hdigit
  refine succeeds_operand hws (by decide) hrest ?_
  rw [operandAt, if_neg (by decide), if_neg (by decide), if_neg (by simp),
    if_pos (by rw [hnext]; rfl)]
  refine (steps_advance _ b 1).succeeds ?_
  refine (hoperand fuel _ b [] hb Text.blanks_nil hrest₂ ?_).bind ?_
  · rw [hrest] at hfuel
    rw [hrest₂]
    simp only [List.length_append, List.length_cons, List.length_nil] at hfuel ⊢
    omega
  · rintro r c₁ b₁ ⟨rfl, ⟨e', rfl, hbare⟩, hblanks⟩
    -- What was read is a number as well, since it is one up to origins.
    cases e' with
    | number o₁ literal' value' =>
      obtain ⟨-, rfl, rfl⟩ := Expr.number.inj hbare
      exact (steps_originFrom place c₁ _ _).succeeds (succeeds_pure ⟨rfl, ⟨_, rfl, rfl⟩, hblanks⟩)
    | _ => cases hbare

/-! ## Arrows -/

theorem arrowFollows_arrow {ws : List Char} (hws : Blanks ws) (text : List Char) :
    arrowFollows (ws ++ '=' :: '>' :: text) = true := by
  rw [arrowFollows, Text.trimStart_append hws, Text.trimStart_cons (by decide)]
  rfl

theorem closes_arrow {ws : List Char} (hws : Blanks ws) (cs text : List Char) :
    Closes cs (ws ++ '=' :: '>' :: text) := by
  refine ⟨endsPath_blanks hws rfl, fun _ h => ?_⟩
  rcases head?_blanks hws h with h | h
  · exact absurd h (by decide)
  · exact absurd h (by decide)

theorem head?_arrow_ne {ws : List Char} (hws : Blanks ws) (text : List Char) :
    (ws ++ '=' :: '>' :: text).head? ≠ some '(' := by
  intro h
  rcases head?_blanks hws h with h | h
  · exact absurd h (by decide)
  · exact absurd h (by decide)

/-- A path that may be a parameter is a name. -/
theorem exists_of_isParameter {o : Origin} {parts : Path} (h : isParameter (.path o parts) = true) :
    ∃ key, parts = [⟨.member, key⟩] := by
  rcases parts with _ | ⟨⟨kind, key⟩, _ | ⟨q, ps⟩⟩
  · cases h
  · obtain rfl : kind = .member := eq_of_beq h
    exact ⟨key, rfl⟩
  · cases h

theorem succeeds_pathOperand_lambda {fuel start : Nat} {cs ws text tail : List Char}
    {t : Tokenizer} {parts : Path} {body : Expr} (o o' : Origin) (hfeed : leading.feed cs = .ok t)
    (hpath : t.path = .ok parts) (hparameter : isParameter (.path o' parts) = true)
    (hws : Blanks ws) (hrest : c.rest = cs ++ (ws ++ '=' :: '>' :: text))
    (hbody : ∀ c', c'.rest = text → Succeeds (expression place fuel) c' b (Gives body tail b)) :
    Succeeds (pathOperand place (fuel + 2) start) c b
      (Gives (.lambda o (.path o' parts) body) tail b) := by
  have hrest₁ := Cursor.rest_advance_length hrest
  obtain ⟨key, rfl⟩ := exists_of_isParameter hparameter
  rw [pathOperand]
  refine (steps_step c b).succeeds ?_
  refine (steps_readPath hfeed (Tokenizer.expectsSlash_of_path hpath) (closes_arrow hws cs text)
    hrest).succeeds ?_
  refine (steps_current? _ b).succeeds ?_
  rw [hrest₁, if_neg (by simpa using head?_arrow_ne hws text), hpath]
  refine (steps_originFrom place _ b start).succeeds ((steps_arrowAhead _ b).succeeds ?_)
  rw [hrest₁, arrowFollows_arrow hws, if_pos rfl]
  exact succeeds_lambda o hws rfl rfl hrest₁ hbody

end Parser

end Stencil
