import Stencil.Proofs.Growing
import Stencil.Proofs.PathText
import Stencil.Proofs.Pieces

/-!
# What is read is written

Main statement: `reading_sound`, whatever a reading function gives without a problem was written as
one of the phrases of the language, and every node that was read covers a piece of the text that is
a way to write it. An operand before an arrow is an exception, which is never left without a
problem: an empty path stands where nothing was read before the arrow.
-/

namespace Stencil

open Text (Blanks)
open Tokenizer (leading continuation)

namespace Parser

variable {α : Type} {place : Placement} {c : Cursor} {b : List OpenBracket}

/-! ## Names and literals -/

theorem ensures_readPath (t : Tokenizer) : Ensures (readPath place t) c b fun r c' b' =>
    b' = b ∧ ∃ t' cs, r = some t' ∧ Moves c cs c' ∧ t.feed cs = .ok t' ∧
      (t'.expectsSlash = false → Closes cs c'.rest) := by
  unfold readPath
  refine (steps_step c b).ensures ?_
  refine (steps_rest c b).ensures ((steps_advance c b _).ensures ?_)
  cases hfault : (scanPath t c.rest).fault with
  | some fault =>
    exact ensures_reportHere place ((grows_advance 1).bind fun _ => grows_rest.bind fun _ =>
      (grows_advance _).bind fun _ => grows_pure _)
  | none =>
    obtain ⟨cs, tail, hrest, hread, hfeed, hcloses⟩ := exists_of_scanPath hfault
    rw [hread]
    refine ensures_pure ⟨rfl, _, cs, rfl, .of_rest hrest, hfeed, fun hslash => ?_⟩
    rw [Cursor.rest_advance_length hrest]
    exact hcloses hslash

theorem ensures_readString {d : Char} (hhead : c.rest.head? = some d) :
    Ensures (readString place d) c b fun e c' b' =>
      b' = b ∧ ∃ fs, e = .string ⟨place.span c.position c'.position, none⟩ d fs ∧
        IsLiteral d fs ∧ Moves c (d :: (Fragment.render fs ++ [d])) c' := by
  unfold readString
  refine (steps_step c b).ensures ?_
  refine (steps_position c b).ensures ((steps_advance c b 1).ensures ?_)
  refine (steps_rest _ b).ensures ((steps_advance _ b _).ensures ?_)
  have hfirst := Moves.of_head? hhead
  cases hclosed : (scanString d (c.advance 1).rest).closed with
  | false =>
    -- A literal that is not closed is told of, and nothing is claimed of it.
    exact (steps_position _ b).ensures (ensures_report place
      ((grows_originFrom place _).bind fun _ => grows_pure _))
  | true =>
    obtain ⟨⟨tail, hrest⟩, hread, hliteral⟩ := isLiteral_of_closed hclosed
    refine (steps_originFrom place _ b _).ensures (ensures_pure ⟨rfl, _, rfl, hliteral, ?_⟩)
    have hmoves : Moves (c.advance 1)
        (Fragment.render (scanString d (c.advance 1).rest).fragments ++ [d])
        ((c.advance 1).advance (scanString d (c.advance 1).rest).read) := by
      rw [hread, show ∀ n, n + 1 = n + [d].length from fun _ => rfl, ← List.length_append]
      refine @Moves.of_rest _ _ tail ?_
      rw [List.append_assoc]
      exact hrest
    exact hfirst.trans hmoves

theorem ensures_readArgumentName {kind : BracketKind} (hhead : c.rest.head? = some '[') :
    Ensures (readArgumentName place kind) c b fun name c' b' =>
      b' = b ∧ ∃ ns, Moves c ns c' ∧ WrittenName kind name ns := by
  unfold readArgumentName
  refine (steps_step c b).ensures ?_
  refine (steps_position c b).ensures ((steps_openBracket c b _ _).ensures ?_)
  refine (steps_advance c _ 1).ensures ((steps_rest _ _).ensures ((steps_advance _ _ _).ensures ?_))
  refine (steps_current? _ _).ensures ?_
  have hfirst := Moves.of_head? hhead
  have hname := Moves.of_rest (List.takeWhile_append_dropWhile (p := (· != ']'))
    (l := (c.advance 1).rest)).symm
  -- What was read ends at a closing bracket, or the text ends there.
  have hclose := @Cursor.head?_advance_takeWhile (c.advance 1) ']'
  generalize (c.advance 1).rest.takeWhile (· != ']') = cs at hname hclose ⊢
  cases hcurrent : ((c.advance 1).advance cs.length).rest.head? with
  | none => exact ensures_giveUp place (List.cons_ne_nil _ _) (grows_pure _)
  | some d =>
    obtain rfl := hclose hcurrent
    refine (steps_advance _ _ 1).ensures ((steps_closeBracket _ _).ensures ?_)
    have hmoves := (hfirst.trans hname).trans (.of_head? hcurrent)
    split
    · next hvalid =>
      simp only [Bool.and_eq_true, Bool.not_eq_true', List.isEmpty_eq_false_iff, beq_iff_eq]
        at hvalid
      exact ensures_pure ⟨rfl, _, hmoves, .name hvalid.2 hvalid.1.1 hvalid.1.2⟩
    · exact (steps_position _ _).ensures (ensures_report place (grows_pure _))

/-- Where a path would end at once and no operator stands, an arrow does. -/
theorem arrow_of_endsPath {text : List Char} {ch : Char} (hhead : text.head? = some ch)
    (hend : isPathEnd ch = false) (hop : Operator.atStart? text = none)
    (hends : endsPath text = true) : arrowFollows text = true ∧ text.head? ≠ some '(' := by
  obtain ⟨rest, rfl⟩ : ∃ rest, text = ch :: rest := by
    cases text with
    | nil => cases hhead
    | cons x rest => exact ⟨rest, by rw [Option.some.inj hhead]⟩
  simp only [endsPath, hend, Bool.false_or, Bool.or_eq_true, Bool.and_eq_true, beq_iff_eq] at hends
  rcases hends with ⟨rfl, hnext⟩ | hends
  · cases rest with
    | nil => cases hnext
    | cons x rest =>
      obtain rfl : x = '>' := Option.some.inj hnext
      refine ⟨?_, by simp⟩
      rw [arrowFollows, Text.trimStart_cons (by decide)]
      rfl
  -- Without an arrow, the path ends at an operator; `??` is one of them.
  · by_cases hentries : ch = '?'
    · subst hentries
      cases rest with
      | nil => cases hends
      | cons x rest =>
        obtain rfl : x = '?' := by simpa using hends
        cases hop
    · rw [if_neg hentries, hop] at hends
      cases hends

theorem isBlank_of_isDigit {ch : Char} (h : ch.isDigit = true) : Text.isBlank ch = false := by
  have hrange : 48 ≤ ch.toNat ∧ ch.toNat ≤ 57 := by
    simpa [Char.isDigit, UInt32.le_iff_toNat_le] using h
  simp only [Text.isBlank, Bool.or_eq_false_iff, Bool.and_eq_false_iff, decide_eq_false_iff_not,
    beq_eq_false_iff_ne]
  omega

/-- A number that follows a minus directly. -/
theorem covers_negative {c₁ c₂ : Cursor} {o : Origin} {literal : String} {value : Numeral}
    {inside : Bool} {ws cs bl : List Char}
    (hcovers : Covers place inside .operand c₂ (.number o literal value) cs bl c₁)
    (hfirst : Moves c ['-'] (c.advance 1))
    (hdigit : (c.advance 1).rest.head?.any Char.isDigit = true)
    (hws : Blanks ws) (hskip : Moves (c.advance 1) ws c₂) :
    ∃ cs bl, Covers place inside .operand c
      (negate ⟨place.span c.position c₁.position, none⟩ literal value) cs bl c₁ := by
  have hnone : ws = [] := by
    cases ws with
    | nil => rfl
    | cons w ws =>
      rw [hskip.rest] at hdigit
      have hblank := hws w List.mem_cons_self
      rw [isBlank_of_isDigit hdigit] at hblank
      cases hblank
  subst hnone
  have hmoves : Moves c ('-' :: cs ++ bl) c₁ := by
    simpa using (hfirst.trans hskip).trans hcovers.moves
  have hhead : cs.head?.any Char.isDigit = true := by
    rw [hskip.rest, List.nil_append, hcovers.moves.rest] at hdigit
    cases cs with
    | nil => exact absurd rfl hcovers.tree.written.ne_nil
    | cons x cs => exact hdigit
  exact ⟨_, bl, Located.covers ⟨hmoves, hcovers.blanks, rfl⟩ (.negative _ hhead hcovers.written)
    fun hstands => hstands⟩

/-! ## What is claimed of each reading function -/

/-- An operand was read that begins at the cursor `c₀`. -/
def GainsOperand (place : Placement) (c₀ : Cursor) (b : List OpenBracket) (r : Option Expr)
    (c' : Cursor) (b' : List OpenBracket) : Prop :=
  b' = b ∧ ∃ e, r = some e ∧ (arrowFollows c'.rest = false →
    ∃ cs bl, Covers place (!b.isEmpty) .operand c₀ e cs bl c')

theorem gainsOperand {c₀ c' : Cursor} {e : Expr} {cs bl : List Char}
    (h : Covers place (!b.isEmpty) .operand c₀ e cs bl c') :
    GainsOperand place c₀ b (some e) c' b :=
  ⟨rfl, e, rfl, fun _ => ⟨cs, bl, h⟩⟩

/-- The text from one cursor to the other is an expression between blanks, and it ends there. -/
structure Whole (place : Placement) (inside : Bool) (c : Cursor) (e : Expr) (ws cs bl : List Char)
    (c' : Cursor) : Prop where
  moves : Moves c (ws ++ (cs ++ bl)) c'
  before : Blanks ws
  after : Blanks bl
  written : Written inside (.tree e) cs (bl ++ c'.rest)
  ends : EndsExpr inside c'.rest
  /-- The node at the root covers all of it. -/
  located : ∃ c₀ bl' c₁, Moves c ws c₀ ∧ Located place c₀ e cs bl' c₁
  nodes : e.everyNode (Stands place c.input) .free

/-- An expression was read. -/
def GainsWhole (place : Placement) (c : Cursor) (b : List OpenBracket) (r : Option Expr)
    (c' : Cursor) (b' : List OpenBracket) : Prop :=
  b' = b ∧ ∃ e ws cs bl, r = some e ∧ Whole place (!b.isEmpty) c e ws cs bl c'

/-- The operands and operators up to the cursor `c` are on the stacks, an operand on top. -/
def OnStacks (place : Placement) (inside : Bool) (c₀ : Cursor) (operands : List Expr)
    (ops : List Operator) (c : Cursor) : Prop :=
  arrowFollows c.rest = false →
    Stacked place inside c₀ operands ops c ∧ ∀ top ∈ operands.head?, top.tightness = 10

/-- What is claimed of all reading functions for one amount of fuel. -/
structure ReadingSound (place : Placement) (fuel : Nat) : Prop where
  expression : ∀ c b, Ensures (expression place fuel) c b (GainsWhole place c b)
  operators : ∀ c₀ c b operands ops, OnStacks place (!b.isEmpty) c₀ operands ops c →
    Ensures (operators place fuel operands ops) c b fun r c' b' =>
      b' = b ∧ ∃ c₁ ws, Blanks ws ∧ Moves c₁ ws c' ∧
        Stacked place (!b.isEmpty) c₀ r.1 r.2 c₁ ∧ EndsExpr (!b.isEmpty) c'.rest
  operand : ∀ c b, Ensures (operand place fuel) c b fun r c' b' =>
    ∃ ws c₀, Blanks ws ∧ Moves c ws c₀ ∧ GainsOperand place c₀ b r c' b'
  pathOperand : ∀ c b ch, c.rest.head? = some ch → isPathEnd ch = false →
    Operator.atStart? c.rest = none →
      Ensures (pathOperand place fuel c.position) c b (GainsOperand place c b)
  call : ∀ c₀ c b t cs, Moves c₀ cs c → cs ≠ [] → leading.feed cs = .ok t →
    c.rest.head? = some '(' →
      Ensures (call place fuel t c₀.position) c b (GainsOperand place c₀ b)
  chain : ∀ c₀ c b first cs, Moves c₀ cs c → first.span = place.span c₀.position c.position →
    first.everyNode (Stands place c₀.input) .free →
    (∀ o es ls tail, c.rest = ls ++ tail → Written (!b.isEmpty) (.links es) ls tail →
      Written (!b.isEmpty) (.operand (chained o first es)) (cs ++ ls) tail) →
        Ensures (chain place fuel first c₀.position) c b (GainsOperand place c₀ b)
  links : ∀ c b, Ensures (links place fuel) c b fun es c' b' =>
    b' = b ∧ ∃ ls, Moves c ls c' ∧ Written (!b.isEmpty) (.links es) ls c'.rest ∧
      Expr.everyItem (Stands place c.input) .laterLink es
  group : ∀ c b, c.rest.head? = some '(' →
    Ensures (group place fuel) c b (GainsOperand place c b)
  lambda : ∀ c₀ c b parameters cs, Moves c₀ cs c → arrowFollows c.rest = true →
    parameters.everyNode (Stands place c₀.input) (.ofParameters parameters) →
    (areParameters parameters = true → ∀ o body ws ws' ds tail,
      c.rest = ws ++ '=' :: '>' :: (ws' ++ (ds ++ tail)) → Blanks ws → Blanks ws' →
        Written (!b.isEmpty) (.tree body) ds tail →
          EndsExpr (!b.isEmpty) (Text.trimStart tail) →
            Written (!b.isEmpty) (.operand (.lambda o parameters body))
              (cs ++ (ws ++ '=' :: '>' :: (ws' ++ ds))) tail) →
    Ensures (lambda place fuel parameters c₀.position) c b (GainsOperand place c₀ b)
  arguments : ∀ kind start c b, Ensures (arguments place fuel kind start) c b fun args c' b' =>
    b' = b ∧ ∃ as, Moves c as c' ∧ Written true (.arguments kind args) as c'.rest ∧
      Argument.everyNode (Stands place c.input) args
  argumentList : ∀ kind c b, b ≠ [] →
    Ensures (argumentList place fuel kind) c b fun args c' b' =>
      b' = b.tail ∧ ∃ as, Moves c as c' ∧ Written true (.items kind args) as c'.rest ∧
        Argument.everyNode (Stands place c.input) args

/-! ## Chains -/

namespace ReadingSound

variable {fuel : Nat} (ih : ReadingSound place fuel)
include ih

theorem chain_succ {c₀ : Cursor} {first : Expr} {cs : List Char} (hmoves : Moves c₀ cs c)
    (hspan : first.span = place.span c₀.position c.position)
    (hnodes : first.everyNode (Stands place c₀.input) .free)
    (hwritten : ∀ o es ls tail, c.rest = ls ++ tail → Written (!b.isEmpty) (.links es) ls tail →
      Written (!b.isEmpty) (.operand (chained o first es)) (cs ++ ls) tail) :
    Ensures (Parser.chain place (fuel + 1) first c₀.position) c b (GainsOperand place c₀ b) := by
  rw [Parser.chain]
  refine (steps_step c b).ensures ((ih.links c b).bind (reading_grows place fuel).links ?_ ?_)
  · rintro es c' b' ⟨rfl, ls, hls, hlinks, hitems⟩
    have hoperand := fun o => hwritten o es ls c'.rest hls.rest hlinks
    cases es with
    -- No links: the operand is its first expression, with the same span.
    | nil =>
      have hnone : ls = [] := by cases hlinks; rfl
      subst hnone
      obtain rfl : c' = c := hls.eq
      have hlocated := Located.of_moves (hmoves.trans hls) hspan
      exact ensures_pure (gainsOperand (hlocated.covers (hoperand .nowhere) fun _ => hnodes))
    -- A chain spans its links as well, and each of them stands where it was read.
    | cons e es =>
      rw [hmoves.input] at hitems
      refine (steps_originFrom place c' _ _).ensures (ensures_pure (gainsOperand
        ((Located.of_moves (hmoves.trans hls) rfl).covers (hoperand _) fun hstands => ?_)))
      exact ⟨hstands, hnodes, hitems⟩
  -- Once something was told, it only matters that it stays told.
  · intro links
    cases links with
    | nil => exact grows_pure _
    | cons _ _ => exact (grows_originFrom place _).bind fun _ => grows_pure _

/-- A link that was read up to its path. -/
theorem afterLink {t : Tokenizer} {cs : List Char} {c₀ : Cursor} (hmoves : Moves c₀ cs c)
    (hfeed : continuation.feed cs = .ok t)
    (hcloses : t.expectsSlash = false → Closes cs c.rest) :
    Ensures (Parser.afterLink place fuel c₀.position (some t)) c b fun es c' b' =>
      b' = b ∧ ∃ ls, Moves c₀ ls c' ∧ Written (!b.isEmpty) (.links es) ('.' :: ls) c'.rest ∧
        Expr.everyItem (Stands place c₀.input) .laterLink es := by
  refine (steps_current? c b).ensures ?_
  split
  · next hcurrent =>
    have hopen : c.rest.head? = some '(' := eq_of_beq hcurrent
    -- Arguments follow, so the link is a call, and links may follow it in turn.
    have hbracket := Moves.of_head? hopen
    refine (steps_position c b).ensures ((steps_advance c b 1).ensures ?_)
    refine (ih.arguments _ _ _ b).bind ((reading_grows place fuel).arguments _ _) ?_ fun args => ?_
    · rintro args c₁ b₁ ⟨rfl, as, has, hargs, hnodes⟩
      split
      · next parts name hcall =>
        refine (steps_originFrom place c₁ _ _).ensures ?_
        refine (ih.links c₁ _).bind (reading_grows place fuel).links ?_ fun _ => grows_pure _
        rintro es c₂ b₂ ⟨rfl, ls, hls, hlinks, hitems⟩
        rw [hls.rest] at hargs
        have hlink := (hmoves.trans hbracket).trans has
        refine ensures_pure
          ⟨rfl, _, hlink.trans hls, ?_, ⟨Located.stands_of_ne (.of_moves hlink rfl) ?_ ?_, ?_⟩, ?_⟩
        · simp only [List.append_assoc, List.cons_append, List.nil_append]
          exact .link _ 0 hfeed hcall (hargs.follow (.inl rfl)) hlinks
        · simp
        · exact Role.noConfusion
        · rwa [hbracket.input, hmoves.input] at hnodes
        · rwa [hlink.input] at hitems
      · exact ensures_report place ((grows_placeholder place _).bind fun _ => grows_pure _)
    · split
      · exact (grows_originFrom place _).bind fun _ =>
          growing.across_bind (reading_grows place fuel).links fun _ => grows_pure _
      · exact (grows_report place _ _ _).bind fun _ => (grows_placeholder place _).bind
          fun _ => grows_pure _
  · next hcurrent =>
    split
    · exact ensures_report place (grows_pure _)
    · next hempty =>
      split
      · next parts hpath =>
        -- No arguments follow, so the link is a path, which is the last one.
        have hne : cs ≠ [] := fun hnil =>
          hempty ((Tokenizer.IsFresh.isEmpty_iff (.inr rfl) hfeed).mpr hnil)
        refine (steps_originFrom place c _ _).ensures ?_
        refine ensures_pure ⟨rfl, cs, hmoves, ?_, ?_, trivial⟩
        · exact .lastLink _ hfeed hpath hne (hcloses (Tokenizer.expectsSlash_of_path hpath))
            (by simpa using hcurrent)
        · exact Located.stands_of_ne (.of_moves hmoves rfl) hne Role.noConfusion
      · exact (steps_position _ _).ensures
          (ensures_report place ((grows_placeholder place _).bind fun _ => grows_pure _))

theorem links_succ : Ensures (Parser.links place (fuel + 1)) c b fun es c' b' =>
    b' = b ∧ ∃ ls, Moves c ls c' ∧ Written (!b.isEmpty) (.links es) ls c'.rest ∧
      Expr.everyItem (Stands place c.input) .laterLink es := by
  rw [links_eq]
  refine (steps_step c b).ensures ((steps_current? c b).ensures ?_)
  split
  · next hcurrent =>
    exact ensures_pure ⟨rfl, [], .refl c, .noLinks (by simpa using hcurrent), trivial⟩
  · next hcurrent =>
    have hdot : c.rest.head? = some '.' := by simpa using hcurrent
    refine (steps_advance c b 1).ensures ((steps_position _ b).ensures ?_)
    refine (ensures_readPath continuation).bind (grows_readPath place _) ?_
      ((reading_grows place fuel).afterLink_across growing _)
    rintro r c₁ b₁ ⟨rfl, t, cs, rfl, hcs, hfeed, hcloses⟩
    refine (ih.afterLink hcs hfeed hcloses).imp ?_
    rintro es c' b' ⟨rfl, ls, hls, hlinks, hitems⟩
    exact ⟨rfl, _, (Moves.of_head? hdot).trans hls, hlinks, hitems⟩

/-! ## Calls and groups -/

theorem call_succ {c₀ : Cursor} {t : Tokenizer} {cs : List Char} (hmoves : Moves c₀ cs c)
    (hne : cs ≠ []) (hfeed : leading.feed cs = .ok t) (hopen : c.rest.head? = some '(') :
    Ensures (Parser.call place (fuel + 1) t c₀.position) c b (GainsOperand place c₀ b) := by
  rw [Parser.call]
  refine (steps_step c b).ensures ((steps_position c b).ensures ((steps_advance c b 1).ensures ?_))
  refine (ih.arguments _ _ _ b).bind ((reading_grows place fuel).arguments _ _) ?_ fun args => ?_
  · rintro args c₁ b₁ ⟨rfl, as, has, hargs, hnodes⟩
    have hbracket := Moves.of_head? hopen
    have hcall := (hmoves.trans hbracket).trans has
    rw [hbracket.input, hmoves.input] at hnodes
    split
    · next parts name hname =>
      -- Whatever links come after the call, it is written with them.
      have hwritten : ∀ o o' es ls tail, Written (!b₁.isEmpty) (.links es) ls tail →
          Written (!b₁.isEmpty) (.operand (chained o (.call o' 0 parts name args) es))
            ((cs ++ ['(']) ++ as ++ ls) tail := by
        intro o o' es ls tail hlinks
        simp only [List.append_assoc, List.cons_append, List.nil_append]
        exact .call o o' 0 hfeed hname hne (hargs.follow (.inl rfl)) hlinks
      refine (steps_originFrom place c₁ _ _).ensures (ih.chain _ _ _ _ _ hcall rfl ⟨?_, hnodes⟩ ?_)
      · exact (Located.of_moves hcall rfl).stands_first
          (hwritten .nowhere _ [] [] [] (.noLinks (by simp)))
      · exact fun o es ls tail _ => hwritten o _ es ls tail
    · exact ensures_report place ((grows_placeholder place _).bind fun _ => grows_pure _)
  · split
    · exact (grows_originFrom place _).bind fun _ => (reading_grows place fuel).chain _ _
    · exact (grows_report place _ _ _).bind fun _ =>
        (grows_placeholder place _).bind fun _ => grows_pure _

/-- A group or the parameters of a lambda, after their bracket was closed. -/
theorem afterGroup {c₀ : Cursor} {args : List Argument} {as : List Char}
    (hmoves : Moves c₀ ('(' :: as) c) (hargs : Written true (.arguments .group args) as c.rest)
    (hnodes : Argument.everyNode (Stands place c₀.input) args) :
    Ensures (Parser.afterGroup place fuel c₀.position args) c b (GainsOperand place c₀ b) := by
  have hitems := Argument.everyItem_exprs hnodes
  unfold Parser.afterGroup
  refine ensures_get fun s hs => ?_
  rw [hs.going, if_neg Bool.false_ne_true]
  refine (steps_arrowAhead c b).ensures ?_
  split
  · next harrow =>
    -- The items are the parameters of a lambda.
    refine (steps_originFrom place c b _).ensures
      (ih.lambda _ _ _ _ _ hmoves harrow ⟨?_, hitems⟩ ?_)
    · exact Located.stands_of_ne (.of_moves hmoves rfl) (List.cons_ne_nil _ _) Role.noConfusion
    · intro hparameters o body ws ws' ds tail hrest hws hws' hbody hends
      rw [hrest] at hargs
      refine .lambdaList o _ (hargs.follow (.inl rfl)) ?_ hws hws' hbody hends
      simpa [areParameters] using hparameters
  · next harrow =>
    have hnoArrow : arrowFollows c.rest = false := by simpa using harrow
    have hchain := (grows_originFrom place c₀.position).bind fun o =>
      (reading_grows place fuel).chain (.list o .bracket (args.map Argument.expr)) c₀.position
    split
    · exact (steps_position c b).ensures (ensures_report place hchain)
    · next e hone =>
      -- A group holds one expression, and links may follow it but no arrow.
      obtain ⟨a, rfl, rfl⟩ := List.map_eq_singleton_iff.mp hone
      have hwritten : ∀ o o' es ls tail, arrowFollows (ls ++ tail) = false →
          Written (!b.isEmpty) (.links es) ls tail →
            Written (!b.isEmpty) (.operand (chained o (.list o' .bracket [a.expr]) es))
              ('(' :: as ++ ls) tail :=
        fun o o' es ls tail harrow hlinks => .group o o' (hargs.follow (.inl rfl)) harrow hlinks
      refine (steps_originFrom place c b _).ensures (ih.chain _ _ _ _ _ hmoves rfl ⟨?_, hitems⟩ ?_)
      · exact (Located.of_moves hmoves rfl).stands_first
          (hwritten .nowhere _ [] [] [] rfl (.noLinks (by simp)))
      · intro o es ls tail hrest
        exact hwritten o _ es ls tail (by rw [← hrest, hnoArrow])
    · exact (steps_position c b).ensures (ensures_report place hchain)

theorem group_succ (hopen : c.rest.head? = some '(') :
    Ensures (Parser.group place (fuel + 1)) c b (GainsOperand place c b) := by
  have hbracket := Moves.of_head? hopen
  rw [group_eq]
  refine (steps_step c b).ensures ((steps_position c b).ensures ((steps_advance c b 1).ensures ?_))
  refine (ih.arguments _ _ _ b).bind ((reading_grows place fuel).arguments _ _) ?_
    ((reading_grows place fuel).afterGroup_across growing _)
  rintro args c₁ b₁ ⟨rfl, as, has, hargs, hnodes⟩
  rw [hbracket.input] at hnodes
  exact ih.afterGroup (hbracket.trans has) hargs hnodes

/-- The arrow of a lambda and its body, after the parameters. -/
theorem lambda_succ {c₀ : Cursor} {parameters : Expr} {cs : List Char} (hmoves : Moves c₀ cs c)
    (harrow : arrowFollows c.rest = true)
    (hnodes : parameters.everyNode (Stands place c₀.input) (.ofParameters parameters))
    (hwritten : areParameters parameters = true → ∀ o body ws ws' ds tail,
      c.rest = ws ++ '=' :: '>' :: (ws' ++ (ds ++ tail)) → Blanks ws → Blanks ws' →
        Written (!b.isEmpty) (.tree body) ds tail →
          EndsExpr (!b.isEmpty) (Text.trimStart tail) →
            Written (!b.isEmpty) (.operand (.lambda o parameters body))
              (cs ++ (ws ++ '=' :: '>' :: (ws' ++ ds))) tail) :
    Ensures (Parser.lambda place (fuel + 1) parameters c₀.position) c b
      (GainsOperand place c₀ b) := by
  obtain ⟨ws, hws, hskip⟩ := exists_moves_skipBlanks c
  obtain ⟨text, htext⟩ : ∃ text, c.skipBlanks.rest = '=' :: '>' :: text := by
    rw [Cursor.rest_skipBlanks]
    obtain ⟨text, htext⟩ := List.isPrefixOf_iff_prefix.mp harrow
    exact ⟨text, htext.symm⟩
  have harrowMoves : Moves c.skipBlanks ['=', '>'] (c.skipBlanks.advance 2) :=
    @Moves.of_rest _ _ text htext
  have hbody := growing.across_afterBody place parameters c₀.position
  rw [lambda_eq]
  refine (steps_step c b).ensures
    ((steps_skipBlanks c b).ensures ((steps_advance _ b 2).ensures ?_))
  cases hparameters : areParameters parameters with
  | false =>
    exact (steps_position _ b).ensures
      (ensures_report place
        (growing.across_bind (reading_grows place fuel).expression hbody))
  | true =>
    refine (ih.expression _ b).bind (reading_grows place fuel).expression ?_ hbody
    rintro r c₁ b₁ ⟨rfl, body, ws', ds, bl, rfl, hwhole⟩
    have hall : Moves c₀ ((cs ++ (ws ++ '=' :: '>' :: (ws' ++ ds))) ++ bl) c₁ := by
      simpa using ((hmoves.trans hskip).trans harrowMoves).trans hwhole.moves
    have hrest : c.rest = ws ++ '=' :: '>' :: (ws' ++ (ds ++ (bl ++ c₁.rest))) := by
      rw [hskip.rest, harrowMoves.rest, hwhole.moves.rest]
      simp
    -- The blanks after the body belong to what comes next, and do not change where it ends.
    have hends : EndsExpr (!b₁.isEmpty) (Text.trimStart (bl ++ c₁.rest)) := by
      rw [Text.trimStart_append hwhole.after, hwhole.ends.trimStart]
      exact hwhole.ends
    have hbodyNodes := hwhole.nodes
    rw [harrowMoves.input, hskip.input, hmoves.input] at hbodyNodes
    have hlambda := fun o => hwritten hparameters o body ws ws' ds (bl ++ c₁.rest) hrest hws
      hwhole.before hwhole.written hends
    have hlocated : Located place c₀ (.lambda ⟨place.span c₀.position c₁.position, none⟩ parameters
        body) (cs ++ (ws ++ '=' :: '>' :: (ws' ++ ds))) bl c₁ := ⟨hall, hwhole.after, rfl⟩
    exact (steps_originFrom place c₁ _ _).ensures (ensures_pure (gainsOperand
      (hlocated.covers (hlambda _) fun hstands => ⟨hstands, hnodes, hbodyNodes⟩)))

/-! ## Arguments -/

/-- An argument after its name, and the arguments after it. -/
theorem item {kind : BracketKind} {start : Nat} {name : Option String} (hb : b ≠ []) :
    Ensures (Parser.item place fuel kind start name) c b fun args c' b' =>
      b' = b.tail ∧ ∃ as, Moves c as c' ∧ (∀ ws ns, Blanks ws → WrittenName kind name ns →
        Written true (.items kind args) (ws ++ (ns ++ as)) c'.rest) ∧
          Argument.everyNode (Stands place c.input) args := by
  refine (ih.expression c b).bind (reading_grows place fuel).expression ?_
    ((reading_grows place fuel).afterItem_across growing _ _ _)
  rintro r c₁ b₁ ⟨rfl, e, ws₁, cs, bl, rfl, hwhole⟩
  obtain ⟨ws₂, hws₂, hskip⟩ := exists_moves_skipBlanks c₁
  have hinside : (!b₁.isEmpty) = true := by simpa using hb
  have hblanks := hwhole.after.append hws₂
  have hmoves := hwhole.moves.trans hskip
  have hwritten := hwhole.written
  rw [hinside, hskip.rest, ← List.append_assoc] at hwritten
  refine (steps_originFrom place c₁ _ start).ensures ((steps_skipBlanks c₁ _).ensures ?_)
  refine (steps_current? _ _).ensures ?_
  cases hcurrent : c₁.skipBlanks.rest.head? with
  | none => exact ensures_giveUp place hb (grows_pure _)
  | some d =>
    have hlast := Moves.of_head? hcurrent
    rw [hlast.rest, List.singleton_append] at hwritten
    dsimp only
    split
    · next hclose =>
      obtain rfl : d = ')' := eq_of_beq hclose
      -- The last argument: its text ends with the bracket.
      refine (steps_advance _ _ 1).ensures ((steps_closeBracket _ _).ensures ?_)
      refine ensures_pure ⟨rfl, _, hmoves.trans hlast, fun ws ns hws hname => ?_, hwhole.nodes,
        trivial⟩
      have hitem := fun sp => @Written.lastItem true _ _ _ _ _ _ _ _ _ sp hws hname hwhole.before
        hblanks hwritten
      simp only [List.append_assoc] at hitem ⊢
      exact hitem _
    · split
      · exact ensures_reportHere place ((grows_advance 1).bind fun _ =>
          growing.across_bind ((reading_grows place fuel).argumentList kind) fun _ => grows_pure _)
      · next hcomma =>
        obtain rfl : d = ',' := by simpa using hcomma
        -- More arguments come after a comma, and they are written after this one.
        refine (steps_advance _ _ 1).ensures ?_
        refine (ih.argumentList kind _ b₁ hb).bind ((reading_grows place fuel).argumentList kind) ?_
          fun _ => grows_pure _
        rintro args c₂ b₂ ⟨rfl, as, has, hitems, hnodes⟩
        have hafter := hmoves.trans hlast
        rw [has.rest] at hwritten
        rw [hafter.input] at hnodes
        refine ensures_pure ⟨rfl, _, hafter.trans has, fun ws ns hws hname => ?_, hwhole.nodes,
          hnodes⟩
        have hitem := fun sp => Written.item sp hws hname hwhole.before hblanks hwritten hitems
        simp only [List.append_assoc, List.cons_append, List.nil_append] at hitem ⊢
        exact hitem _

theorem argumentList_succ {kind : BracketKind} (hb : b ≠ []) :
    Ensures (Parser.argumentList place (fuel + 1) kind) c b fun args c' b' =>
      b' = b.tail ∧ ∃ as, Moves c as c' ∧ Written true (.items kind args) as c'.rest ∧
        Argument.everyNode (Stands place c.input) args := by
  obtain ⟨ws, hws, hskip⟩ := exists_moves_skipBlanks c
  rw [argumentList_eq]
  refine (steps_step c b).ensures ((steps_skipBlanks c b).ensures ((steps_position _ b).ensures ?_))
  refine (steps_current? _ b).ensures ?_
  split
  · next hopen =>
    refine (ensures_readArgumentName (eq_of_beq hopen)).bind (grows_readArgumentName place kind) ?_
      ((reading_grows place fuel).item_across growing kind _)
    rintro name c₁ b₁ ⟨rfl, ns, hns, hname⟩
    refine (ih.item hb).imp ?_
    rintro args c' b' ⟨rfl, as, has, hitems, hnodes⟩
    rw [hns.input, hskip.input] at hnodes
    refine ⟨rfl, _, (hskip.trans hns).trans has, ?_, hnodes⟩
    rw [List.append_assoc]
    exact hitems ws ns hws hname
  · refine (ih.item hb).imp ?_
    rintro args c' b' ⟨rfl, as, has, hitems, hnodes⟩
    rw [hskip.input] at hnodes
    exact ⟨rfl, _, hskip.trans has, hitems ws [] hws .none, hnodes⟩

theorem arguments_succ {kind : BracketKind} {start : Nat} :
    Ensures (Parser.arguments place (fuel + 1) kind start) c b fun args c' b' =>
      b' = b ∧ ∃ as, Moves c as c' ∧ Written true (.arguments kind args) as c'.rest ∧
        Argument.everyNode (Stands place c.input) args := by
  obtain ⟨ws, hws, hskip⟩ := exists_moves_skipBlanks c
  rw [Parser.arguments]
  refine (steps_step c b).ensures ((steps_openBracket c b kind start).ensures ?_)
  refine (steps_skipBlanks c _).ensures ((steps_current? _ _).ensures ?_)
  split
  · next hclose =>
    have hlast := Moves.of_head? (eq_of_beq hclose)
    refine (steps_advance _ _ 1).ensures ((steps_closeBracket _ _).ensures ?_)
    exact ensures_pure ⟨rfl, _, hskip.trans hlast, .noArguments hws, trivial⟩
  · refine (ih.argumentList kind _ _ (List.cons_ne_nil _ _)).imp ?_
    rintro args c' b' ⟨rfl, as, has, hitems, hnodes⟩
    rw [hskip.input] at hnodes
    exact ⟨rfl, _, hskip.trans has, .someArguments (hitems.blanks_items hws), hnodes⟩

/-! ## Operands -/

/-- An operand that was read up to its path. Where there is none, an arrow follows. -/
theorem afterPath {c₀ : Cursor} {t : Tokenizer} {cs : List Char} (hmoves : Moves c₀ cs c)
    (hfeed : leading.feed cs = .ok t) (hcloses : t.expectsSlash = false → Closes cs c.rest)
    (harrow : cs = [] → arrowFollows c.rest = true ∧ c.rest.head? ≠ some '(') :
    Ensures (Parser.afterPath place fuel c₀.position (some t)) c b (GainsOperand place c₀ b) := by
  refine (steps_current? c b).ensures ?_
  split
  · next hcurrent =>
    have hopen : c.rest.head? = some '(' := eq_of_beq hcurrent
    exact ih.call c₀ c b t cs hmoves (fun hnil => (harrow hnil).2 hopen) hfeed hopen
  · next hcurrent =>
    have hcall : c.rest.head? ≠ some '(' := by simpa using hcurrent
    split
    · exact (steps_position c b).ensures (ensures_report place
        ((grows_placeholder place _).bind fun _ => grows_pure _))
    · next parts hpath =>
      have hcloses := hcloses (Tokenizer.expectsSlash_of_path hpath)
      refine (steps_originFrom place c b _).ensures ?_
      generalize ho : Origin.mk (place.span c₀.position c.position) none = o
      have hgains : GainsOperand place c₀ b (some (pathExpr o parts)) c b := by
        refine ⟨rfl, _, rfl, fun hnoArrow => ⟨cs, [], ?_⟩⟩
        -- An empty path is read only where an arrow follows, and there nothing has to be written.
        have hne : cs ≠ [] := by
          rintro rfl
          rw [(harrow rfl).1] at hnoArrow
          cases hnoArrow
        have hspan : (pathExpr o parts).span = place.span c₀.position c.position := by
          rw [span_pathExpr, ← ho]
        exact (Located.of_moves hmoves hspan).covers
          (.path o hfeed hpath hne hcloses hcall fun _ => hnoArrow) everyNode_pathExpr.mpr
      split
      · rw [pathExpr] at hgains
        dsimp only
        split
        · next hvalue =>
          simp only [hvalue] at hgains
          exact ensures_pure hgains
        · next hvalue =>
          simp only [hvalue] at hgains
          exact ensures_pure hgains
      · next key =>
        refine (steps_arrowAhead c b).ensures ?_
        split
        · next hfollows =>
          have hne : cs ≠ [] := by
            rintro rfl
            cases hfeed
            cases hpath
          -- A name before an arrow is a parameter: it is written on its own, whatever comes next.
          have halone : Written (!b.isEmpty) (.operand (.path o [⟨.member, key⟩])) cs [] :=
            .path o hfeed hpath hne ⟨rfl, fun _ => by simp⟩ (by simp) fun _ => rfl
          refine ih.lambda _ _ _ _ _ hmoves hfollows ?_ ?_
          · exact (Located.of_moves hmoves (by rw [← ho]; rfl)).stands .free (.operand halone)
          · intro hparameters o' body ws ws' ds tail _ hws hws' hbody hends
            exact .lambda o' o hfeed hpath hne hparameters hws hws' hbody hends
        · exact ensures_pure hgains
      · next hnumber _ =>
        rw [pathExpr_of_ne o hnumber] at hgains
        exact ensures_pure hgains

theorem pathOperand_succ {ch : Char} (hhead : c.rest.head? = some ch) (hend : isPathEnd ch = false)
    (hop : Operator.atStart? c.rest = none) :
    Ensures (Parser.pathOperand place (fuel + 1) c.position) c b (GainsOperand place c b) := by
  rw [pathOperand_eq]
  refine (steps_step c b).ensures ((ensures_readPath leading).bind (grows_readPath place _) ?_
    ((reading_grows place fuel).afterPath_across growing _))
  rintro r c₁ b₁ ⟨rfl, t, cs, rfl, hcs, hfeed, hcloses⟩
  refine ih.afterPath hcs hfeed hcloses ?_
  rintro rfl
  obtain rfl : c₁ = c := hcs.eq
  cases hfeed
  exact arrow_of_endsPath hhead hend hop (hcloses rfl).ends

theorem operandAt_string {ch : Char} (hhead : c.rest.head? = some ch)
    (hd : ch = '\'' ∨ ch = '"') :
    Ensures (readString place ch >>= fun e => Parser.chain place fuel e c.position) c b
      (GainsOperand place c b) := by
  refine (ensures_readString hhead).bind (grows_readString place ch) ?_
    fun _ => (reading_grows place fuel).chain _ _
  rintro e c₁ b₁ ⟨rfl, fs, rfl, hliteral, hmoves⟩
  have hwritten : ∀ o o' es ls tail, Written (!b₁.isEmpty) (.links es) ls tail →
      Written (!b₁.isEmpty) (.operand (chained o (.string o' ch fs) es))
        (ch :: (Fragment.render fs ++ [ch]) ++ ls) tail := by
    intro o o' es ls tail hlinks
    simp only [List.append_assoc, List.cons_append, List.nil_append]
    exact .string o o' hd hliteral hlinks
  refine ih.chain _ _ _ _ _ hmoves rfl ?_ fun o es ls tail _ => hwritten o _ es ls tail
  exact (Located.of_moves hmoves rfl).stands_first
    (hwritten .nowhere _ [] [] [] (.noLinks (by simp)))

theorem operandAt_not (hhead : c.rest.head? = some '!') :
    Ensures (Parser.operand place fuel >>= Parser.afterNot place c.position) (c.advance 1) b
      (GainsOperand place c b) := by
  have hfirst := Moves.of_head? hhead
  refine (ih.operand _ b).bind (reading_grows place fuel).operand ?_
    (growing.across_afterNot place _)
  rintro r c₁ b₁ ⟨ws, c₂, hws, hskip, rfl, e, rfl, hcovers⟩
  refine (steps_originFrom place c₁ _ _).ensures (ensures_pure ⟨rfl, _, rfl, fun hnoArrow => ?_⟩)
  obtain ⟨cs, bl, hcovers⟩ := hcovers hnoArrow
  have hmoves : Moves c ('!' :: (ws ++ cs) ++ bl) c₁ := by
    simpa using (hfirst.trans hskip).trans hcovers.moves
  have hnodes := hcovers.nodes
  rw [hskip.input, hfirst.input] at hnodes
  exact ⟨_, bl, Located.covers ⟨hmoves, hcovers.blanks, rfl⟩ (.not _ 0 hws hcovers.written)
    fun hstands => ⟨hstands, hnodes⟩⟩

theorem operandAt_minus (hhead : c.rest.head? = some '-')
    (hdigit : (c.advance 1).rest.head?.any Char.isDigit = true) :
    Ensures (Parser.operand place fuel >>= Parser.afterMinus place c.position) (c.advance 1) b
      (GainsOperand place c b) := by
  refine (ih.operand _ b).bind (reading_grows place fuel).operand ?_
    (growing.across_afterMinus place _)
  rintro r c₁ b₁ ⟨ws, c₂, hws, hskip, rfl, e, rfl, hcovers⟩
  cases e with
  | number o literal value =>
    refine (steps_originFrom place c₁ _ _).ensures (ensures_pure ⟨rfl, _, rfl, fun hnoArrow => ?_⟩)
    obtain ⟨cs, bl, hcovers⟩ := hcovers hnoArrow
    exact covers_negative hcovers (Moves.of_head? hhead) hdigit hws hskip
  | _ => exact ensures_report place (grows_pure _)

/-- An operand, from its first character on. -/
theorem operandAt {ch : Char} (hhead : c.rest.head? = some ch) (hblank : Text.isBlank ch = false) :
    Ensures (Parser.operandAt place fuel c.position ch c.rest[1]?) c b
      (GainsOperand place c b) := by
  unfold Parser.operandAt
  split
  · next hquote => exact ih.operandAt_string hhead (by simpa using hquote)
  next hquote =>
  split
  · next hopen =>
    obtain rfl : ch = '(' := eq_of_beq hopen
    exact ih.group c b hhead
  next hopen =>
  split
  · next hnot =>
    simp only [Bool.and_eq_true, beq_iff_eq] at hnot
    obtain ⟨rfl, -⟩ := hnot
    exact (steps_advance c b 1).ensures (ih.operandAt_not hhead)
  split
  · next hminus =>
    simp only [Bool.and_eq_true, beq_iff_eq, ← List.head?_drop] at hminus
    obtain ⟨rfl, hdigit⟩ := hminus
    exact (steps_advance c b 1).ensures (ih.operandAt_minus hhead hdigit)
  split
  · exact ensures_reportHere place (grows_pure _)
  next hclose =>
  split
  · exact ensures_reportHere place ((grows_advance 1).bind fun _ => grows_pure _)
  next hstray =>
  refine (steps_rest c b).ensures ?_
  split
  · exact ensures_report place ((grows_advance _).bind fun _ => (reading_grows place fuel).operand)
  · next hop =>
    refine ih.pathOperand c b ch hhead ?_ hop
    -- No character that ends every path came this far.
    simp only [Bool.or_eq_true, not_or, Bool.not_eq_true] at hquote hopen hclose hstray
    simp only [isPathEnd, hblank, hquote, hopen, hclose, hstray, Bool.or_self]

theorem operand_succ : Ensures (Parser.operand place (fuel + 1)) c b fun r c' b' =>
    ∃ ws c₀, Blanks ws ∧ Moves c ws c₀ ∧ GainsOperand place c₀ b r c' b' := by
  obtain ⟨ws, hws, hskip⟩ := exists_moves_skipBlanks c
  rw [operand_eq]
  refine (steps_step c b).ensures ((steps_skipBlanks c b).ensures ((steps_position _ b).ensures ?_))
  refine (steps_current? _ b).ensures ?_
  cases hcurrent : c.skipBlanks.rest.head? with
  | none => exact ensures_report place (grows_pure _)
  | some ch =>
    refine ensures_get fun s hs => ?_
    rw [hs.cursor]
    refine (ih.operandAt hcurrent (isBlank_of_skipBlanks hcurrent)).imp fun r c' b' h => ?_
    exact ⟨ws, _, hws, hskip, h⟩

/-! ## Operators -/

theorem operators_succ {c₀ : Cursor} {operands : List Expr} {ops : List Operator}
    (hon : OnStacks place (!b.isEmpty) c₀ operands ops c) :
    Ensures (Parser.operators place (fuel + 1) operands ops) c b fun r c' b' =>
      b' = b ∧ ∃ c₁ ws, Blanks ws ∧ Moves c₁ ws c' ∧
        Stacked place (!b.isEmpty) c₀ r.1 r.2 c₁ ∧ EndsExpr (!b.isEmpty) c'.rest := by
  obtain ⟨ws, hws, hskip⟩ := exists_moves_skipBlanks c
  have hgrows := reading_grows place fuel
  have hnoArrow : ['=', '>'].isPrefixOf c.skipBlanks.rest = false →
    arrowFollows c.rest = false := by
    rw [Cursor.rest_skipBlanks]
    exact id
  rw [Parser.operators]
  refine (steps_step c b).ensures ((steps_skipBlanks c b).ensures ((steps_current? _ b).ensures ?_))
  cases hcurrent : c.skipBlanks.rest.head? with
  | none =>
    -- The text ends, and so does the expression.
    have hnil : c.skipBlanks.rest = [] := List.head?_eq_none_iff.mp hcurrent
    obtain ⟨hstacked, -⟩ := hon (hnoArrow (by rw [hnil]; rfl))
    exact ensures_pure ⟨rfl, c, ws, hws, hskip, hstacked, .inl hnil⟩
  | some d =>
    obtain ⟨rest, hrest⟩ := List.head?_eq_some_iff.mp hcurrent
    refine ensures_get fun s hs => ?_
    rw [hs.brackets]
    split
    · next hclose =>
      -- What encloses the expression ends it; that is no arrow.
      simp only [Bool.and_eq_true, Bool.or_eq_true, beq_iff_eq] at hclose
      have hnotEqual : ['=', '>'].isPrefixOf c.skipBlanks.rest = false := by
        rw [hrest]
        rcases hclose.1 with rfl | rfl <;> rfl
      obtain ⟨hstacked, -⟩ := hon (hnoArrow hnotEqual)
      refine ensures_pure ⟨rfl, c, ws, hws, hskip, hstacked, .inr ⟨hclose.2, ?_⟩⟩
      rw [hcurrent]
      exact hclose.1.imp (congrArg some) (congrArg some)
    split
    · exact ensures_reportHere place ((grows_advance 1).bind fun _ => hgrows.operators _ _)
    split
    · exact ensures_reportHere place ((grows_advance 1).bind fun _ => hgrows.operators _ _)
    split
    · exact ensures_reportHere place ((grows_readString place d).bind fun _ => hgrows.operators _ _)
    refine (steps_rest _ b).ensures ?_
    split
    · exact (steps_position _ b).ensures ((steps_advance _ b 2).ensures
        (ensures_report place (hgrows.operators _ _)))
    next harrow =>
    refine (steps_rest _ b).ensures ?_
    split
    · exact ensures_reportHere place ((grows_advance 1).bind fun _ => hgrows.operators _ _)
    · next op hop =>
      -- An operator: those on the stack that bind as tightly are joined before it goes on top of
      -- them, with its right operand.
      obtain ⟨hstacked, htop⟩ := hon (hnoArrow (Bool.eq_false_iff.mpr harrow))
      refine (steps_advance _ b _).ensures ((steps_step _ b).ensures ?_)
      refine (ih.operand _ b).bind hgrows.operand ?_ ?_
      · rintro r c₁ b₁ ⟨ws', c₂, hws', hskip', rfl, e, rfl, hcovers⟩
        refine ih.operators c₀ c₁ _ _ _ fun hnoArrow => ?_
        obtain ⟨cs, bl, hcovers⟩ := hcovers hnoArrow
        refine ⟨?_, ?_⟩
        · refine hstacked.push (fun top h => ?_) hws hskip hop hws' hskip' hcovers.tree
            hcovers.written.tightness
          exact htop top h
        · rintro x ⟨⟩
          exact hcovers.written.tightness
      · intro r
        cases r with
        | none => exact grows_pure _
        | some _ => exact hgrows.operators _ _

theorem expression_succ :
    Ensures (Parser.expression place (fuel + 1)) c b (GainsWhole place c b) := by
  have hgrows := reading_grows place fuel
  rw [Parser.expression]
  refine (steps_step c b).ensures ((ih.operand c b).bind hgrows.operand ?_ ?_)
  · rintro r c₁ b₁ ⟨ws, c₀, hws, hskip, rfl, e, rfl, hcovers⟩
    -- The first operand alone is on the stacks. In the end all operators have joined theirs.
    have hon : OnStacks place (!b₁.isEmpty) c₀ [e] [] c₁ := by
      intro hnoArrow
      obtain ⟨cs, bl, hcovers⟩ := hcovers hnoArrow
      refine ⟨.one hcovers.tree, ?_⟩
      rintro x ⟨⟩
      exact hcovers.written.tightness
    refine (ih.operators c₀ c₁ _ _ _ hon).bind (hgrows.operators _ _) ?_ fun _ => grows_pure _
    rintro ⟨operands, ops⟩ c₂ b₂ ⟨rfl, c₃, ws', hws', hskip', hstacked, hends⟩
    obtain ⟨e', cs, bl, hhead, hcovers'⟩ := hstacked.exists_covers
    have hwritten := hcovers'.written
    rw [hskip'.rest, ← List.append_assoc] at hwritten
    have hnodes := hcovers'.nodes
    rw [hskip.input] at hnodes
    refine ensures_pure ⟨rfl, e', ws, cs, bl ++ ws', hhead, ?_, hws, hcovers'.blanks.append hws',
      hwritten, hends, ⟨c₀, bl, c₃, hskip, hcovers'.toLocated⟩, hnodes⟩
    simpa using (hskip.trans hcovers'.moves).trans hskip'
  · intro r
    cases r with
    | none => exact grows_pure _
    | some _ => exact growing.across_bind (hgrows.operators _ _) fun _ => grows_pure _

end ReadingSound

/-- Whatever is read without a problem was written, for every amount of fuel. -/
theorem reading_sound (place : Placement) : ∀ fuel, ReadingSound place fuel
  | 0 => by
    constructor <;> intros <;>
      simp only [expression, operators, operand, pathOperand, call, chain, links, group, lambda,
        arguments, argumentList, ensures_failure]
  | fuel + 1 =>
    have ih := reading_sound place fuel
    { expression := fun _ _ => ih.expression_succ
      operators := fun _ _ _ _ _ => ih.operators_succ
      operand := fun _ _ => ih.operand_succ
      pathOperand := fun _ _ _ => ih.pathOperand_succ
      call := fun _ _ _ _ _ => ih.call_succ
      chain := fun _ _ _ _ _ => ih.chain_succ
      links := fun _ _ => ih.links_succ
      group := fun _ _ => ih.group_succ
      lambda := fun _ _ _ _ _ => ih.lambda_succ
      arguments := fun _ _ _ _ => ih.arguments_succ
      argumentList := fun _ _ _ => ih.argumentList_succ }

end Parser

end Stencil
