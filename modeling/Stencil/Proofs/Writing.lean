import Stencil.Proofs.Following

/-!
# The language of expressions

`Written inside ph cs tail` says that the text `cs` is a way to write the phrase `ph` where the text
`tail` comes next; `inside` tells whether a bracket is open around it. There is one rule for each
construct of the language. What comes next matters because a name goes on as far as it can, a group
may turn out to be the parameters of a lambda, and a lambda goes on to the end of what is around it.

Main statement: `Written.follow`, a text means the same where other text comes next, as long as that
ends it as well (`Follows`).
-/

namespace Stencil

open Text (Blanks)

/-! ## Phrases -/

/-- The parts of an expression that the language has rules for. -/
inductive Phrase where
  /-- What stands between binary operators. -/
  | operand (e : Expr)
  /-- The links that follow a call, a string or a group. -/
  | links (es : List Expr)
  /-- What follows an opened bracket, up to its end. -/
  | arguments (kind : BracketKind) (args : List Argument)
  /-- Arguments of which there is one at least. -/
  | items (kind : BracketKind) (args : List Argument)
  /-- A whole expression. -/
  | tree (e : Expr)

/-- How tightly an expression holds together: all operators bind less tightly than operands do. -/
def Expr.tightness : Expr → Nat
  | .binary _ _ op _ _ => op.precedence
  | _ => 10

theorem Operator.precedence_lt (op : Operator) : op.precedence < 10 := by
  cases op <;> decide

/-- The expression that a path is: a number, or a path. -/
def pathExpr (origin : Origin) (parts : Path) : Expr :=
  match parts with
  | [⟨.number, key⟩] =>
    match Numeral.ofLiteral? (key.getD "") with
    | some value => .number origin (key.getD "") value
    | none => .path origin parts
  | _ => .path origin parts

theorem pathExpr_of_ne (o : Origin) {parts : Path}
    (h : ∀ key, parts = [⟨.number, key⟩] → False) : pathExpr o parts = .path o parts := by
  unfold pathExpr
  split
  · next key => exact absurd rfl (h key)
  · rfl

/-- The expression that a first operand and the links after it are. -/
def chained (origin : Origin) (first : Expr) : List Expr → Expr
  | [] => first
  | links => .list origin .chain (first :: links)

/-- The ways to write the name of an argument. -/
inductive WrittenName (kind : BracketKind) : Option String → List Char → Prop
  | none : WrittenName kind none []
  | name {cs : List Char} (hkind : kind = .call) (hne : cs ≠ [])
      (hword : cs.all Text.isWord = true) :
      WrittenName kind (some (String.ofList cs)) ('[' :: (cs ++ [']']))

open Tokenizer (leading continuation)
open Stencil.Parser (isParameter negate)

/-- The ways to write a phrase, before a text that comes next. -/
inductive Written : Bool → Phrase → List Char → List Char → Prop
  | path {inside : Bool} {cs tail : List Char} {t : Tokenizer} {parts : Path} (o : Origin)
      (hfeed : leading.feed cs = .ok t) (hpath : t.path = .ok parts) (hne : cs ≠ [])
      (hcloses : Closes cs tail) (hcall : tail.head? ≠ some '(')
      (harrow : isParameter (.path o parts) = true → arrowFollows tail = false) :
      Written inside (.operand (pathExpr o parts)) cs tail
  | negative {inside : Bool} {cs tail : List Char} {o : Origin} {literal : String}
      {value : Numeral} (o' : Origin) (hdigit : cs.head?.any Char.isDigit = true)
      (h : Written inside (.operand (.number o literal value)) cs tail) :
      Written inside (.operand (negate o' literal value)) ('-' :: cs) tail
  | not {inside : Bool} {ws cs tail : List Char} {e : Expr} (o : Origin) (n : Nat)
      (hws : Blanks ws) (h : Written inside (.operand e) cs tail) :
      Written inside (.operand (.unary o n .not e)) ('!' :: (ws ++ cs)) tail
  | string {inside : Bool} {d : Char} {fs : List Fragment} {ls tail : List Char} {es : List Expr}
      (o o' : Origin) (hd : d = '\'' ∨ d = '"') (hliteral : IsLiteral d fs)
      (hlinks : Written inside (.links es) ls tail) :
      Written inside (.operand (chained o (.string o' d fs) es))
        (d :: (Fragment.render fs ++ d :: ls)) tail
  | call {inside : Bool} {cs as ls tail : List Char} {t : Tokenizer} {parts : Path} {name : String}
      {args : List Argument} {es : List Expr} (o o' : Origin) (n : Nat)
      (hfeed : leading.feed cs = .ok t) (hcall : t.call = .ok (parts, name)) (hne : cs ≠ [])
      (hargs : Written inside (.arguments .call args) as (ls ++ tail))
      (hlinks : Written inside (.links es) ls tail) :
      Written inside (.operand (chained o (.call o' n parts name args) es))
        (cs ++ '(' :: (as ++ ls)) tail
  | group {inside : Bool} {as ls tail : List Char} {a : Argument} {es : List Expr} (o o' : Origin)
      (hargs : Written inside (.arguments .group [a]) as (ls ++ tail))
      (harrow : arrowFollows (ls ++ tail) = false)
      (hlinks : Written inside (.links es) ls tail) :
      Written inside (.operand (chained o (.list o' .bracket [a.expr]) es)) ('(' :: (as ++ ls)) tail
  | lambda {inside : Bool} {cs ws ws' ds tail : List Char} {t : Tokenizer} {parts : Path}
      {body : Expr} (o o' : Origin) (hfeed : leading.feed cs = .ok t) (hpath : t.path = .ok parts)
      (hne : cs ≠ []) (hparameter : isParameter (.path o' parts) = true) (hws : Blanks ws)
      (hws' : Blanks ws') (hbody : Written inside (.tree body) ds tail)
      (hends : EndsExpr inside (Text.trimStart tail)) :
      Written inside (.operand (.lambda o (.path o' parts) body))
        (cs ++ (ws ++ '=' :: '>' :: (ws' ++ ds))) tail
  | lambdaList {inside : Bool} {as ws ws' ds tail : List Char} {args : List Argument} {body : Expr}
      (o o' : Origin)
      (hargs : Written inside (.arguments .group args) as
        (ws ++ '=' :: '>' :: (ws' ++ (ds ++ tail))))
      (hparameters : args.all (fun a => isParameter a.expr) = true) (hws : Blanks ws)
      (hws' : Blanks ws') (hbody : Written inside (.tree body) ds tail)
      (hends : EndsExpr inside (Text.trimStart tail)) :
      Written inside (.operand (.lambda o (.list o' .arguments (args.map Argument.expr)) body))
        ('(' :: (as ++ (ws ++ '=' :: '>' :: (ws' ++ ds)))) tail
  | noLinks {inside : Bool} {tail : List Char} (h : tail.head? ≠ some '.') :
      Written inside (.links []) [] tail
  | link {inside : Bool} {cs as ls tail : List Char} {t : Tokenizer} {parts : Path} {name : String}
      {args : List Argument} {es : List Expr} (o : Origin) (n : Nat)
      (hfeed : continuation.feed cs = .ok t) (hcall : t.call = .ok (parts, name))
      (hargs : Written inside (.arguments .call args) as (ls ++ tail))
      (hlinks : Written inside (.links es) ls tail) :
      Written inside (.links (.call o n parts name args :: es)) ('.' :: (cs ++ '(' :: (as ++ ls)))
        tail
  | lastLink {inside : Bool} {cs tail : List Char} {t : Tokenizer} {parts : Path} (o : Origin)
      (hfeed : continuation.feed cs = .ok t) (hpath : t.path = .ok parts) (hne : cs ≠ [])
      (hcloses : Closes cs tail) (hcall : tail.head? ≠ some '(') :
      Written inside (.links [.path o parts]) ('.' :: cs) tail
  | noArguments {inside : Bool} {kind : BracketKind} {ws tail : List Char} (hws : Blanks ws) :
      Written inside (.arguments kind []) (ws ++ [')']) tail
  | someArguments {inside : Bool} {kind : BracketKind} {args : List Argument} {cs tail : List Char}
      (h : Written inside (.items kind args) cs tail) :
      Written inside (.arguments kind args) cs tail
  | lastItem {inside : Bool} {kind : BracketKind} {name : Option String} {e : Expr}
      {ws ns ws₁ cs ws₂ tail : List Char} (sp : Span) (hws : Blanks ws)
      (hname : WrittenName kind name ns) (hws₁ : Blanks ws₁) (hws₂ : Blanks ws₂)
      (h : Written true (.tree e) cs (ws₂ ++ ')' :: tail)) :
      Written inside (.items kind [⟨name, sp, e⟩])
        (ws ++ (ns ++ (ws₁ ++ (cs ++ (ws₂ ++ [')']))))) tail
  | item {inside : Bool} {kind : BracketKind} {name : Option String} {e : Expr}
      {args : List Argument} {ws ns ws₁ cs ws₂ as tail : List Char} (sp : Span) (hws : Blanks ws)
      (hname : WrittenName kind name ns) (hws₁ : Blanks ws₁) (hws₂ : Blanks ws₂)
      (h : Written true (.tree e) cs (ws₂ ++ ',' :: (as ++ tail)))
      (hrest : Written inside (.items kind args) as tail) :
      Written inside (.items kind (⟨name, sp, e⟩ :: args))
        (ws ++ (ns ++ (ws₁ ++ (cs ++ (ws₂ ++ ',' :: as))))) tail
  | operand {inside : Bool} {cs tail : List Char} {e : Expr}
      (h : Written inside (.operand e) cs tail) : Written inside (.tree e) cs tail
  | binary {inside : Bool} {cs ws ws' ds tail : List Char} {op : Operator} {l r : Expr} (o : Origin)
      (n : Nat) (hws : Blanks ws) (hws' : Blanks ws')
      (hop : Operator.atStart? (op.symbol.toList ++ (ws' ++ ds)) = some op)
      (hl : Written inside (.tree l) cs (ws ++ (op.symbol.toList ++ (ws' ++ (ds ++ tail)))))
      (hr : Written inside (.tree r) ds tail) (htl : op.precedence ≤ l.tightness)
      (htr : op.precedence < r.tightness) :
      Written inside (.tree (.binary o n op l r))
        (cs ++ (ws ++ (op.symbol.toList ++ (ws' ++ ds)))) tail

/-- Blanks may stand before arguments. -/
theorem Written.blanks_items {inside : Bool} {kind : BracketKind} {args : List Argument}
    {cs tail : List Char} (h : Written inside (.items kind args) cs tail) {ws : List Char}
    (hws : Blanks ws) : Written inside (.items kind args) (ws ++ cs) tail := by
  cases h with
  | lastItem sp hws₀ hname hws₁ hws₂ h =>
    rw [← List.append_assoc]
    exact .lastItem sp (hws.append hws₀) hname hws₁ hws₂ h
  | item sp hws₀ hname hws₁ hws₂ h hrest =>
    rw [← List.append_assoc]
    exact .item sp (hws.append hws₀) hname hws₁ hws₂ h hrest

/-! ## First and last characters -/

theorem isPathChar_of_feed {t t' : Tokenizer} {cs : List Char} (h : t.feed cs = .ok t') :
    ∀ c ∈ cs, isPathChar c = true := by
  induction cs generalizing t with
  | nil => exact fun _ hc => absurd hc List.not_mem_nil
  | cons c cs ih =>
    obtain ⟨t₁, hadd, hfeed⟩ := Tokenizer.exists_of_feed_cons h
    intro d hd
    rcases List.mem_cons.mp hd with rfl | hd
    · exact isPathChar_of_add hadd
    · exact ih hfeed d hd

theorem isBlank_of_isPathChar {c : Char} (h : isPathChar c = true) : Text.isBlank c = false := by
  cases hblank : Text.isBlank c with
  | false => rfl
  | true =>
    have hend : isPathEnd c = true := by simp [isPathEnd, hblank]
    rw [isPathChar_eq_false_of_isPathEnd hend] at h
    cases h

/-- Characters with which operands may begin. -/
def opensOperand (c : Char) : Bool :=
  isPathChar c || ['(', '!', '-', '\'', '"'].contains c

/-- A character that cannot be the first of an operand. -/
theorem ne_of_opensOperand {c d : Char} (h : opensOperand c = true)
    (hd : opensOperand d = false) : c ≠ d := by
  rintro rfl
  rw [h] at hd
  cases hd

theorem isBlank_of_opensOperand {c : Char} (h : opensOperand c = true) :
    Text.isBlank c = false := by
  simp only [opensOperand, Bool.or_eq_true, List.contains_iff_mem] at h
  rcases h with h | h
  · exact isBlank_of_isPathChar h
  · have hall : ['(', '!', '-', '\'', '"'].all (fun c => !Text.isBlank c) = true := by decide
    simpa using List.all_eq_true.mp hall c h

/-- Whether a text ends with something that is not blank. -/
def EndsSolid (cs : List Char) : Prop :=
  ∃ c, cs.getLast? = some c ∧ Text.isBlank c = false

theorem EndsSolid.append {ds : List Char} (h : EndsSolid ds) (cs : List Char) :
    EndsSolid (cs ++ ds) := by
  obtain ⟨c, hlast, hc⟩ := h
  exact ⟨c, by rw [List.getLast?_append, hlast]; rfl, hc⟩

theorem EndsSolid.cons {ds : List Char} (h : EndsSolid ds) (c : Char) : EndsSolid (c :: ds) :=
  h.append [c]

theorem endsSolid_of_feed {t t' : Tokenizer} {cs : List Char} (h : t.feed cs = .ok t')
    (hne : cs ≠ []) : EndsSolid cs :=
  ⟨cs.getLast hne, List.getLast?_eq_some_getLast hne,
    isBlank_of_isPathChar (isPathChar_of_feed h _ (List.getLast_mem hne))⟩

/-- What is known of the text of a phrase without looking into it. -/
def Phrase.Solid (cs : List Char) : Phrase → Prop
  | .operand _ | .tree _ => (∃ c, cs.head? = some c ∧ opensOperand c = true) ∧ EndsSolid cs
  | .links _ => cs = [] ∨ cs.head? = some '.' ∧ EndsSolid cs
  | .arguments _ _ | .items _ _ => EndsSolid cs

theorem exists_of_feed_leading {t : Tokenizer} {cs : List Char} (h : leading.feed cs = .ok t)
    (hne : cs ≠ []) (more : List Char) :
    ∃ c, (cs ++ more).head? = some c ∧ opensOperand c = true := by
  cases cs with
  | nil => exact absurd rfl hne
  | cons c cs =>
    have hc := isPathChar_of_feed h c List.mem_cons_self
    exact ⟨c, rfl, by simp [opensOperand, hc]⟩

theorem Written.solid {inside : Bool} {ph : Phrase} {cs tail : List Char}
    (h : Written inside ph cs tail) : ph.Solid cs := by
  -- A text that may be followed by links ends with the links, or else as it would without them.
  have hlinks : ∀ {as ls : List Char} {es : List Expr}, EndsSolid as →
      Phrase.Solid ls (.links es) → EndsSolid (as ++ ls) := by
    rintro as ls es has (rfl | ⟨-, hls⟩)
    · rwa [List.append_nil]
    · exact hls.append as
  induction h with
  -- Only characters of paths are fed, and none of them is blank.
  | @path _ cs _ _ _ _ hfeed _ hne =>
    refine ⟨?_, endsSolid_of_feed hfeed hne⟩
    have hfirst := exists_of_feed_leading hfeed hne []
    rwa [List.append_nil] at hfirst
  | negative _ _ _ ih => exact ⟨⟨'-', rfl, by decide⟩, ih.2.cons _⟩
  | not _ _ _ _ ih => exact ⟨⟨'!', rfl, by decide⟩, (ih.2.append _).cons _⟩
  | @string _ d fs ls _ es _ _ hd _ _ ih =>
    have hsolid : EndsSolid [d] := ⟨d, rfl, by rcases hd with rfl | rfl <;> decide⟩
    exact ⟨⟨d, rfl, by rcases hd with rfl | rfl <;> decide⟩,
      ((hlinks hsolid ih).append _).cons d⟩
  | call _ _ _ hfeed _ hne _ _ ihargs ihlinks =>
    exact ⟨exists_of_feed_leading hfeed hne _, ((hlinks ihargs ihlinks).cons _).append _⟩
  | group _ _ _ _ _ ihargs ihlinks => exact ⟨⟨'(', rfl, by decide⟩, (hlinks ihargs ihlinks).cons _⟩
  | lambda _ _ hfeed _ hne _ _ _ _ _ ih =>
    refine ⟨exists_of_feed_leading hfeed hne _, EndsSolid.append ?_ _⟩
    exact EndsSolid.append (((ih.2.append _).cons _).cons _) _
  | lambdaList _ _ _ _ _ _ _ _ _ ih =>
    refine ⟨⟨'(', rfl, by decide⟩, EndsSolid.cons (EndsSolid.append ?_ _) _⟩
    exact EndsSolid.append (((ih.2.append _).cons _).cons _) _
  | noLinks => exact .inl rfl
  | link _ _ _ _ _ _ ihargs ihlinks =>
    exact .inr ⟨rfl, (((hlinks ihargs ihlinks).cons _).append _).cons _⟩
  | lastLink _ hfeed _ hne => exact .inr ⟨rfl, (endsSolid_of_feed hfeed hne).cons _⟩
  | noArguments => exact EndsSolid.append ⟨')', rfl, by decide⟩ _
  | someArguments _ ih => exact ih
  -- Arguments end with their closing bracket.
  | lastItem =>
    have hsolid : EndsSolid [')'] := ⟨')', rfl, by decide⟩
    exact ((((hsolid.append _).append _).append _).append _).append _
  | item _ _ _ _ _ _ _ _ ih =>
    exact (((((EndsSolid.cons ih _).append _).append _).append _).append _).append _
  | operand _ ih => exact ih
  | binary _ _ _ _ _ _ _ _ _ ihl ihr =>
    obtain ⟨c, hhead, hc⟩ := ihl.1
    refine ⟨⟨c, ?_, hc⟩, ((((ihr.2.append _).append _).append _).append _)⟩
    rw [List.head?_append, hhead]
    rfl

/-! ## The same text before other text -/

/-- Whether the end of the phrase is part of its own text. -/
def Phrase.endsItself : Phrase → Bool
  | .arguments _ _ | .items _ _ => true
  | _ => false

/-- What follows a group or its links is no arrow, if what follows both is none. -/
theorem arrowFollows_links {inside : Bool} {es : List Expr} {ls tail tail' : List Char}
    (hlinks : Written inside (.links es) ls tail) (h : arrowFollows tail' = false) :
    arrowFollows (ls ++ tail') = false := by
  rcases hlinks.solid with rfl | ⟨hdot, -⟩
  · exact h
  · cases ls with
    | nil => cases hdot
    | cons c ls =>
      obtain rfl : c = '.' := Option.some.inj hdot
      rw [List.cons_append, arrowFollows, Text.trimStart_cons (by decide)]
      rfl

theorem Written.ne_nil {inside : Bool} {e : Expr} {cs tail : List Char}
    (h : Written inside (.tree e) cs tail) : cs ≠ [] := by
  obtain ⟨⟨c, hhead, -⟩, -⟩ := h.solid
  rintro rfl
  cases hhead

/-- What comes after an operand does not decide which operator stands before it. -/
theorem atStart?_operand {op : Operator} {ws ds : List Char}
    (h : Operator.atStart? (op.symbol.toList ++ (ws ++ ds)) = some op) (hne : ds ≠ [])
    (more : List Char) :
    Operator.atStart? (op.symbol.toList ++ (ws ++ (ds ++ more))) = some op := by
  have hsymbol : 0 < op.symbol.toList.length := op.width_pos
  have hds : 0 < ds.length := List.length_pos_iff.mpr hne
  have hlength : 2 ≤ (op.symbol.toList ++ (ws ++ ds)).length := by
    simp only [List.length_append]
    omega
  rw [← h, ← atStart?_append hlength more]
  simp only [List.append_assoc]

/-- A text means the same before any text that ends it as well. -/
theorem Written.follow {inside : Bool} {ph : Phrase} {cs tail : List Char}
    (h : Written inside ph cs tail) {inside' : Bool} {tail' : List Char}
    (hf : ph.endsItself = true ∨ Follows inside tail inside' tail') :
    Written inside' ph cs tail' := by
  induction h generalizing inside' tail' with
  -- Only paths, links, lambdas and operators look at what comes next.
  | path o hfeed hpath hne hcloses hcall harrow =>
    have hf := hf.resolve_left Bool.false_ne_true
    exact .path o hfeed hpath hne (hf.closes hcloses) hf.noCall fun _ => hf.noArrow
  | negative o' hdigit _ ih =>
    exact .negative o' hdigit (ih (.inr (hf.resolve_left Bool.false_ne_true)))
  | not o n hws _ ih => exact .not o n hws (ih (.inr (hf.resolve_left Bool.false_ne_true)))
  | string o o' hd hliteral _ ih =>
    exact .string o o' hd hliteral (ih (.inr (hf.resolve_left Bool.false_ne_true)))
  | call o o' n hfeed hcall hne _ _ ihargs ihlinks =>
    have hf := hf.resolve_left Bool.false_ne_true
    exact .call o o' n hfeed hcall hne (ihargs (.inl rfl)) (ihlinks (.inr hf))
  | group o o' _ _ hlinks ihargs ihlinks =>
    have hf := hf.resolve_left Bool.false_ne_true
    exact .group o o' (ihargs (.inl rfl)) (arrowFollows_links hlinks hf.noArrow)
      (ihlinks (.inr hf))
  | lambda o o' hfeed hpath hne hparameter hws hws' _ hends ih =>
    have hf := hf.resolve_left Bool.false_ne_true
    exact .lambda o o' hfeed hpath hne hparameter hws hws' (ih (.inr hf)) (hf.ends_expr hends)
  | lambdaList o o' _ hparameters hws hws' _ hends ihargs ih =>
    have hf := hf.resolve_left Bool.false_ne_true
    exact .lambdaList o o' (ihargs (.inl rfl)) hparameters hws hws' (ih (.inr hf))
      (hf.ends_expr hends)
  | noLinks h =>
    have hf := hf.resolve_left Bool.false_ne_true
    exact .noLinks (endsPath_ne_dot hf.ends)
  | link o n hfeed hcall _ _ ihargs ihlinks =>
    have hf := hf.resolve_left Bool.false_ne_true
    exact .link o n hfeed hcall (ihargs (.inl rfl)) (ihlinks (.inr hf))
  | lastLink o hfeed hpath hne hcloses hcall =>
    have hf := hf.resolve_left Bool.false_ne_true
    exact .lastLink o hfeed hpath hne (hf.closes hcloses) hf.noCall
  -- Arguments end with their bracket, whatever comes next.
  | noArguments hws => exact .noArguments hws
  | someArguments _ ih => exact .someArguments (ih (.inl rfl))
  | lastItem sp hws hname hws₁ hws₂ _ ih =>
    exact .lastItem sp hws hname hws₁ hws₂ (ih (.inr (follows_bracket hws₂ (.inl rfl) _ _ _)))
  | item sp hws hname hws₁ hws₂ _ _ ih ihrest =>
    exact .item sp hws hname hws₁ hws₂ (ih (.inr (follows_bracket hws₂ (.inr rfl) _ _ _)))
      (ihrest (.inl rfl))
  | operand _ ih => exact .operand (ih (.inr (hf.resolve_left Bool.false_ne_true)))
  | @binary _ _ ws ws' ds _ op _ _ o n hws hws' hop hl hr htl htr ihl ihr =>
    have hf := hf.resolve_left Bool.false_ne_true
    have hbegins := fun more => beginsOperator (atStart?_operand hop hr.ne_nil more)
    refine .binary o n hws hws' hop (ihl (.inr ?_)) (ihr (.inr hf)) htl htr
    refine follows_operator hws (hbegins tail') _ inside' (fun h => ?_)
      (not_endsExpr_operator hws (hbegins _) _)
    -- Both texts begin with the same blank or with the operator.
    cases ws with
    | nil =>
      rw [List.nil_append] at h ⊢
      rwa [head?_symbol_append] at h ⊢
    | cons w ws => exact h

end Stencil
