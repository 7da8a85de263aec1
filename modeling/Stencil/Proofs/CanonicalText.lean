import Stencil.Proofs.PathText
import Stencil.Proofs.Writing

/-!
# The canonical text is a way to write an expression

Main statement: `Written.canonical`, whatever way an expression was written in, its canonical text
is another one. It goes rule by rule: paths are written down again, blanks become single spaces or
nothing, and what comes next is what the canonical text puts there.
-/

namespace Stencil

open Text (Blanks)
open Tokenizer (leading continuation)

/-- One space is blank. -/
theorem blanks_space : Blanks [' '] := by
  intro c hc
  obtain rfl := List.mem_singleton.mp hc
  rfl

/-! ## The canonical text of a phrase -/

/-- The canonical text of the links after a first operand. -/
def renderLinks (es : List Expr) : List Char :=
  es.flatMap fun e => '.' :: e.render

/-- The canonical text of a phrase. -/
def Phrase.canonical : Phrase → List Char
  | .operand e | .tree e => e.render
  | .links es => renderLinks es
  | .arguments _ args | .items _ args => Argument.renderAll args ++ [')']

theorem renderAll_chain : ∀ (first : Expr) (es : List Expr),
    Expr.renderAll ['.'] (first :: es) = first.render ++ renderLinks es
  | first, [] => by simp [Expr.renderAll, renderLinks]
  | first, e :: es => by
    have hrest := renderAll_chain e es
    simp only [Expr.renderAll, renderLinks, List.flatMap_cons] at hrest ⊢
    rw [hrest]
    simp

theorem render_chained (o : Origin) (first : Expr) (es : List Expr) :
    (chained o first es).render = first.render ++ renderLinks es := by
  cases es with
  | nil => simp [chained, renderLinks]
  | cons e es => exact renderAll_chain first (e :: es)

@[simp] theorem render_pathExpr (o : Origin) (parts : Path) :
    (pathExpr o parts).render = Path.render parts := by
  unfold pathExpr
  split
  · split <;> rfl
  · rfl

@[simp] theorem render_negate (o : Origin) (literal : String) (value : Numeral) :
    (Parser.negate o literal value).render = '-' :: literal.toList := by
  simp [Parser.negate, Expr.render]

theorem render_call (o : Origin) (n : Nat) (parts : Path) (name : String) (args : List Argument) :
    (Expr.call o n parts name args).render =
      parts.renderBefore ++ name.toList ++ '(' :: (Argument.renderAll args ++ [')']) := by
  simp [Expr.render, Path.renderBefore]

/-- The name of an argument as it is written. -/
def renderName (name : Option String) : List Char :=
  name.elim [] fun n => ['['] ++ n.toList ++ [']']

theorem writtenName_renderName {kind : BracketKind} {name : Option String} {ns : List Char}
    (h : WrittenName kind name ns) : WrittenName kind name (renderName name) := by
  cases h with
  | none => exact .none
  | @name cs hkind hne hword =>
    have hname : renderName (some (String.ofList cs)) = '[' :: (cs ++ [']']) := by
      simp [renderName]
    rw [hname]
    exact .name hkind hne hword

theorem renderAll_singleton (name : Option String) (sp : Span) (e : Expr) :
    Argument.renderAll [⟨name, sp, e⟩] = renderName name ++ e.render := by
  rw [Argument.renderAll, renderName]

theorem renderAll_cons (name : Option String) (sp : Span) (e : Expr) {args : List Argument}
    (hne : args ≠ []) :
    Argument.renderAll (⟨name, sp, e⟩ :: args) =
      renderName name ++ (e.render ++ ',' :: ' ' :: Argument.renderAll args) := by
  cases args with
  | nil => exact absurd rfl hne
  | cons a args => simp [Argument.renderAll, renderName]

/-- Without names, arguments are written as the items of a list. -/
theorem renderAll_items : ∀ args : List Argument, (∀ a ∈ args, a.name = none) →
    Argument.renderAll args = Expr.renderAll [',', ' '] (args.map Argument.expr)
  | [], _ => rfl
  | [⟨name, sp, e⟩], h => by
    obtain rfl : name = none := h _ List.mem_cons_self
    rfl
  | ⟨name, sp, e⟩ :: a :: args, h => by
    obtain rfl : name = none := h _ List.mem_cons_self
    have hrest := renderAll_items (a :: args) fun b hb => h b (List.mem_cons_of_mem _ hb)
    rw [renderAll_cons none sp e (List.cons_ne_nil a args), hrest]
    simp [renderName, Expr.renderAll]

/-! ## What the rules say about names and numbers -/

/-- Only the arguments of calls have names. -/
def Phrase.NamesFit : Phrase → Prop
  | .arguments kind args | .items kind args => kind ≠ .call → ∀ a ∈ args, a.name = none
  | _ => True

theorem Written.namesFit {inside : Bool} {ph : Phrase} {cs tail : List Char}
    (h : Written inside ph cs tail) : ph.NamesFit := by
  have hname : ∀ {kind : BracketKind} {name : Option String} {ns : List Char},
      WrittenName kind name ns → kind ≠ .call → name = none := by
    rintro kind name ns (_ | ⟨hkind, -, -⟩) hne
    · rfl
    · exact absurd hkind hne
  induction h with
  | noArguments => exact fun _ _ ha => absurd ha List.not_mem_nil
  | someArguments _ ih => exact ih
  | lastItem _ _ hn =>
    intro hkind a ha
    obtain rfl := List.mem_singleton.mp ha
    exact hname hn hkind
  | item _ _ hn _ _ _ _ _ ih =>
    intro hkind a ha
    rcases List.mem_cons.mp ha with rfl | ha
    · exact hname hn hkind
    · exact ih hkind a ha
  | _ => trivial

theorem Written.items_ne_nil {inside : Bool} {kind : BracketKind} {args : List Argument}
    {cs tail : List Char} (h : Written inside (.items kind args) cs tail) : args ≠ [] := by
  cases h <;> exact List.cons_ne_nil _ _

theorem head?_isNumberLiteral {text : List Char} (h : isNumberLiteral text = true) :
    text.head?.any Char.isDigit = true := by
  unfold isNumberLiteral at h
  simp only [Bool.and_eq_true] at h
  cases text with
  | nil => exact absurd h.1 (by decide)
  | cons c cs =>
    cases hc : c.isDigit with
    | true => simpa using hc
    | false => simp [hc] at h

theorem chained_eq_number {o o' : Origin} {first : Expr} {es : List Expr} {literal : String}
    {value : Numeral} (h : chained o first es = .number o' literal value) :
    first = .number o' literal value := by
  cases es with
  | nil => exact h
  | cons e es => cases h

/-- A path is a number if it is one part that is. -/
theorem pathExpr_eq_number {o o' : Origin} {parts : Path} {literal : String} {value : Numeral}
    (h : pathExpr o parts = .number o' literal value) :
    ∃ key, parts = [⟨.number, key⟩] ∧ literal = (⟨.number, key⟩ : Part).keyText := by
  unfold pathExpr at h
  split at h
  · next key =>
    split at h
    · obtain ⟨-, rfl, -⟩ := Expr.number.inj h
      exact ⟨key, rfl, rfl⟩
    · cases h
  · cases h

/-- A number that is not negative begins with a digit. -/
theorem Written.head?_number {inside : Bool} {ph : Phrase} {cs tail : List Char}
    (h : Written inside ph cs tail) {o : Origin} {literal : String} {value : Numeral}
    (hph : ph = .operand (.number o literal value)) (hdigit : cs.head?.any Char.isDigit = true) :
    literal.toList.head?.any Char.isDigit = true := by
  cases h with
  | path o' hfeed hpath =>
    obtain ⟨key, rfl, rfl⟩ := pathExpr_eq_number (Phrase.operand.inj hph)
    exact head?_isNumberLiteral
      (Tokenizer.isNumberLiteral_of_path (.inl rfl) hfeed hpath List.mem_cons_self rfl)
  | negative => cases hdigit
  | string => cases chained_eq_number (Phrase.operand.inj hph)
  | call => cases chained_eq_number (Phrase.operand.inj hph)
  | group => cases chained_eq_number (Phrase.operand.inj hph)
  | _ => cases hph

/-! ## The canonical text is written -/

/-- An operator with a space after it is read as that operator. -/
theorem atStart?_symbol_space {op : Operator} (h : op.isUnary = false) (text : List Char) :
    Operator.atStart? (op.symbol.toList ++ ([' '] ++ text)) = some op := by
  cases op <;> first | cases h; done | rfl

/-- What comes next in a canonical text: it ends what is before it, and begins with no question
mark. -/
def FollowsPlainly (inside : Bool) (tail : List Char) (inside' : Bool) (tail' : List Char) : Prop :=
  Follows inside tail inside' tail' ∧ tail'.head? ≠ some '?'

theorem FollowsPlainly.closes {inside inside' : Bool} {tail tail' : List Char}
    (h : FollowsPlainly inside tail inside' tail') (cs : List Char) : Closes cs tail' :=
  ⟨h.1.ends, fun _ => h.2⟩

theorem followsPlainly_bracket {c : Char} (hc : c = ')' ∨ c = ',') (inside : Bool)
    (tail rest : List Char) : FollowsPlainly inside tail true (c :: rest) := by
  refine ⟨follows_bracket Text.blanks_nil hc inside tail rest, fun h => ?_⟩
  rcases hc with rfl | rfl <;> cases h

/-! ## The canonical text of each construct -/

section Constructs

variable (o o' : Origin) (n : Nat) (parts : Path) (name : String) (body : Expr)

theorem canonical_string (d : Char) (fs : List Fragment) (es : List Expr) :
    Phrase.canonical (.operand (chained o (.string o' d fs) es)) =
      d :: (Fragment.render fs ++ d :: renderLinks es) := by
  simp [Phrase.canonical, render_chained, Expr.render]

theorem canonical_call (args : List Argument) (es : List Expr) :
    Phrase.canonical (.operand (chained o (.call o' n parts name args) es)) =
      parts.renderBefore ++ name.toList ++
        '(' :: (Argument.renderAll args ++ [')'] ++ renderLinks es) := by
  simp [Phrase.canonical, render_chained, render_call]

theorem canonical_link (args : List Argument) (es : List Expr) :
    Phrase.canonical (.links (.call o n parts name args :: es)) =
      '.' :: (parts.renderBefore ++ name.toList ++
        '(' :: (Argument.renderAll args ++ [')'] ++ renderLinks es)) := by
  simp [Phrase.canonical, renderLinks, render_call]

theorem canonical_lastLink :
    Phrase.canonical (.links [.path o parts]) = '.' :: Path.render parts := by
  simp [Phrase.canonical, renderLinks, Expr.render]

theorem canonical_lambda : Phrase.canonical (.operand (.lambda o (.path o' parts) body)) =
    Path.render parts ++ ([' '] ++ '=' :: '>' :: ([' '] ++ body.render)) := by
  simp [Phrase.canonical, Expr.render]

theorem canonical_binary (op : Operator) (l r : Expr) :
    Phrase.canonical (.tree (.binary o n op l r)) =
      l.render ++ ([' '] ++ (op.symbol.toList ++ ([' '] ++ r.render))) := by
  simp [Phrase.canonical, Expr.render]

/-- Arguments of a group are written without their names, since there are none. -/
theorem canonical_group {inside : Bool} {as tail : List Char} {a : Argument}
    (hargs : Written inside (.arguments .group [a]) as tail) (es : List Expr) :
    Phrase.canonical (.operand (chained o (.list o' .bracket [a.expr]) es)) =
      '(' :: (Argument.renderAll [a] ++ [')'] ++ renderLinks es) := by
  rw [renderAll_items [a] (hargs.namesFit (by decide))]
  simp [Phrase.canonical, render_chained, Expr.render]

theorem canonical_lambdaList {inside : Bool} {as tail : List Char} {args : List Argument}
    (hargs : Written inside (.arguments .group args) as tail) :
    Phrase.canonical (.operand (.lambda o (.list o' .arguments (args.map Argument.expr)) body)) =
      '(' :: (Argument.renderAll args ++ [')'] ++
        ([' '] ++ '=' :: '>' :: ([' '] ++ body.render))) := by
  rw [renderAll_items args (hargs.namesFit (by decide))]
  simp [Phrase.canonical, Expr.render]

end Constructs

theorem canonical_lastItem (kind : BracketKind) (name : Option String) (sp : Span) (e : Expr) :
    Phrase.canonical (.items kind [⟨name, sp, e⟩]) =
      [] ++ (renderName name ++ ([] ++ (e.render ++ ([] ++ [')'])))) := by
  simp [Phrase.canonical, renderAll_singleton]

theorem canonical_item {inside : Bool} {kind : BracketKind} {args : List Argument}
    {as tail : List Char} (hrest : Written inside (.items kind args) as tail)
    (name : Option String) (sp : Span) (e : Expr) :
    Phrase.canonical (.items kind (⟨name, sp, e⟩ :: args)) =
      [] ++ (renderName name ++ ([] ++ (e.render ++
        ([] ++ ',' :: ([' '] ++ (Argument.renderAll args ++ [')'])))))) := by
  simp [Phrase.canonical, renderAll_cons name sp e hrest.items_ne_nil]

/-- The canonical text of a binary operation is a way to write it: an operator between spaces is
read as itself, whatever comes next. -/
theorem Written.canonical_binary {inside inside' : Bool} {l r : Expr} {op : Operator}
    {ws ws' ds tail tail' : List Char} (o : Origin) (n : Nat) (hws : Blanks ws)
    (hop : Operator.atStart? (op.symbol.toList ++ (ws' ++ ds)) = some op)
    (hr : Written inside (.tree r) ds tail) (htl : op.precedence ≤ l.tightness)
    (htr : op.precedence < r.tightness)
    (ihl : ∀ {inside' : Bool} {tail' : List Char}, FollowsPlainly inside
      (ws ++ (op.symbol.toList ++ (ws' ++ (ds ++ tail)))) inside' tail' →
        Written inside' (.tree l) l.render tail')
    (ihr : Written inside' (.tree r) r.render tail') :
    Written inside' (.tree (.binary o n op l r)) (Phrase.canonical (.tree (.binary o n op l r)))
      tail' := by
  have hspaced : ∀ text, Operator.atStart? (op.symbol.toList ++ ([' '] ++ text)) = some op :=
    atStart?_symbol_space (Operator.prefix_of_atStart? hop).1
  have hends := not_endsExpr_operator hws (beginsOperator (atStart?_operand hop hr.ne_nil tail))
  rw [Stencil.canonical_binary]
  refine .binary o n blanks_space blanks_space (hspaced r.render) (ihl ⟨?_, ?_⟩) ihr htl htr
  · refine follows_operator blanks_space (beginsOperator (hspaced _)) _ _ (fun h => ?_) (hends _)
    cases h
  · exact fun h => by cases h

/-! ## The main statement -/

/-- However an expression was written, its canonical text is a way to write it. -/
theorem Written.canonical {inside : Bool} {ph : Phrase} {cs tail : List Char}
    (h : Written inside ph cs tail) {inside' : Bool} {tail' : List Char}
    (hf : ph.endsItself = true ∨ FollowsPlainly inside tail inside' tail') :
    Written inside' ph ph.canonical tail' := by
  induction h generalizing inside' tail' with
  -- The tokenizer reads its own display of a path to the same parts.
  | path o hfeed hpath hne hcloses hcall harrow =>
    have hf := hf.resolve_left Bool.false_ne_true
    have hdisplay := Tokenizer.feed_render_of_path (.inl rfl) hfeed hpath
    have hne := Tokenizer.IsFresh.display_ne_nil (.inl rfl) hfeed hdisplay hne
    simp only [Phrase.canonical, render_pathExpr]
    exact .path o hdisplay hpath hne (hf.closes _) hf.1.noCall fun _ => hf.1.noArrow
  | negative o' hdigit h ih =>
    have hf := hf.resolve_left Bool.false_ne_true
    simp only [Phrase.canonical, render_negate]
    exact .negative o' (h.head?_number rfl hdigit) (ih (.inr hf))
  | not o n hws h ih =>
    have hf := hf.resolve_left Bool.false_ne_true
    exact .not o n Text.blanks_nil (ih (.inr hf))
  | string o o' hd hliteral h ih =>
    have hf := hf.resolve_left Bool.false_ne_true
    rw [canonical_string]
    exact .string o o' hd hliteral (ih (.inr hf))
  | call o o' n hfeed hcall hne _ _ ihargs ihlinks =>
    have hf := hf.resolve_left Bool.false_ne_true
    have hdisplay := Tokenizer.feed_render_of_call (.inl rfl) hfeed hcall
    have hne := Tokenizer.IsFresh.display_ne_nil (.inl rfl) hfeed hdisplay hne
    rw [canonical_call]
    exact .call o o' n hdisplay hcall hne (ihargs (.inl rfl)) (ihlinks (.inr hf))
  | group o o' hargs _ _ ihargs ihlinks =>
    have hf := hf.resolve_left Bool.false_ne_true
    have hlinks := ihlinks (.inr hf)
    -- An arrow would make parameters of the group.
    have harrow := arrowFollows_links hlinks hf.1.noArrow
    rw [canonical_group o o' hargs]
    exact .group o o' (ihargs (.inl rfl)) harrow hlinks
  | lambda o o' hfeed hpath hne hparameter _ _ _ hends ih =>
    have hf := hf.resolve_left Bool.false_ne_true
    have hdisplay := Tokenizer.feed_render_of_path (.inl rfl) hfeed hpath
    have hne := Tokenizer.IsFresh.display_ne_nil (.inl rfl) hfeed hdisplay hne
    rw [canonical_lambda]
    exact .lambda o o' hdisplay hpath hne hparameter blanks_space blanks_space (ih (.inr hf))
      (hf.1.ends_expr hends)
  | lambdaList o o' hargs hparameters _ _ _ hends ihargs ih =>
    have hf := hf.resolve_left Bool.false_ne_true
    rw [canonical_lambdaList o o' _ hargs]
    exact .lambdaList o o' (ihargs (.inl rfl)) hparameters blanks_space blanks_space
      (ih (.inr hf)) (hf.1.ends_expr hends)
  | noLinks _ =>
    have hf := hf.resolve_left Bool.false_ne_true
    exact .noLinks (endsPath_ne_dot hf.1.ends)
  | link o n hfeed hcall _ _ ihargs ihlinks =>
    have hf := hf.resolve_left Bool.false_ne_true
    have hdisplay := Tokenizer.feed_render_of_call (.inr rfl) hfeed hcall
    rw [canonical_link]
    exact .link o n hdisplay hcall (ihargs (.inl rfl)) (ihlinks (.inr hf))
  | lastLink o hfeed hpath hne _ _ =>
    have hf := hf.resolve_left Bool.false_ne_true
    have hdisplay := Tokenizer.feed_render_of_path (.inr rfl) hfeed hpath
    have hne := Tokenizer.IsFresh.display_ne_nil (.inr rfl) hfeed hdisplay hne
    rw [canonical_lastLink]
    exact .lastLink o hdisplay hpath hne (hf.closes _) hf.1.noCall
  | noArguments _ => exact .noArguments Text.blanks_nil
  | someArguments _ ih => exact .someArguments (ih (.inl rfl))
  -- Inside brackets a bracket or a comma comes next, which ends every expression.
  | lastItem sp _ hname _ _ _ ih =>
    rw [canonical_lastItem]
    exact .lastItem sp Text.blanks_nil (writtenName_renderName hname) Text.blanks_nil
      Text.blanks_nil (ih (.inr (followsPlainly_bracket (.inl rfl) _ _ _)))
  | item sp _ hname _ _ _ hrest ih ihrest =>
    rw [canonical_item hrest]
    exact .item sp Text.blanks_nil (writtenName_renderName hname) Text.blanks_nil
      Text.blanks_nil (ih (.inr (followsPlainly_bracket (.inr rfl) _ _ _)))
      ((ihrest (.inl rfl)).blanks_items blanks_space)
  | operand _ ih => exact .operand (ih (.inr (hf.resolve_left Bool.false_ne_true)))
  | binary o n hws hws' hop hl hr htl htr ihl ihr =>
    have hf := hf.resolve_left Bool.false_ne_true
    exact .canonical_binary o n hws hop hr htl htr (fun h => ihl (.inr h)) (ihr (.inr hf))

end Stencil
