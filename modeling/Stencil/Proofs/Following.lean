import Stencil.Parser
import Stencil.Proofs.PathScan

/-!
# What comes next in a text

Where a name or an expression ends is decided by the text after it. `Follows` states that what ends
before one text also ends before another one; it holds of nothing at all (`follows_nil`), of what
belongs to the bracket around (`follows_bracket`) and of an operator (`follows_operator`). A string
literal ends by itself (`isLiteral_of_closed`).
-/

namespace Stencil

/-! ## Blanks -/

namespace Text

/-- Whether a text has nothing but blanks in it. -/
def Blanks (cs : List Char) : Prop :=
  ∀ c ∈ cs, isBlank c = true

theorem blanks_nil : Blanks [] :=
  fun _ h => absurd h List.not_mem_nil

theorem Blanks.append {cs ds : List Char} (hc : Blanks cs) (hd : Blanks ds) : Blanks (cs ++ ds) :=
  fun c h => (List.mem_append.mp h).elim (hc c) (hd c)

theorem trimStart_append {cs : List Char} (h : Blanks cs) (text : List Char) :
    trimStart (cs ++ text) = trimStart text := by
  induction cs with
  | nil => rfl
  | cons c cs ih =>
    unfold trimStart
    rw [List.cons_append, List.dropWhile_cons_of_pos (h c List.mem_cons_self)]
    exact ih fun d hd => h d (List.mem_cons_of_mem c hd)

theorem trimStart_cons {c : Char} (h : isBlank c = false) (text : List Char) :
    trimStart (c :: text) = c :: text :=
  List.dropWhile_cons_of_neg (by simp [h])

/-- Every text is what it is without the blanks it begins with, after these. -/
theorem exists_blanks (text : List Char) : ∃ ws, Blanks ws ∧ text = ws ++ trimStart text := by
  refine ⟨text.takeWhile isBlank, fun c h => ?_, (List.takeWhile_append_dropWhile).symm⟩
  exact List.all_eq_true.mp List.all_takeWhile c h

end Text

open Text (Blanks)

/-! ## What comes next -/

/-- Whether an expression ends before the text: nothing is left, or something that belongs to the
bracket around it follows. -/
def EndsExpr (inside : Bool) (rest : List Char) : Prop :=
  rest = [] ∨ inside = true ∧ (rest.head? = some ')' ∨ rest.head? = some ',')

/-- What ends an expression is no blank. -/
theorem EndsExpr.trimStart {inside : Bool} {rest : List Char} (h : EndsExpr inside rest) :
    Text.trimStart rest = rest := by
  cases rest with
  | nil => rfl
  | cons c rest =>
    rcases h with h | ⟨-, h | h⟩
    · cases h
    · obtain rfl : c = ')' := Option.some.inj h
      exact Text.trimStart_cons (by decide) rest
    · obtain rfl : c = ',' := Option.some.inj h
      exact Text.trimStart_cons (by decide) rest

/-- Whether what ends before `tail` also ends before `tail'`. -/
structure Follows (inside : Bool) (tail : List Char) (inside' : Bool) (tail' : List Char) :
    Prop where
  ends : endsPath tail' = true
  noCall : tail'.head? ≠ some '('
  noArrow : arrowFollows tail' = false
  entries : tail'.head? = some '?' → tail.head? = some '?'
  ends_expr : EndsExpr inside (Text.trimStart tail) → EndsExpr inside' (Text.trimStart tail')

theorem Follows.closes {inside inside' : Bool} {cs tail tail' : List Char}
    (h : Follows inside tail inside' tail') (hc : Closes cs tail) : Closes cs tail' :=
  ⟨h.ends, fun hlast htail => hc.entries hlast (h.entries htail)⟩

theorem endsPath_ne_dot {tail : List Char} (h : endsPath tail = true) : tail.head? ≠ some '.' := by
  cases tail with
  | nil => simp
  | cons c rest =>
    rintro hc
    obtain rfl : c = '.' := Option.some.inj hc
    rw [endsPath_cons (by decide)] at h
    cases h

/-- Blanks end a path as what comes after them does. -/
theorem endsPath_blanks {ws text : List Char} (hws : Blanks ws) (h : endsPath text = true) :
    endsPath (ws ++ text) = true := by
  cases ws with
  | nil => exact h
  | cons w ws =>
    have hw : isPathEnd w = true := by simp [isPathEnd, hws w List.mem_cons_self]
    simp [endsPath, hw]

theorem head?_blanks {ws rest : List Char} (hws : Blanks ws) {c d : Char}
    (h : (ws ++ c :: rest).head? = some d) : Text.isBlank d = true ∨ d = c := by
  cases ws with
  | nil => exact .inr (Option.some.inj h).symm
  | cons w ws =>
    obtain rfl : w = d := Option.some.inj h
    exact .inl (hws w List.mem_cons_self)

/-- Nothing comes next. -/
theorem follows_nil (inside inside' : Bool) (tail : List Char) :
    Follows inside tail inside' [] where
  ends := rfl
  noCall := by simp
  noArrow := rfl
  entries := by simp
  ends_expr _ := .inl rfl

/-- What belongs to the bracket comes next. -/
theorem follows_bracket {ws : List Char} (hws : Blanks ws) {c : Char} (hc : c = ')' ∨ c = ',')
    (inside : Bool) (tail rest : List Char) : Follows inside tail true (ws ++ c :: rest) := by
  have hblank : Text.isBlank c = false := by rcases hc with rfl | rfl <;> decide
  have htrim : Text.trimStart (ws ++ c :: rest) = c :: rest := by
    rw [Text.trimStart_append hws, Text.trimStart_cons hblank]
  have hends : endsPath (c :: rest) = true := by rcases hc with rfl | rfl <;> rfl
  refine ⟨endsPath_blanks hws hends, fun h => ?_, ?_, fun h => ?_, fun _ => ?_⟩
  · rcases head?_blanks hws h with h | rfl
    · exact absurd h (by decide)
    · exact absurd hc (by decide)
  · rw [arrowFollows, htrim]
    rcases hc with rfl | rfl <;> rfl
  · rcases head?_blanks hws h with h | rfl
    · exact absurd h (by decide)
    · exact absurd hc (by decide)
  · rw [htrim]
    exact .inr ⟨rfl, hc.imp (congrArg some) (congrArg some)⟩

/-! ## Operators as what comes next -/

theorem Operator.width_pos (op : Operator) : 0 < op.width := by
  cases op <;> decide

/-- An operator decides the first character of what begins with it. -/
theorem head?_symbol_append (op : Operator) (text : List Char) :
    (op.symbol.toList ++ text).head? = op.symbol.toList.head? := by
  have hpos : 0 < op.symbol.toList.length := op.width_pos
  cases hsymbol : op.symbol.toList with
  | nil =>
    rw [hsymbol] at hpos
    cases hpos
  | cons c cs => rfl

/-- What is known of a text that begins with a binary operator. -/
structure BeginsOperator (text : List Char) : Prop where
  ends : endsPath text = true
  noArrow : ['=', '>'].isPrefixOf text = false
  first : ∃ c, text.head? = some c ∧ Text.isBlank c = false ∧ c ≠ '(' ∧ c ≠ ')' ∧ c ≠ ',' ∧
    c ≠ '\'' ∧ c ≠ '"'

theorem beginsOperator {text : List Char} {op : Operator} (h : Operator.atStart? text = some op) :
    BeginsOperator text := by
  have hsome : (Operator.atStart? text).isSome = true := by rw [h]; rfl
  obtain ⟨c, rest, rfl⟩ : ∃ c rest, text = c :: rest := by
    cases text with
    | nil => cases h
    | cons c rest => exact ⟨c, rest, rfl⟩
  obtain ⟨hc, hequal, hentries⟩ := Operator.first_of_atStart? h
  have hall : (operatorChars ++ ['/', '?']).all (fun c => !Text.isBlank c && c != '(' && c != ')' &&
      c != ',' && c != '\'' && c != '"') = true := by decide
  have hfirst := List.all_eq_true.mp hall c (by simpa using hc)
  simp only [Bool.and_eq_true, Bool.not_eq_true', bne_iff_ne, and_assoc] at hfirst
  refine ⟨?_, ?_, c, rfl, hfirst⟩
  · by_cases hc : c = '?'
    · subst hc
      simp [endsPath, hentries rfl]
    · simp [endsPath, hc, hsome]
  · by_cases hc : c = '='
    · subst hc
      cases rest with
      | nil => rfl
      | cons d ds =>
        obtain rfl : d = '=' := Option.some.inj (hequal rfl)
        rfl
    · cases rest <;> simp [List.isPrefixOf, Ne.symm hc]

/-- An operator comes next, after blanks. -/
theorem follows_operator {ws text : List Char} (hws : Blanks ws) (hop : BeginsOperator text)
    {tail : List Char} (inside inside' : Bool)
    (hentries : (ws ++ text).head? = some '?' → tail.head? = some '?')
    (hends : ¬ EndsExpr inside (Text.trimStart tail)) :
    Follows inside tail inside' (ws ++ text) := by
  obtain ⟨c, hhead, hblank, hopen, -⟩ := hop.first
  obtain ⟨rest, rfl⟩ : ∃ rest, text = c :: rest := by
    cases text with
    | nil => cases hhead
    | cons d ds => exact ⟨ds, by rw [Option.some.inj hhead]⟩
  refine ⟨endsPath_blanks hws hop.ends, fun h => ?_, ?_, hentries, fun h => absurd h hends⟩
  · rcases head?_blanks hws h with h | rfl
    · exact absurd h (by decide)
    · exact hopen rfl
  · rw [arrowFollows, Text.trimStart_append hws, Text.trimStart_cons hblank]
    exact hop.noArrow

/-- Before an operator no expression ends. -/
theorem not_endsExpr_operator {ws text : List Char} (hws : Blanks ws) (hop : BeginsOperator text)
    (inside : Bool) : ¬ EndsExpr inside (Text.trimStart (ws ++ text)) := by
  obtain ⟨c, hhead, hblank, -, hclose, hcomma, -⟩ := hop.first
  cases text with
  | nil => cases hhead
  | cons d ds =>
    obtain rfl : d = c := Option.some.inj hhead
    rw [Text.trimStart_append hws, Text.trimStart_cons hblank]
    rintro (h | ⟨-, h | h⟩)
    · cases h
    · exact hclose (Option.some.inj h)
    · exact hcomma (Option.some.inj h)

/-- The first two characters decide which operator a text begins with. -/
theorem atStart?_append {cs : List Char} (h : 2 ≤ cs.length) (tail : List Char) :
    Operator.atStart? (cs ++ tail) = Operator.atStart? cs := by
  obtain ⟨a, b, rest, rfl⟩ : ∃ a b rest, cs = a :: b :: rest := by
    match cs, h with
    | a :: b :: rest, _ => exact ⟨a, b, rest, rfl⟩
  have hprefix : ∀ op : Operator, op.symbol.toList.isPrefixOf (a :: b :: rest ++ tail) =
      op.symbol.toList.isPrefixOf (a :: b :: rest) := by
    intro op
    cases op <;> rfl
  simp only [Operator.atStart?, hprefix]

/-! ## String literals -/

/-- Whether the fragments, between delimiters, are a string literal whatever comes next. -/
def IsLiteral (delimiter : Char) (fragments : List Fragment) : Prop :=
  ∀ tail, scanString delimiter (Fragment.render fragments ++ delimiter :: tail) =
    ⟨fragments, (Fragment.render fragments).length + 1, true⟩

@[simp] theorem Fragment.render_cons (c : Char) (fragments : List Fragment) :
    Fragment.render (Fragment.cons c fragments) = c :: Fragment.render fragments := by
  unfold Fragment.cons
  split <;> rfl

theorem scanString_close (d : Char) (rest : List Char) :
    scanString d (d :: rest) = ⟨[], 1, true⟩ := by
  rw [scanString.eq_def]
  simp

theorem scanString_escape {d next : Char} (hd : ¬ ('\\' == d) = true)
    (hnext : (next == d || next == '\\') = true) (after : List Char) :
    scanString d ('\\' :: next :: after) =
      let scan := scanString d after
      ⟨.escape next :: scan.fragments, scan.read + 2, scan.closed⟩ := by
  rw [scanString.eq_def]
  simp only [if_neg hd, beq_self_eq_true, if_true, hnext]

theorem scanString_backslash {d next : Char} (hd : ¬ ('\\' == d) = true)
    (hnext : ¬ (next == d || next == '\\') = true) (after : List Char) :
    scanString d ('\\' :: next :: after) =
      let scan := scanString d (next :: after)
      ⟨Fragment.cons '\\' scan.fragments, scan.read + 1, scan.closed⟩ := by
  rw [scanString.eq_def]
  simp only [if_neg hd, beq_self_eq_true, if_true, if_neg hnext]

theorem scanString_other {d c : Char} (hd : ¬ (c == d) = true) (hc : ¬ (c == '\\') = true)
    (rest : List Char) :
    scanString d (c :: rest) =
      let scan := scanString d rest
      ⟨Fragment.cons c scan.fragments, scan.read + 1, scan.closed⟩ := by
  rw [scanString.eq_def]
  simp only [if_neg hd, if_neg hc]

/-- A closed literal was read verbatim, and would be read so before any other text. -/
theorem isLiteral_of_closed {delimiter : Char} {text : List Char}
    (h : (scanString delimiter text).closed = true) :
    (∃ tail, text = Fragment.render (scanString delimiter text).fragments ++ delimiter :: tail) ∧
      (scanString delimiter text).read =
          (Fragment.render (scanString delimiter text).fragments).length + 1 ∧
        IsLiteral delimiter (scanString delimiter text).fragments := by
  fun_induction scanString delimiter text with
  | case1 => cases h
  | case2 c rest hc =>
    obtain rfl : c = delimiter := eq_of_beq hc
    exact ⟨⟨rest, rfl⟩, rfl, scanString_close c⟩
  | case3 => cases h
  -- A backslash before the delimiter or another one escapes it.
  | case4 c hc hb next after hnext scan ih =>
    obtain ⟨⟨tail, htext⟩, hread, hliteral⟩ := ih h
    obtain rfl : c = '\\' := eq_of_beq hb
    refine ⟨⟨tail, ?_⟩, ?_, fun tail => ?_⟩
    · exact congrArg (fun text => '\\' :: next :: text) htext
    · exact congrArg (· + 2) hread
    · show scanString delimiter ('\\' :: next :: (_ ++ delimiter :: tail)) = _
      rw [scanString_escape hc hnext, hliteral tail]
      rfl
  -- A backslash before anything else stands for itself. The same character comes next when the
  -- fragments are written down, so it is no escape there either.
  | case5 c hc hb next after hnext scan ih =>
    obtain ⟨⟨tail, htext⟩, hread, hliteral⟩ := ih h
    obtain rfl : c = '\\' := eq_of_beq hb
    have hrest : ∃ more, Fragment.render scan.fragments = next :: more := by
      cases hrender : Fragment.render scan.fragments with
      | nil =>
        rw [hrender] at htext
        obtain rfl : next = delimiter := (List.cons.inj htext).1
        simp at hnext
      | cons d more =>
        rw [hrender] at htext
        exact ⟨more, by rw [(List.cons.inj htext).1]⟩
    obtain ⟨more, hmore⟩ := hrest
    refine ⟨⟨tail, ?_⟩, ?_, fun tail => ?_⟩
    · rw [Fragment.render_cons]
      exact congrArg (List.cons '\\') htext
    · rw [Fragment.render_cons]
      exact congrArg (· + 1) hread
    · rw [Fragment.render_cons, hmore, List.cons_append, List.cons_append,
        scanString_backslash hc hnext, ← List.cons_append, ← hmore, hliteral tail]
      rfl
  | case6 c rest hc hb scan ih =>
    obtain ⟨⟨tail, htext⟩, hread, hliteral⟩ := ih h
    refine ⟨⟨tail, ?_⟩, ?_, fun tail => ?_⟩
    · rw [Fragment.render_cons]
      exact congrArg (List.cons c) htext
    · rw [Fragment.render_cons]
      exact congrArg (· + 1) hread
    · rw [Fragment.render_cons, List.cons_append, scanString_other hc hb, hliteral tail]
      rfl

end Stencil
