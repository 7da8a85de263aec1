import Stencil.Proofs.Formatting
import Stencil.Proofs.Segments

/-!
# Where a tag ends

The end of a tag is looked for before its expression is read, by a search that knows strings and
braces only. It takes a backslash in a string together with whatever comes after it, and the reader
of expressions does so before a delimiter and a backslash only. The two agree all the same on every
expression that is read without problems: no closing brace stands outside its string literals, and
the search leaves each literal where the reader does (`takeTag_of_closed`). By induction over the
ways to write an expression the search passes over all of it (`Written.passes`).

Main statement: `parse_tag`. A tag in a template holds the expression that was written into it, read
as it is read alone.
-/

namespace Stencil

open Text (Blanks)

/-! ## Passing over a text -/

/-- The search for the end of a tag passes over the text, whatever comes next. -/
def Passes (cs : List Char) : Prop :=
  ∀ rest, takeTag none (cs ++ rest) = (takeTag none rest).map fun r => (cs ++ r.1, r.2)

theorem passes_nil : Passes [] := by
  intro rest
  show takeTag none rest = (takeTag none rest).map fun r => r
  rw [Option.map_id']

theorem Passes.append {cs ds : List Char} (hcs : Passes cs) (hds : Passes ds) :
    Passes (cs ++ ds) := by
  intro rest
  rw [List.append_assoc, hcs, hds, Option.map_map]
  congr 1
  funext r
  exact congrArg (·, r.2) (List.append_assoc cs ds r.1).symm

/-- A character that neither opens a string nor closes a tag. -/
def isPlain (c : Char) : Bool :=
  !isQuote c && c != '\x7d'

theorem isPlain_iff {c : Char} : isPlain c = true ↔ isQuote c = false ∧ c ≠ '\x7d' := by
  rw [isPlain, Bool.and_eq_true, Bool.not_eq_true', bne_iff_ne]

theorem passes_char {c : Char} (hc : isPlain c = true) : Passes [c] := by
  obtain ⟨hquote, hbrace⟩ := isPlain_iff.mp hc
  have hopens : ¬ (c = '\'' ∨ c = '"') := by
    simpa [isQuote] using hquote
  intro rest
  rw [List.singleton_append, takeTag_cons hbrace, if_neg hopens]
  rfl

theorem Passes.cons {c : Char} (hc : isPlain c = true) {cs : List Char} (h : Passes cs) :
    Passes (c :: cs) :=
  (passes_char hc).append h

theorem passes_chars {cs : List Char} (h : ∀ c ∈ cs, isPlain c = true) : Passes cs := by
  induction cs with
  | nil => exact passes_nil
  | cons c cs ih =>
    have hrest := ih fun d hd => h d (List.mem_cons_of_mem c hd)
    exact hrest.cons (h c List.mem_cons_self)

/-! ## String literals -/

/-- Where the reader finds a literal closed, the search has passed over all of it. -/
theorem takeTag_of_closed {d : Char} (hd : d ≠ '\\') {text : List Char}
    (h : (scanString d text).closed = true) :
    takeTag (some d) text = (takeTag none (text.drop (scanString d text).read)).map fun r =>
      (text.take (scanString d text).read ++ r.1, r.2) := by
  fun_induction scanString d text with
  | case1 => cases h
  | case2 c rest hc =>
    obtain rfl : c = d := eq_of_beq hc
    rw [takeTag_string hd, if_pos rfl]
    rfl
  | case3 => cases h
  | case4 c hc hb next after hnext scan ih =>
    obtain rfl : c = '\\' := eq_of_beq hb
    rw [takeTag, ih h, Option.map_map]
    rfl
  -- The search takes the next character along. The reader does not, and passes it in a step of its
  -- own.
  | case5 c hc hb next after hnext scan ih =>
    obtain rfl : c = '\\' := eq_of_beq hb
    simp only [Bool.or_eq_true, beq_iff_eq, not_or] at hnext
    have hstep : takeTag (some d) (next :: after) =
        (takeTag (some d) after).map (inBody next) := by
      rw [takeTag_string hnext.2, if_neg hnext.1]
    have hscan := ih h
    rw [hstep] at hscan
    have hboth : takeTag (some d) ('\\' :: next :: after) =
        ((takeTag (some d) after).map (inBody next)).map (inBody '\\') := by
      rw [takeTag, Option.map_map]
      rfl
    rw [hboth, hscan, Option.map_map]
    rfl
  | case6 c rest hc hb scan ih =>
    simp only [beq_iff_eq] at hc hb
    rw [takeTag_string hb, if_neg hc, ih h, Option.map_map]
    rfl

theorem passes_literal {d : Char} (hd : d = '\'' ∨ d = '"') {fs : List Fragment}
    (h : IsLiteral d fs) : Passes (d :: (Fragment.render fs ++ [d])) := by
  have hbackslash : d ≠ '\\' := by rcases hd with rfl | rfl <;> decide
  have hbrace : d ≠ '\x7d' := by rcases hd with rfl | rfl <;> decide
  intro rest
  have hscan := h rest
  have hclosed := takeTag_of_closed hbackslash
    (show (scanString d (Fragment.render fs ++ d :: rest)).closed = true by rw [hscan])
  have htext : Fragment.render fs ++ d :: rest = (Fragment.render fs ++ [d]) ++ rest := by simp
  have hlength : (Fragment.render fs).length + 1 = (Fragment.render fs ++ [d]).length := by simp
  rw [hscan, htext, hlength, List.take_left, List.drop_left] at hclosed
  rw [List.cons_append, takeTag_cons hbrace, if_pos hd, hclosed, Option.map_map]
  rfl

/-! ## Expressions -/

theorem isPlain_of_isPathChar {c : Char} (h : isPathChar c = true) : isPlain c = true := by
  refine isPlain_iff.mpr ⟨isQuote_of_isPathChar h, ?_⟩
  rintro rfl
  exact absurd h (by decide)

theorem isPlain_of_isBlank {c : Char} (h : Text.isBlank c = true) : isPlain c = true := by
  refine isPlain_iff.mpr ⟨isQuote_of_isBlank h, ?_⟩
  rintro rfl
  exact absurd h (by decide)

theorem isPlain_of_mem_symbol (op : Operator) : ∀ c ∈ op.symbol.toList, isPlain c = true := by
  cases op <;> simp [Operator.symbol, isPlain, isQuote]

theorem passes_blanks {ws : List Char} (h : Blanks ws) : Passes ws :=
  passes_chars fun c hc => isPlain_of_isBlank (h c hc)

theorem passes_feed {t t' : Tokenizer} {cs : List Char} (h : t.feed cs = .ok t') : Passes cs :=
  passes_chars fun c hc => isPlain_of_isPathChar (isPathChar_of_feed h c hc)

theorem WrittenName.passes {kind : BracketKind} {name : Option String} {ns : List Char}
    (h : WrittenName kind name ns) : Passes ns := by
  cases h with
  | none => exact passes_nil
  | @name cs _ _ hword =>
    have hplain : ∀ c ∈ cs, isPlain c = true := by
      intro c hc
      apply isPlain_of_isPathChar
      simp [isPathChar, List.all_eq_true.mp hword c hc]
    exact ((passes_chars hplain).append (passes_char (c := ']') rfl)).cons rfl

/-- The search for the end of a tag passes over whatever is written by the rules of the language. -/
theorem Written.passes {inside : Bool} {ph : Phrase} {cs tail : List Char}
    (h : Written inside ph cs tail) : Passes cs := by
  induction h with
  | path _ hfeed => exact passes_feed hfeed
  | negative _ _ _ ih => exact ih.cons rfl
  | not _ _ hws _ ih => exact ((passes_blanks hws).append ih).cons rfl
  | @string _ d fs ls _ _ _ _ hd hliteral _ ih =>
    have hsplit : d :: (Fragment.render fs ++ d :: ls) =
        (d :: (Fragment.render fs ++ [d])) ++ ls := by simp
    rw [hsplit]
    exact (passes_literal hd hliteral).append ih
  | call _ _ _ hfeed _ _ _ _ ihargs ihlinks =>
    exact (passes_feed hfeed).append ((ihargs.append ihlinks).cons rfl)
  | group _ _ _ _ _ ihargs ihlinks => exact (ihargs.append ihlinks).cons rfl
  | lambda _ _ hfeed _ _ _ hws hws' _ _ ih =>
    have hbody := (((passes_blanks hws').append ih).cons (c := '>') rfl).cons (c := '=') rfl
    exact (passes_feed hfeed).append ((passes_blanks hws).append hbody)
  | lambdaList _ _ _ _ hws hws' _ _ ihargs ih =>
    have hbody := (((passes_blanks hws').append ih).cons (c := '>') rfl).cons (c := '=') rfl
    exact (ihargs.append ((passes_blanks hws).append hbody)).cons rfl
  | noLinks => exact passes_nil
  | link _ _ hfeed _ _ _ ihargs ihlinks =>
    exact ((passes_feed hfeed).append ((ihargs.append ihlinks).cons rfl)).cons rfl
  | lastLink _ hfeed => exact (passes_feed hfeed).cons rfl
  | noArguments hws => exact (passes_blanks hws).append (passes_char rfl)
  | someArguments _ ih => exact ih
  | lastItem _ hws hname hws₁ hws₂ _ ih =>
    have hend := (passes_blanks hws₂).append (passes_char (c := ')') rfl)
    exact (passes_blanks hws).append
      (hname.passes.append ((passes_blanks hws₁).append (ih.append hend)))
  | item _ hws hname hws₁ hws₂ _ _ ih ihrest =>
    have hend := (passes_blanks hws₂).append (ihrest.cons (c := ',') rfl)
    exact (passes_blanks hws).append
      (hname.passes.append ((passes_blanks hws₁).append (ih.append hend)))
  | operand _ ih => exact ih
  | @binary _ _ _ _ _ _ op _ _ _ _ hws hws' _ _ _ _ _ ihl ihr =>
    have hright := (passes_chars (isPlain_of_mem_symbol op)).append
      ((passes_blanks hws').append ihr)
    exact ihl.append ((passes_blanks hws).append hright)

/-- An expression that is read without problems is all that a tag takes, up to its braces. -/
theorem takeTag_of_parse {e : String} {t : Expr} (h : parse e = ⟨some t, []⟩) (rest : List Char) :
    takeTag none (e.toList ++ '\x7d' :: '\x7d' :: rest) = some (e.toList, rest) := by
  obtain ⟨_, ws, cs, bl, htext, hws, hbl, hwritten, -⟩ := exists_text_of_parseAt h
  have hpasses : Passes e.toList := by
    rw [htext]
    exact (passes_blanks hws).append (hwritten.passes.append (passes_blanks hbl))
  rw [hpasses, takeTag_braces, Option.map_some, List.append_nil]

/-! ## Templates -/

/-- The pieces of a template in which text without opening braces comes before a tag. -/
theorem split_tag {e : String} {t : Expr} (h : parse e = ⟨some t, []⟩) {before : List Char}
    (hopen : ¬ ['\x7b', '\x7b'] <:+: before) (hlast : before.getLast? ≠ some '\x7b')
    (after : List Char) :
    split (before ++ ('\x7b' :: '\x7b' :: (e.toList ++ '\x7d' :: '\x7d' :: after))) =
      { splitFrom (before.length + 2 + e.toList.length + 2) after with
        pieces := textPieces before ++ .tag (before.length + 2) e.toList ::
          (splitFrom (before.length + 2 + e.toList.length + 2) after).pieces } := by
  have hplain := splitFrom_plain hopen 0
  rw [split, splitFrom_append _ (by rw [hplain]) (fun hbrace => absurd hbrace hlast), hplain,
    Nat.zero_add, splitFrom_tag (takeTag_of_parse h after), joinPieces_text_tag]

/-- A tag holds the expression that was written into it. It is read as the expression is read alone,
up to positions, and nothing that is found to be wrong in the template lies in it. -/
theorem parse_tag {e : String} {t : Expr} (h : parse e = ⟨some t, []⟩) {before : String}
    (hopen : ¬ ['\x7b', '\x7b'] <:+: before.toList)
    (hlast : before.toList.getLast? ≠ some '\x7b') (after : String) :
    let template := before ++ "\x7b\x7b" ++ e ++ "\x7d\x7d" ++ after
    let moved := t.relocate (Position.within template.toList (before.length + 2))
    (∃ rest, (Template.parse template).segments =
      (if before = "" then [] else [.text before]) ++ .tag ⟨e, ⟨some moved, []⟩⟩ :: rest) ∧
    moved.same t = true ∧
    ∀ d ∈ (Template.parse template).diagnostics,
      before.length + 2 + e.length + 2 ≤ d.span.start.offset := by
  intro template moved
  have htext : template.toList =
      before.toList ++ ('\x7b' :: '\x7b' :: (e.toList ++ '\x7d' :: '\x7d' :: after.toList)) := by
    simp [template]
  have hsplit := split_tag h hopen hlast after.toList
  rw [← htext, String.length_toList, String.length_toList] at hsplit
  refine ⟨?_, Expr.same_of_bare (Expr.bare_relocate _ t), ?_⟩
  · obtain ⟨next, hread⟩ := Template.readPieces_tag h template.toList (before.length + 2)
      (splitFrom (before.length + 2 + e.length + 2) after.toList).pieces
    refine ⟨Template.readPieces (.ofText template.toList) next
      (splitFrom (before.length + 2 + e.length + 2) after.toList).pieces, ?_⟩
    show Template.readPieces (.ofText template.toList) 0 (split template.toList).pieces = _
    rw [hsplit, Template.readPieces_text, hread]
  · intro d hd
    have hclean : Template.pieceDiagnostics template.toList
        (.tag (before.length + 2) e.toList) = [] := by
      rw [Template.pieceDiagnostics, String.ofList_toList, h]
      rfl
    -- The tag itself and the text before it have no problems.
    rw [Template.diagnostics_parse, hsplit, Template.pieceDiagnostics_text, List.flatMap_cons,
      hclean, List.nil_append] at hd
    exact Template.le_of_mem_diagnostics (splitFrom_within _ _) hd

/-- A lone brace before the tag and one directly after it, and braces, a quote and a backslash in a
string literal. -/
theorem parse_tag_braces :
    ∃ t, parse "a.Concat('\x7d\x7d\\'\\x')" = ⟨some t, []⟩ ∧
      let template := "\x7b: \x7b\x7ba.Concat('\x7d\x7d\\'\\x')\x7d\x7d\x7d"
      let moved := t.relocate (Position.within template.toList 5)
      (∃ rest, (Template.parse template).segments = .text "\x7b: " ::
        .tag ⟨"a.Concat('\x7d\x7d\\'\\x')", ⟨some moved, []⟩⟩ :: rest) ∧ moved.same t = true := by
  obtain ⟨t, ht, -⟩ := Parsed.exists_of_isValid (p := parse "a.Concat('\x7d\x7d\\'\\x')")
    (by decide +kernel)
  have hopen : ¬ ['\x7b', '\x7b'] <:+: "\x7b: ".toList := by decide
  have hlast : "\x7b: ".toList.getLast? ≠ some '\x7b' := by decide
  obtain ⟨hsegments, hsame, -⟩ := parse_tag ht hopen hlast "\x7d"
  exact ⟨t, ht, hsegments, hsame⟩

end Stencil
