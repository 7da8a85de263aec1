import Stencil.Proofs.Marks
import Stencil.Proofs.RoundTrip

/-!
# Formatting touches blanks only

Main statement: `significant_canonical`, a text that is read without problems and its canonical text
have the same significant marks, and so the same string literals in the same order. It goes rule by
rule over the ways to write an expression (`Written.alike`). Paths are written down from what the
tokenizer has read: where the texts differ, the one written down has a dot more, before an object
selector (`Tokenizer.ReadAlike`).
-/

namespace Stencil

open Text (Blanks)

/-! ## Paths -/

theorem isQuote_of_isPathChar {c : Char} (h : isPathChar c = true) : isQuote c = false := by
  refine Bool.eq_false_iff.mpr fun hc => ?_
  rw [isQuote, Bool.or_eq_true, beq_iff_eq, beq_iff_eq] at hc
  rcases hc with rfl | rfl <;> exact absurd h (by decide)

/-- Paths have neither quotes nor blanks in them. -/
theorem alike_of_pathChars {cs ds : List Char} (hcs : ∀ c ∈ cs, isPathChar c = true)
    (hds : ∀ c ∈ ds, isPathChar c = true) (h : MarksAlike (cs.map .char) (ds.map .char)) :
    Alike cs ds := by
  refine alike_of_chars (fun c hc => isQuote_of_isPathChar (hcs c hc))
    (fun c hc => isQuote_of_isPathChar (hds c hc)) ?_
  rwa [solid_of_not_blank fun c hc => isBlank_of_isPathChar (hcs c hc),
    solid_of_not_blank fun c hc => isBlank_of_isPathChar (hds c hc)]

namespace Tokenizer

/-- A name does not end with a dot. -/
theorem stage_of_add_dot {t t' : Tokenizer} (h : t.add '.' = .ok t') :
    t'.stage ≠ .segment ∧ t'.stage ≠ .number := by
  have hdot : t.dot = .ok t' := h
  unfold dot at hdot
  cases hstage : t.stage <;> simp only [hstage] at hdot
  case start | number => split at hdot <;> cases hdot <;> exact ⟨nofun, nofun⟩
  all_goals first | cases hdot; done | cases hdot; exact ⟨nofun, nofun⟩

/-- What was read and what is written down cannot be told apart, and a name that still goes on did
not end with a dot. -/
structure ReadAlike (t : Tokenizer) (read : List Char) : Prop where
  alike : MarksAlike (read.map .char) (t.display.map .char)
  inName : t.stage = .segment ∨ t.stage = .number → ∃ c, read.getLast? = some c ∧ c ≠ '.'

theorem ReadAlike.add {t t' : Tokenizer} {read : List Char} {c : Char} (hread : t.ReadAlike read)
    (ht : t.Coherent) (h : t.add c = .ok t') (halive : ∀ n, t'.stage ≠ .stray n) :
    t'.Coherent ∧ t'.ReadAlike (read ++ [c]) := by
  obtain ⟨ds, hwrites, ⟨hcoherent, hdisplay⟩, -⟩ := grows_add ht h halive
  refine ⟨hcoherent, ?_, fun hname => ⟨c, List.getLast?_concat, ?_⟩⟩
  · rw [hdisplay, List.map_append, List.map_append]
    rcases hwrites with rfl | ⟨rfl, rfl, hstage⟩
    · exact hread.alike.append (.refl _)
    · obtain ⟨d, hlast, hd⟩ := hread.inName hstage
      have hlast : (read.map Mark.char).getLast? = some (.char d) := by
        rw [List.getLast?_map, hlast]
        rfl
      refine hread.alike.question (fun hnil => ?_) (fun hdot => ?_)
      · rw [hnil] at hlast
        cases hlast
      · rw [hlast] at hdot
        exact hd (Mark.char.inj (Option.some.inj hdot))
  · rintro rfl
    have hdot := stage_of_add_dot h
    exact hname.elim hdot.1 hdot.2

theorem ReadAlike.feed {t t' : Tokenizer} {read cs : List Char} (hread : t.ReadAlike read)
    (ht : t.Coherent) (h : t.feed cs = .ok t') (halive : ∀ n, t'.stage ≠ .stray n) :
    t'.ReadAlike (read ++ cs) := by
  induction cs generalizing t read with
  | nil =>
    cases h
    rwa [List.append_nil]
  | cons c cs ih =>
    obtain ⟨t₁, hadd, hfeed⟩ := exists_of_feed_cons h
    obtain ⟨hcoherent, hnext⟩ := hread.add ht hadd (not_stray_of_feed hfeed halive)
    rw [List.append_cons]
    exact ih hnext hcoherent hfeed

/-- The characters that a fresh tokenizer was fed are written down as they are, up to dots before
object selectors. -/
theorem IsFresh.alike_display {s t : Tokenizer} {cs : List Char} (hs : s.IsFresh)
    (h : s.feed cs = .ok t) (halive : ∀ n, t.stage ≠ .stray n) : Alike cs t.display := by
  have hstart : s.ReadAlike [] := by
    rcases hs with rfl | rfl <;>
      exact ⟨.refl [], fun hname => by rcases hname with hname | hname <;> cases hname⟩
  have hread := (hstart.feed hs.coherent h halive).alike
  obtain ⟨-, hdisplay⟩ := hs.feed_display h halive
  exact alike_of_pathChars (isPathChar_of_feed h) (isPathChar_of_feed hdisplay) hread

theorem alike_render_of_path {s t : Tokenizer} {cs : List Char} {parts : Path} (hs : s.IsFresh)
    (hfeed : s.feed cs = .ok t) (h : t.path = .ok parts) : Alike cs (Path.render parts) := by
  obtain ⟨hcoherent, -⟩ := hs.feed_display hfeed (not_stray_of_path h)
  rw [render_of_path hcoherent h]
  exact hs.alike_display hfeed (not_stray_of_path h)

theorem alike_render_of_call {s t : Tokenizer} {cs : List Char} {parts : Path} {name : String}
    (hs : s.IsFresh) (hfeed : s.feed cs = .ok t) (h : t.call = .ok (parts, name)) :
    Alike cs (parts.renderBefore ++ name.toList) := by
  obtain ⟨hcoherent, -⟩ := hs.feed_display hfeed (not_stray_of_call h)
  rw [render_of_call hcoherent h]
  exact hs.alike_display hfeed (not_stray_of_call h)

end Tokenizer

/-! ## Whole expressions -/

theorem isQuote_of_isWord {c : Char} (h : Text.isWord c = true) : isQuote c = false :=
  isQuote_of_isPathChar (by simp [isPathChar, h])

theorem isQuote_of_mem_symbol (op : Operator) : ∀ c ∈ op.symbol.toList, isQuote c = false := by
  cases op <;> simp [Operator.symbol, isQuote]

/-- Names of arguments are written as they are read. -/
theorem WrittenName.alike {kind : BracketKind} {name : Option String} {ns : List Char}
    (h : WrittenName kind name ns) : Alike ns (renderName name) := by
  cases h with
  | none => exact alike_chars (by simp)
  | @name cs _ _ hword =>
    have hname : renderName (some (String.ofList cs)) = '[' :: (cs ++ [']']) := by
      simp [renderName]
    have hword : ∀ c ∈ cs, isQuote c = false := fun c hc =>
      isQuote_of_isWord (List.all_eq_true.mp hword c hc)
    rw [hname]
    exact .cons rfl ((alike_chars hword).append (alike_chars (by simp [isQuote])))

theorem IsLiteral.alike {d : Char} {fs : List Fragment} (h : IsLiteral d fs)
    (hd : d = '\'' ∨ d = '"') : Alike (d :: (Fragment.render fs ++ [d]))
      (d :: (Fragment.render fs ++ [d])) :=
  (consists_literal hd h).alike

/-- However an expression is written, its canonical text differs in nothing that means something. -/
theorem Written.alike {inside : Bool} {ph : Phrase} {cs tail : List Char}
    (h : Written inside ph cs tail) : Alike cs ph.canonical := by
  induction h with
  | path o hfeed hpath =>
    simp only [Phrase.canonical, render_pathExpr]
    exact Tokenizer.alike_render_of_path (.inl rfl) hfeed hpath
  | negative o' _ _ ih =>
    simp only [Phrase.canonical, render_negate]
    exact ih.cons rfl
  | not o n hws _ ih => exact .cons rfl ((alike_blanks hws Text.blanks_nil).append ih)
  | @string _ d fs ls _ es o o' hd hliteral _ ih =>
    have halike := (hliteral.alike hd).append ih
    rw [canonical_string]
    simpa [Phrase.canonical] using halike
  | call o o' n hfeed hcall _ _ _ ihargs ihlinks =>
    rw [canonical_call]
    exact (Tokenizer.alike_render_of_call (.inl rfl) hfeed hcall).append
      (.cons rfl (ihargs.append ihlinks))
  | group o o' hargs _ _ ihargs ihlinks =>
    rw [canonical_group o o' hargs]
    exact .cons rfl (ihargs.append ihlinks)
  | lambda o o' hfeed hpath _ _ hws hws' _ _ ih =>
    rw [canonical_lambda]
    exact (Tokenizer.alike_render_of_path (.inl rfl) hfeed hpath).append
      ((alike_blanks hws blanks_space).append
        (.cons rfl (.cons rfl ((alike_blanks hws' blanks_space).append ih))))
  | lambdaList o o' hargs _ hws hws' _ _ ihargs ih =>
    rw [canonical_lambdaList o o' _ hargs]
    exact .cons rfl (ihargs.append ((alike_blanks hws blanks_space).append
      (.cons rfl (.cons rfl ((alike_blanks hws' blanks_space).append ih)))))
  | noLinks => exact alike_chars (by simp)
  | link o n hfeed hcall _ _ ihargs ihlinks =>
    rw [canonical_link]
    exact .cons rfl ((Tokenizer.alike_render_of_call (.inr rfl) hfeed hcall).append
      (.cons rfl (ihargs.append ihlinks)))
  | lastLink o hfeed hpath =>
    rw [canonical_lastLink]
    exact .cons rfl (Tokenizer.alike_render_of_path (.inr rfl) hfeed hpath)
  | noArguments hws =>
    exact (alike_blanks hws Text.blanks_nil).append (alike_chars (by simp [isQuote]))
  | someArguments _ ih => exact ih
  | lastItem sp hws hname hws₁ hws₂ _ ih =>
    rw [canonical_lastItem]
    exact (alike_blanks hws Text.blanks_nil).append (hname.alike.append
      ((alike_blanks hws₁ Text.blanks_nil).append (ih.append
        ((alike_blanks hws₂ Text.blanks_nil).append (alike_chars (by simp [isQuote]))))))
  | item sp hws hname hws₁ hws₂ _ hrest ih ihrest =>
    rw [canonical_item hrest]
    -- The space after the comma is the only character that may be written down in excess.
    have hspaced := (alike_blanks Text.blanks_nil blanks_space).append ihrest
    exact (alike_blanks hws Text.blanks_nil).append (hname.alike.append
      ((alike_blanks hws₁ Text.blanks_nil).append (ih.append
        ((alike_blanks hws₂ Text.blanks_nil).append (.cons rfl hspaced)))))
  | operand _ ih => exact ih
  | @binary _ _ _ _ _ _ op _ _ o n hws hws' _ _ _ _ _ ihl ihr =>
    rw [Stencil.canonical_binary]
    exact ihl.append ((alike_blanks hws blanks_space).append
      ((alike_chars (isQuote_of_mem_symbol op)).append
        ((alike_blanks hws' blanks_space).append ihr)))

/-- A text that is read without problems and its canonical text are the same without blanks and dots
before object selectors, where string literals stay as they are. -/
theorem significant_canonical {text : String} {t : Expr} (h : parse text = ⟨some t, []⟩) :
    significant t.canonical.toList = significant text.toList ∧
      literals (marks t.canonical.toList) = literals (marks text.toList) := by
  obtain ⟨e, ws, cs, bl, htext, hws, hbl, hwritten, hbare⟩ := exists_text_of_parseAt h
  have halike : Alike (ws ++ (cs ++ bl)) ([] ++ (e.render ++ [])) :=
    (alike_blanks hws Text.blanks_nil).append
      (hwritten.alike.append (alike_blanks hbl Text.blanks_nil))
  have hcanonical : t.canonical.toList = [] ++ (e.render ++ []) := by
    rw [Expr.canonical, String.toList_ofList, Expr.render_of_bare hbare]
    simp
  have hsignificant : significant t.canonical.toList = significant text.toList := by
    rw [hcanonical, htext, halike.significant]
  refine ⟨hsignificant, ?_⟩
  rw [← literals_significant, hsignificant, literals_significant]

theorem significant_canonical_entries :
    ∃ t, parse " xs?.Map( x=>x.? ,[by] 'it\\'s . ?' )" = ⟨some t, []⟩ ∧
      t.canonical = "xs.?.Map(x => x.?, [by]'it\\'s . ?')" ∧
      significant t.canonical.toList =
        significant " xs?.Map( x=>x.? ,[by] 'it\\'s . ?' )".toList ∧
      literals (marks t.canonical.toList) =
        literals (marks " xs?.Map( x=>x.? ,[by] 'it\\'s . ?' )".toList) := by
  obtain ⟨t, hparse, hexpr⟩ := Parsed.exists_of_isValid
    (p := parse " xs?.Map( x=>x.? ,[by] 'it\\'s . ?' )") (by decide +kernel)
  have hcanonical : (parse " xs?.Map( x=>x.? ,[by] 'it\\'s . ?' )").expr.map Expr.canonical =
      some "xs.?.Map(x => x.?, [by]'it\\'s . ?')" := by decide +kernel
  rw [hexpr] at hcanonical
  exact ⟨t, hparse, Option.some.inj hcanonical, significant_canonical hparse⟩

end Stencil
