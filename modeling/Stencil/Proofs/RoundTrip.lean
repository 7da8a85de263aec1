import Stencil.Command
import Stencil.Proofs.CanonicalText
import Stencil.Proofs.Reading
import Stencil.Proofs.Soundness

/-!
# Canonical text and source text are read again

A text that is read without problems was written as an expression (`exists_written`), and what is
written as an expression is read without problems (`Written.parse`). Between the two, the canonical
text and the text of every node are known to be ways to write the same expression. Main statements:
`parse_canonical`, the canonical text is read as the same tree and is its own canonical text, and
`parse_sources`, the text of every node is read as that node.
-/

namespace Stencil

open Text (Blanks)

/-! ## Cutting off blanks -/

theorem trimEnd_append {cs bl : List Char} (hcs : EndsSolid cs) (hbl : Blanks bl) :
    Text.trimEnd (cs ++ bl) = cs := by
  obtain ⟨c, hlast, hc⟩ := hcs
  obtain ⟨more, rfl⟩ := List.getLast?_eq_some_iff.mp hlast
  have hreverse : Blanks bl.reverse := fun w hw => hbl w (List.mem_reverse.mp hw)
  unfold Text.trimEnd
  rw [List.reverse_append, List.reverse_append, List.reverse_singleton]
  change (Text.trimStart (bl.reverse ++ ([c] ++ more.reverse))).reverse = _
  rw [Text.trimStart_append hreverse, List.singleton_append, Text.trimStart_cons hc]
  simp

theorem Written.trim {e : Expr} {cs tail ws bl : List Char} (h : Written false (.tree e) cs tail)
    (hws : Blanks ws) (hbl : Blanks bl) : Text.trim (ws ++ (cs ++ bl)) = cs := by
  obtain ⟨⟨c, hhead, hc⟩, hsolid⟩ := h.solid
  obtain ⟨rest, rfl⟩ := List.head?_eq_some_iff.mp hhead
  unfold Text.trim
  rw [Text.trimStart_append hws, List.cons_append,
    Text.trimStart_cons (isBlank_of_opensOperand hc), ← List.cons_append, trimEnd_append hsolid hbl]

/-! ## Reading whole texts -/

namespace Parser

variable {place : Placement}

theorem sees_start (text : List Char) : Sees (start text) (.ofText text) [] :=
  ⟨rfl, rfl, rfl⟩

/-- A text that is read without problems is an expression between blanks. -/
theorem ensures_whole (fuel : Nat) (c : Cursor) : Ensures (whole place fuel) c [] fun r c' _ =>
    ∃ e ws cs bl, r = some e ∧ Whole place false c e ws cs bl c' := by
  obtain ⟨ws₀, hws₀, hskip⟩ := exists_moves_skipBlanks c
  unfold whole
  refine (steps_skipBlanks c []).ensures ((steps_current? _ _).ensures ?_)
  cases c.skipBlanks.rest.head? with
  | none => exact (steps_position _ _).ensures (ensures_report place (grows_pure _))
  | some ch =>
    refine ((reading_sound place fuel).expression _ _).bind (reading_grows place fuel).expression ?_
      fun _ => grows_get.bind fun _ => grows_pure _
    rintro r c' b' ⟨rfl, e, ws, cs, bl, rfl, h⟩
    refine ensures_get fun s hs => ?_
    rw [hs.going]
    obtain ⟨c₀, bl', c₁, hmoves, hlocated⟩ := h.located
    refine ensures_pure ⟨e, ws₀ ++ ws, cs, bl, rfl, ?_, hws₀.append h.before, h.after, h.written,
      h.ends, ⟨c₀, bl', c₁, hskip.trans hmoves, hlocated⟩, ?_⟩
    · rw [List.append_assoc]
      exact hskip.trans h.moves
    · rw [← hskip.input]
      exact h.nodes

/-- An expression is read without problems where nothing else comes before or after it. -/
theorem succeeds_whole {e : Expr} {cs : List Char} (h : Written false (.tree e) cs []) {fuel : Nat}
    (hfuel : 8 * cs.length + 5 ≤ fuel) {c : Cursor} (hrest : c.rest = cs) :
    Succeeds (whole place fuel) c [] fun r _ _ => ∃ e', r = some e' ∧ e'.bare = e.bare := by
  obtain ⟨⟨ch, hhead, hch⟩, -⟩ := h.solid
  obtain ⟨more, rfl⟩ := List.head?_eq_some_iff.mp hhead
  have hskip := @Cursor.skipBlanks_eq c [] _ Text.blanks_nil hrest
    (Text.trimStart_cons (isBlank_of_opensOperand hch) more)
  have hskip : c.skipBlanks = c := hskip
  unfold whole
  refine (steps_skipBlanks c []).succeeds ((steps_current? _ _).succeeds ?_)
  rw [hskip, hrest]
  have hrest' : c.rest = [] ++ (ch :: more ++ []) := by
    rw [hrest, List.append_nil, List.nil_append]
  refine (succeeds_expression (h.reads place) rfl Text.blanks_nil hrest' (.inl rfl)
    (by rw [hrest]; exact hfuel)).bind ?_
  rintro r c' b' ⟨rfl, ⟨e', rfl, hbare⟩, -⟩
  refine succeeds_get fun s hs => ?_
  rw [hs.going]
  exact succeeds_pure ⟨e', rfl, hbare⟩

theorem le_enoughFuel (n : Nat) : 8 * n + 5 ≤ enoughFuel n := by
  unfold enoughFuel
  omega

end Parser

open Stencil.Parser

/-- What was read without problems was written, and its nodes are as they were read up to the texts
and sites that were added. -/
theorem exists_written {text : List Char} {place : Placement} {t : Expr}
    (h : parseAt text place = ⟨some t, []⟩) :
    ∃ e ws cs bl c', t = ((e.withSources text place.offset).numberSites 0).1 ∧
      Whole place false (.ofText text) e ws cs bl c' := by
  unfold parseAt at h
  split at h
  · cases h
  · next r s hrun =>
    obtain ⟨hexpr, hclean⟩ := Parsed.mk.inj h
    have hdiagnostics : s.diagnostics.length ≤ (start text).diagnostics.length := by
      rw [hclean]
      exact Nat.zero_le _
    obtain ⟨c', b', -, e, ws, cs, bl, rfl, hwhole⟩ :=
      ensures_whole _ _ _ _ _ (sees_start text) hrun hdiagnostics
    exact ⟨e, ws, cs, bl, c', (Option.some.inj hexpr).symm, hwhole⟩

/-- A text that was read without problems is a way to write the tree between blanks. -/
theorem exists_text_of_parseAt {text : List Char} {place : Placement} {t : Expr}
    (h : parseAt text place = ⟨some t, []⟩) :
    ∃ e ws cs bl, text = ws ++ (cs ++ bl) ∧ Blanks ws ∧ Blanks bl ∧ Written false (.tree e) cs [] ∧
      t.bare = e.bare := by
  obtain ⟨e, ws, cs, bl, c', rfl, hwhole⟩ := exists_written h
  -- Outside brackets only the end of the text ends an expression.
  have hrest : c'.rest = [] := hwhole.ends.resolve_right fun h => Bool.false_ne_true h.1
  have htext : text = ws ++ (cs ++ bl) := by
    have hall := hwhole.moves.rest
    rwa [hrest, List.append_nil] at hall
  have hwritten := hwhole.written.follow (.inr (follows_nil false false _))
  refine ⟨e, ws, cs, bl, htext, hwhole.before, hwhole.after, hwritten, ?_⟩
  rw [Expr.bare_numberSites, Expr.withSources, Expr.bare_mapOrigin]

/-- What is written is read without problems. -/
theorem Written.parseAt {e : Expr} {cs : List Char} (h : Written false (.tree e) cs [])
    (place : Placement) : ∃ t, Stencil.parseAt cs place = ⟨some t, []⟩ ∧ t.bare = e.bare := by
  have hsucceeds := @succeeds_whole place _ _ h _ (le_enoughFuel cs.length) (.ofText cs) rfl
  obtain ⟨r, s, c', b', hrun, -, hclean, e', rfl, hbare⟩ := hsucceeds _ (sees_start cs)
  refine ⟨((e'.withSources cs place.offset).numberSites 0).1, ?_, ?_⟩
  · have hclean : s.diagnostics = [] := hclean
    simp only [Stencil.parseAt, StateT.run, hrun, hclean, Option.map_some]
  · rw [Expr.bare_numberSites, Expr.withSources, Expr.bare_mapOrigin, hbare]

theorem Written.parse {e : Expr} {cs : List Char} (h : Written false (.tree e) cs []) :
    ∃ t, Stencil.parse (String.ofList cs) = ⟨some t, []⟩ ∧ t.bare = e.bare := by
  unfold Stencil.parse
  rw [String.toList_ofList]
  exact h.parseAt _

theorem Parsed.exists_of_isValid {p : Parsed} (h : p.isValid = true) :
    ∃ t, p = ⟨some t, []⟩ ∧ p.expr = some t := by
  obtain ⟨expr, diagnostics⟩ := p
  simp only [Parsed.isValid, Bool.and_eq_true, List.isEmpty_iff] at h
  obtain ⟨hexpr, rfl⟩ := h
  obtain ⟨t, rfl⟩ := Option.isSome_iff_exists.mp hexpr
  exact ⟨t, rfl, rfl⟩

/-! ## Canonical text -/

theorem canonicalForm_of_parse {text : String} {t : Expr} (h : parse text = ⟨some t, []⟩) :
    canonicalForm text = .ok t.canonical := by
  simp only [canonicalForm, format, h]
  rfl

theorem exists_parse_canonical {text : String} {t : Expr} (h : parse text = ⟨some t, []⟩) :
    ∃ t', parse t.canonical = ⟨some t', []⟩ ∧ t'.bare = t.bare := by
  obtain ⟨e, ws, cs, bl, -, -, -, hwritten, hbare⟩ := exists_text_of_parseAt h
  have hcanonical : Written false (.tree e) e.render [] :=
    hwritten.canonical (.inr ⟨follows_nil _ _ _, by simp⟩)
  obtain ⟨t', hparse, ht'⟩ := hcanonical.parse
  refine ⟨t', ?_, ht'.trans hbare.symm⟩
  rw [← Expr.render_of_bare hbare] at hparse
  exact hparse

/-- The canonical text of what was read without problems is read without problems, as the same tree,
and is its own canonical text. -/
theorem parse_canonical {text : String} {t : Expr} (h : parse text = ⟨some t, []⟩) :
    (∃ t', parse t.canonical = ⟨some t', []⟩ ∧ t'.same t = true ∧ t'.canonical = t.canonical) ∧
      canonicalForm text = .ok t.canonical ∧ canonicalForm t.canonical = .ok t.canonical := by
  obtain ⟨t', hparse, hbare⟩ := exists_parse_canonical h
  have hsame : t'.canonical = t.canonical := congrArg String.ofList (Expr.render_of_bare hbare)
  refine ⟨⟨t', hparse, Expr.same_of_bare hbare, hsame⟩, canonicalForm_of_parse h, ?_⟩
  rw [canonicalForm_of_parse hparse, hsame]

theorem parse_canonical_lambda :
    ∃ t, parse "xs.F((a,b)=>!a<?-5 ,[n]'it\\'s').G" = ⟨some t, []⟩ ∧
      canonicalForm "xs.F((a, b) => !a <? -5, [n]'it\\'s').G" =
        .ok "xs.F((a, b) => !a <? -5, [n]'it\\'s').G" := by
  obtain ⟨t, hparse, hexpr⟩ := Parsed.exists_of_isValid
    (p := parse "xs.F((a,b)=>!a<?-5 ,[n]'it\\'s').G") (by decide +kernel)
  have hcanonical : t.canonical = "xs.F((a, b) => !a <? -5, [n]'it\\'s').G" := by
    have hall : (parse "xs.F((a,b)=>!a<?-5 ,[n]'it\\'s').G").expr.map Expr.canonical =
        some "xs.F((a, b) => !a <? -5, [n]'it\\'s').G" := by decide +kernel
    rw [hexpr] at hall
    exact Option.some.inj hall
  obtain ⟨-, -, hagain⟩ := parse_canonical hparse
  rw [hcanonical] at hagain
  exact ⟨t, hparse, hagain⟩

/-! ## Source text -/

/-- The text of a node is the piece of the text that its span covers, without the blanks at the
end. -/
theorem Located.sourceText {place : Placement} {c c' : Cursor} {e : Expr} {cs bl : List Char}
    (h : Located place c e cs bl c') (hne : cs ≠ []) :
    Stencil.sourceText c.input place.offset e.span =
      some (String.ofList (Text.trimEnd (cs ++ bl))) := by
  have hrest : c.input.drop c.position = (cs ++ bl) ++ c'.rest := by
    rw [← c.rest_eq, h.moves.rest]
  have hlength := congrArg List.length hrest
  have hpos := List.length_pos_iff.mpr hne
  have hposition := h.moves.position
  simp only [List.length_append, List.length_drop] at hlength hposition
  -- The span reaches over the blanks that were skipped, which the source leaves out.
  have hcovers : (c.input.take c'.position).drop c.position = cs ++ bl := by
    rw [List.drop_take, hrest, h.moves.position, Nat.add_sub_cancel_left, List.take_left]
  have hstart : e.span.start.offset = place.offset + c.position := by
    rw [h.span]
    rfl
  have hstop : e.span.stop.offset = place.offset + c'.position := by
    rw [h.span]
    rfl
  unfold Stencil.sourceText
  rw [hstart, hstop, Nat.add_sub_cancel_left, Nat.add_sub_cancel_left]
  dsimp only
  rw [hcovers, if_pos]
  simp only [Bool.and_eq_true, decide_eq_true_eq]
  omega

/-- Whether the node carries a text, which is read as the node if it is an expression of its own. -/
def ReadsBack (role : Role) (e : Expr) : Prop :=
  ∃ source, e.source = some source ∧
    (role = .free → ∃ t, parse source = ⟨some t, []⟩ ∧ t.same e = true)

/-- A node that covers a piece of the text has this text, and reads back. -/
theorem Stands.readsBack {place : Placement} {text : List Char} {role : Role} {e : Expr}
    (h : Stands place text role e) (n : Nat) :
    ReadsBack role ((e.withSources text place.offset).numberSites n).1 := by
  obtain ⟨c, cs, bl, c', rfl, hne, hlocated, hwritten⟩ := h
  refine ⟨String.ofList (Text.trimEnd (cs ++ bl)), ?_, ?_⟩
  · rw [Expr.source, Expr.origin_numberSites, Expr.withSources, Expr.origin_mapOrigin]
    exact hlocated.sourceText hne
  · intro hfree
    obtain ⟨t, hparse, hbare⟩ := (hwritten hfree).parse
    rw [trimEnd_append (hwritten hfree).solid.2 hlocated.blanks]
    refine ⟨t, hparse, Expr.same_of_bare ?_⟩
    rw [hbare, Expr.bare_numberSites, Expr.withSources, Expr.bare_mapOrigin]

/-- The text of the tree is the whole text without the blanks around it, and every node carries a
text, which is read as this node if it is an expression of its own. -/
theorem parse_sources {text : String} {t : Expr} (h : parse text = ⟨some t, []⟩) :
    t.written = String.ofList (Text.trim text.toList) ∧ t.everyNode ReadsBack .free := by
  obtain ⟨e, ws, cs, bl, c', rfl, hwhole⟩ := exists_written h
  obtain ⟨c₀, bl', c₁, hmoves, hlocated⟩ := hwhole.located
  have hrest : c'.rest = [] := hwhole.ends.resolve_right fun h => Bool.false_ne_true h.1
  have htext : text.toList = ws ++ (cs ++ bl) := by
    have hall := hwhole.moves.rest
    rwa [hrest, List.append_nil] at hall
  have hinput : c₀.input = text.toList := hmoves.input
  constructor
  · have hsource := hlocated.sourceText hwhole.written.ne_nil
    rw [trimEnd_append hwhole.written.solid.2 hlocated.blanks, hinput] at hsource
    rw [Expr.written, Expr.source, Expr.origin_numberSites, Expr.withSources, Expr.origin_mapOrigin,
      htext, hwhole.written.trim hwhole.before hwhole.after, ← htext]
    exact congrArg (Option.getD · _) hsource
  · -- Numbering the sites comes last, so the texts are claimed for every numbering before it.
    have hnumbered : (e.withSources text.toList 0).everyNode
        (fun role e => ∀ n, ReadsBack role (e.numberSites n).1) .free :=
      Expr.everyNode_mapOrigin (fun _ _ h => Stands.readsBack h) hwhole.nodes
    exact Expr.everyNode_numberSites (fun _ _ n h => h n) 0 hnumbered

theorem parse_sources_group :
    ∃ t, parse "  -2*( x+f( y ) ) " = ⟨some t, []⟩ ∧ t.written = "-2*( x+f( y ) )" ∧
      t.everyNode ReadsBack .free := by
  obtain ⟨t, hparse, -⟩ := Parsed.exists_of_isValid
    (p := parse "  -2*( x+f( y ) ) ") (by decide +kernel)
  obtain ⟨hwritten, hnodes⟩ := parse_sources hparse
  have htrim : Text.trim "  -2*( x+f( y ) ) ".toList = "-2*( x+f( y ) )".toList := by
    decide +kernel
  rw [htrim, String.ofList_toList] at hwritten
  exact ⟨t, hparse, hwritten, hnodes⟩

end Stencil
