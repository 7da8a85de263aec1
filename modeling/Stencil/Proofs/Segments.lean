import Stencil.Proofs.PlainTrees
import Stencil.Proofs.Relocation
import Stencil.Proofs.Splitting
import Stencil.Template

/-!
# What is read of a template

The problems of a template are those of its tags, each read alone and moved to where the tag is, and
then the braces that nothing closes (`diagnostics_parse`). A tag without problems is read as it
would be alone (`readPieces_tag`).
-/

namespace Stencil

/-- A tree that was read has its sites numbered from zero. -/
theorem numberSites_of_parseAt {text : List Char} {place : Placement} {t : Expr}
    {diagnostics : List Diagnostic} (h : parseAt text place = ⟨some t, diagnostics⟩) :
    (t.numberSites 0).1 = t := by
  unfold parseAt at h
  split at h
  · cases h
  · next r s _ =>
    obtain ⟨hexpr, -⟩ := Parsed.mk.inj h
    obtain ⟨e, -, rfl⟩ := Option.map_eq_some_iff.mp hexpr
    exact congrArg Prod.fst (Expr.numberSites_numberSites _ 0)

namespace Template

/-- The problems of a piece of a template. -/
def pieceDiagnostics (template : List Char) : Piece → List Diagnostic
  | .text _ => []
  | .tag offset body =>
    (Stencil.parse (String.ofList body)).diagnostics.map
      (Diagnostic.relocate (Position.within template offset))

/-- What is wrong with opening braces that nothing closes. -/
def unclosedDiagnostics (template : List Char) (unclosed : Option Nat) : List Diagnostic :=
  unclosed.toList.map fun offset =>
    ⟨⟨Text.positionAt template offset, Text.positionAt template (offset + 2)⟩,
      .unmatchedBracket '\x7b'⟩

theorem parseAt_body (template body : List Char) (offset : Nat) :
    parseAt body ⟨.ofText template, offset⟩ =
      (Stencil.parse (String.ofList body)).relocate (Position.within template offset) := by
  have hbody := (parseAt_within template offset (String.ofList body)).1
  rwa [String.toList_ofList] at hbody

theorem diagnostics_numberSites (next : Nat) (s : Snippet) :
    (s.numberSites next).1.parsed.diagnostics = s.parsed.diagnostics := by
  unfold Snippet.numberSites
  split <;> rfl

theorem tagDiagnostics_readPieces (template : List Char) (next : Nat) (ps : List Piece) :
    tagDiagnostics (readPieces (.ofText template) next ps) =
      ps.flatMap (pieceDiagnostics template) := by
  induction ps generalizing next with
  | nil => rfl
  | cons p ps ih =>
    cases p with
    | text cs => exact ih next
    | tag offset body =>
      show (Snippet.numberSites next _).1.parsed.diagnostics ++ tagDiagnostics _ = _
      rw [diagnostics_numberSites, ih, parseAt_body, List.flatMap_cons]
      rfl

/-- The problems of a template, tag by tag. -/
theorem diagnostics_parse (text : String) :
    (Template.parse text).diagnostics =
      (split text.toList).pieces.flatMap (pieceDiagnostics text.toList) ++
        unclosedDiagnostics text.toList (split text.toList).unclosed := by
  have hunclosed : (split text.toList).unclosed.toList.map (fun offset =>
        Diagnostic.mk ((LineTable.ofText text.toList).span offset (offset + 2))
          (.unmatchedBracket '\x7b')) =
      unclosedDiagnostics text.toList (split text.toList).unclosed := by
    unfold unclosedDiagnostics LineTable.span
    simp only [LineTable.locate_ofText]
  show tagDiagnostics (readPieces (.ofText text.toList) 0 (split text.toList).pieces) ++ _ = _
  rw [tagDiagnostics_readPieces, hunclosed]

theorem readPieces_text (lines : LineTable) (next : Nat) (text : String) (ps : List Piece) :
    readPieces lines next (textPieces text.toList ++ ps) =
      (if text = "" then [] else [.text text]) ++ readPieces lines next ps := by
  unfold textPieces
  by_cases htext : text = ""
  · rw [if_pos htext, if_pos (by rw [htext]; rfl)]
    rfl
  · rw [if_neg htext, if_neg (by simpa using htext)]
    show Segment.text (String.ofList text.toList) :: readPieces lines next ps = _
    rw [String.ofList_toList]
    rfl

theorem pieceDiagnostics_text (template cs : List Char) (ps : List Piece) :
    (textPieces cs ++ ps).flatMap (pieceDiagnostics template) =
      ps.flatMap (pieceDiagnostics template) := by
  unfold textPieces
  split <;> rfl

/-- The first tag of a template, if nothing is wrong with it, is read as it would be alone. -/
theorem readPieces_tag {e : String} {t : Expr} (h : Stencil.parse e = ⟨some t, []⟩)
    (template : List Char) (offset : Nat) (ps : List Piece) :
    ∃ next, readPieces (.ofText template) 0 (.tag offset e.toList :: ps) =
      .tag ⟨e, ⟨some (t.relocate (Position.within template offset)), []⟩⟩ ::
        readPieces (.ofText template) next ps := by
  have hread : parseAt e.toList ⟨.ofText template, offset⟩ =
      ⟨some (t.relocate (Position.within template offset)), []⟩ := by
    rw [parseAt_body, String.ofList_toList, h]
    rfl
  have hsites := numberSites_of_parseAt hread
  refine ⟨((t.relocate (Position.within template offset)).numberSites 0).2, ?_⟩
  show Segment.tag (Snippet.numberSites 0 ⟨String.ofList e.toList, parseAt e.toList _⟩).1 ::
    readPieces _ (Snippet.numberSites 0 ⟨String.ofList e.toList, parseAt e.toList _⟩).2 ps = _
  rw [hread, String.ofList_toList]
  show Segment.tag ⟨e, ⟨some (Expr.numberSites 0 _).1, []⟩⟩ :: _ = _
  rw [hsites]
  rfl

/-- Nothing is found to be wrong before a tag or open braces begin. -/
theorem le_of_mem_diagnostics {template : List Char} {low high : Nat} {s : Split}
    (h : s.Within low high) {d : Diagnostic}
    (hd : d ∈ s.pieces.flatMap (pieceDiagnostics template) ++
      unclosedDiagnostics template s.unclosed) : low ≤ d.span.start.offset := by
  rcases List.mem_append.mp hd with hd | hd
  · obtain ⟨p, hp, hd⟩ := List.mem_flatMap.mp hd
    cases p with
    | text cs => cases hd
    | tag offset body =>
      obtain ⟨d', -, rfl⟩ := List.mem_map.mp hd
      have hlow := (h.tags offset body hp).1
      show low ≤ offset + d'.span.start.offset
      omega
  · obtain ⟨offset, hoffset, rfl⟩ := List.mem_map.mp hd
    exact (h.unclosed offset (Option.mem_toList.mp hoffset)).1

end Template

end Stencil
