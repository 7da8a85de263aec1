import Stencil.Proofs.OtherSites
import Stencil.Proofs.Segments

/-!
# Sites in a template

The tags of a template have their sites numbered from one tag to the next. So what is read of pieces
depends on how many sites come before them, but only in the numbers (`readPieces_moved`), and where
the pieces stand makes no difference to what they render to (`readPieces_shift`). Pieces side by
side are rendered one after the other (`renderSegments_joinPieces`).
-/

namespace Stencil

/-! ## Code has no positions -/

section Relocated

variable (f : Position → Position)

mutual

theorem Expr.plain_relocate : ∀ e : Expr, (e.relocate f).plain = e.plain
  | .path _ _ | .string _ _ _ | .number _ _ _ => rfl
  | .call _ _ _ _ args => by
    simp only [Expr.relocate, Expr.plain, Argument.plainAll_relocateAll args]
  | .list _ _ items => by simp only [Expr.relocate, Expr.plain, Expr.plainAll_relocateAll items]
  | .unary _ _ _ operand => by simp only [Expr.relocate, Expr.plain, Expr.plain_relocate operand]
  | .binary _ _ _ left right => by
    simp only [Expr.relocate, Expr.plain, Expr.plain_relocate left, Expr.plain_relocate right]
  | .lambda _ parameters body => by
    simp only [Expr.relocate, Expr.plain, Expr.plain_relocate parameters, Expr.plain_relocate body]

theorem Expr.plainAll_relocateAll : ∀ es : List Expr,
    Expr.plainAll (Expr.relocateAll f es) = Expr.plainAll es
  | [] => rfl
  | e :: rest => by
    simp only [Expr.relocateAll, Expr.plainAll, Expr.plain_relocate e,
      Expr.plainAll_relocateAll rest]

theorem Argument.plainAll_relocateAll : ∀ args : List Argument,
    Argument.plainAll (Argument.relocateAll f args) = Argument.plainAll args
  | [] => rfl
  | ⟨_, _, e⟩ :: rest => by
    simp only [Argument.relocateAll, Argument.plainAll, Expr.plain_relocate e,
      Argument.plainAll_relocateAll rest]

end

theorem Expr.code_relocate (e : Expr) : (e.relocate f).code = e.code := by
  rw [← Expr.code_plain, Expr.plain_relocate, Expr.code_plain]

end Relocated

namespace Template

/-! ## Numbers of sites -/

/-- The first number that is left when the tags have sites from `next` on. -/
def sitesAfter (next : Nat) : List Segment → Nat
  | [] => next
  | .text _ :: rest => sitesAfter next rest
  | .tag s :: rest => sitesAfter (s.numberSites next).2 rest

/-- How many sites a template has. -/
def sites (t : Template) : Nat :=
  sitesAfter 0 t.segments

end Template

namespace Snippet

/-- Of a snippet with a tree there is code if nothing is wrong with it. -/
theorem code?_some (source : String) (e : Expr) (diagnostics : List Diagnostic) :
    code? ⟨source, ⟨some e, diagnostics⟩⟩ = if diagnostics.isEmpty then some e.code else none :=
  rfl

theorem numberSites_some (source : String) (e : Expr) (diagnostics : List Diagnostic)
    (next : Nat) : numberSites next ⟨source, ⟨some e, diagnostics⟩⟩ =
      (⟨source, ⟨some (e.numberSites next).1, diagnostics⟩⟩, (e.numberSites next).2) :=
  rfl

/-- The code of a snippet with sites from `a` on, and of the same with sites from `b` on. -/
theorem numberSites_moved (s : Snippet) (a b : Nat) :
    InStep a (s.numberSites a).2 b (s.numberSites b).2 fun rel =>
      Option.Rel (Code.Moved rel) (s.numberSites a).1.code? (s.numberSites b).1.code? := by
  obtain ⟨source, e, diagnostics⟩ := s
  cases e with
  | none => exact .none fun _ => .none
  | some e =>
    refine (e.numberSites_moved a b).imp fun rel h => ?_
    have hcode := (h .scope).folded e.literal?
    simp only [numberSites_some, code?_some, Expr.code, Expr.literal?_numberSites]
    cases diagnostics.isEmpty with
    | true => exact .some hcode
    | false => exact .none

theorem numberSites_numberSites (s : Snippet) (next : Nat) :
    ((s.numberSites next).1.numberSites next).2 = (s.numberSites next).2 := by
  obtain ⟨source, e, diagnostics⟩ := s
  cases e with
  | none => rfl
  | some e => simp only [numberSites_some, Expr.numberSites_numberSites]

/-- What is read of a tag, before its sites are numbered. -/
def ofTag (lines : LineTable) (offset : Nat) (body : List Char) : Snippet :=
  ⟨String.ofList body, parseAt body ⟨lines, offset⟩⟩

/-- What is evaluated of a tag does not depend on where it is. -/
theorem numberSites_ofTag (template : List Char) (offset : Nat) (body : List Char) (next : Nat) :
    let s := numberSites next (ofTag (.ofText template) offset body)
    let s' := numberSites next (ofText (String.ofList body))
    s.1.code? = s'.1.code? ∧ s.2 = s'.2 := by
  rw [ofTag, ofText, Template.parseAt_body]
  generalize Stencil.parse (String.ofList body) = parsed
  obtain ⟨e, diagnostics⟩ := parsed
  cases e with
  | none => exact ⟨rfl, rfl⟩
  | some e =>
    simp only [Parsed.relocate, Option.map_some, numberSites_some, code?_some,
      Expr.numberSites_relocate, Expr.code_relocate, List.isEmpty_map, and_self]

/-- Snippets with the same code are evaluated in the same way. -/
theorem evaluate_congr {s s' : Snippet} (h : s.code? = s'.code?) (scope : Scope) (c : Context) :
    s.evaluate scope c = s'.evaluate scope c := by
  rw [evaluate, evaluate, h]

end Snippet

theorem Piece.shift_zero (p : Piece) : p.shift 0 = p := by
  cases p with
  | text cs => rfl
  | tag offset body => rw [Piece.shift, Nat.zero_add]

namespace Template

/-! ## Segments -/

section Segments

variable (lines : LineTable) (next : Nat) (ps : List Piece)

theorem readPieces_cons_tag (offset : Nat) (body : List Char) :
    readPieces lines next (.tag offset body :: ps) =
      .tag (Snippet.numberSites next (.ofTag lines offset body)).1 ::
        readPieces lines (Snippet.numberSites next (.ofTag lines offset body)).2 ps :=
  rfl

theorem sitesAfter_cons_tag (offset : Nat) (body : List Char) :
    sitesAfter next (readPieces lines next (.tag offset body :: ps)) =
      sitesAfter (Snippet.numberSites next (.ofTag lines offset body)).2
        (readPieces lines (Snippet.numberSites next (.ofTag lines offset body)).2 ps) := by
  rw [readPieces_cons_tag, sitesAfter, Snippet.numberSites_numberSites]

variable (scope : Scope) (root : Context)

theorem renderSegments_text (s : String) (rest : List Segment) :
    renderSegments scope root (.text s :: rest) = do
      return s ++ (← renderSegments scope root rest) :=
  rfl

theorem renderSegments_tag (s : Snippet) (rest : List Segment) :
    renderSegments scope root (.tag s :: rest) = do
      let result ← s.evaluate scope root
      return result.value.rendered scope.options.nullText ++
        (← renderSegments scope root rest) :=
  rfl

end Segments

/-- Segments whose sites are numbered from one number on, and from another one. -/
theorem readPieces_moved (lines : LineTable) (ps : List Piece) (a b : Nat) :
    InStep a (sitesAfter a (readPieces lines a ps)) b (sitesAfter b (readPieces lines b ps))
      fun rel => List.Forall₂ (Segment.Moved rel) (readPieces lines a ps)
        (readPieces lines b ps) := by
  induction ps generalizing a b with
  | nil => exact .none fun _ => .nil
  | cons p ps ih =>
    cases p with
    | text cs => exact (ih a b).imp fun _ h => .cons (.text _) h
    | tag offset body =>
      rw [sitesAfter_cons_tag, sitesAfter_cons_tag]
      exact ((Snippet.numberSites_moved _ a b).and (ih _ _)).imp fun _ h => .cons (.tag h.1) h.2

/-- Pieces that stand elsewhere have as many sites, and render to the same. -/
theorem readPieces_shift (template template' : List Char) (k next : Nat) (ps : List Piece) :
    sitesAfter next (readPieces (.ofText template) next (ps.map (Piece.shift k))) =
        sitesAfter next (readPieces (.ofText template') next ps) ∧
      ∀ scope root,
        renderSegments scope root (readPieces (.ofText template) next (ps.map (Piece.shift k))) =
          renderSegments scope root (readPieces (.ofText template') next ps) := by
  induction ps generalizing next with
  | nil => exact ⟨rfl, fun _ _ => rfl⟩
  | cons p ps ih =>
    cases p with
    | text cs =>
      refine ⟨(ih next).1, fun scope root => ?_⟩
      show renderSegments scope root (.text _ :: readPieces _ _ _) =
        renderSegments scope root (.text _ :: readPieces _ _ _)
      rw [renderSegments_text, (ih next).2, renderSegments_text]
    | tag offset body =>
      obtain ⟨hcode, hnext⟩ := Snippet.numberSites_ofTag template (k + offset) body next
      obtain ⟨hcode', hnext'⟩ := Snippet.numberSites_ofTag template' offset body next
      rw [← hnext'] at hnext
      rw [← hcode'] at hcode
      obtain ⟨hsites, hrender⟩ :=
        ih (Snippet.numberSites next (.ofTag (.ofText template') offset body)).2
      rw [List.map_cons, Piece.shift, sitesAfter_cons_tag, sitesAfter_cons_tag, hnext]
      refine ⟨hsites, fun scope root => ?_⟩
      rw [readPieces_cons_tag, readPieces_cons_tag, renderSegments_tag, renderSegments_tag, hnext,
        hrender, Snippet.evaluate_congr hcode]

/-- Pieces and others after them are rendered one after the other. -/
theorem renderSegments_joinPieces (lines : LineTable) (ps qs : List Piece) (next : Nat) :
    let after := sitesAfter next (readPieces lines next ps)
    sitesAfter next (readPieces lines next (joinPieces ps qs)) =
        sitesAfter after (readPieces lines after qs) ∧
      ∀ scope root, renderSegments scope root (readPieces lines next (joinPieces ps qs)) = do
        let a ← renderSegments scope root (readPieces lines next ps)
        let b ← renderSegments scope root (readPieces lines after qs)
        return a ++ b := by
  fun_induction joinPieces ps qs generalizing next with
  | case1 qs =>
    refine ⟨rfl, fun scope root => ?_⟩
    show _ = (do
      let a ← pure ""
      let b ← renderSegments scope root (readPieces lines next qs)
      return a ++ b)
    simp only [pure_bind, String.empty_append, bind_pure]
  | case2 cs ds qs =>
    refine ⟨rfl, fun scope root => ?_⟩
    show renderSegments scope root (.text _ :: _) = (do
      let a ← renderSegments scope root (.text _ :: [])
      let b ← renderSegments scope root (.text _ :: readPieces lines next qs)
      return a ++ b)
    simp only [renderSegments, pure_bind, bind_assoc, String.append_empty, String.ofList_append,
      String.append_assoc]
  | case3 p ps qs _ ih =>
    cases p with
    | text cs =>
      refine ⟨(ih next).1, fun scope root => ?_⟩
      show renderSegments scope root (.text _ :: readPieces _ _ _) = (do
        let a ← renderSegments scope root (.text _ :: readPieces _ _ _)
        let b ← renderSegments scope root _
        return a ++ b)
      simp only [renderSegments_text, (ih next).2, bind_assoc, pure_bind, String.append_assoc]
      rfl
    | tag offset body =>
      rw [sitesAfter_cons_tag, sitesAfter_cons_tag]
      obtain ⟨hsites, hrender⟩ := ih (Snippet.numberSites next (.ofTag lines offset body)).2
      refine ⟨hsites, fun scope root => ?_⟩
      rw [readPieces_cons_tag, readPieces_cons_tag, renderSegments_tag, renderSegments_tag, hrender]
      simp only [bind_assoc, pure_bind, String.append_assoc]

end Template

end Stencil
