import Stencil.Proofs.BuiltinsRespect
import Stencil.Proofs.GivingUp
import Stencil.Proofs.ProblemSpans
import Stencil.Proofs.TagSites

/-!
# Templates side by side

Two templates that are put side by side are read and rendered as each of them is by itself, if
nothing is open at the seam: the first one has no tag without an end, and no opening braces are made
of the last character of the one and the first of the other.

What is read is the same, in other places and with other sites. The problems of the first template
stay where they are, as they lie within its text; those of the second one are moved. When the whole
is rendered, the first template does what it does by itself, and then the second one does, at sites
that come after those of the first. These the first one has not touched (`render_frame`), and that
they are other sites does not show, nor what happened before and which numbers the lambdas that were
made have used up (`render_rest`).

Main statement: `templates_compose`.
-/

namespace Stencil

/-! ## Positions -/

/-- A place is where it is whatever comes after it. -/
theorem Text.positionAt_append {text : List Char} {offset : Nat} (h : offset ≤ text.length)
    (more : List Char) : positionAt (text ++ more) offset = positionAt text offset := by
  unfold positionAt
  rw [List.take_append_of_le_length h]

theorem Placement.Covers.bounds {text : List Char} {n : Nat} {span : Span}
    (h : (Placement.within text 0).Covers n span) :
    span.start.offset ≤ n ∧ span.stop.offset ≤ n := by
  obtain ⟨start, stop, hle, hstop, rfl⟩ := h
  simp only [Placement.span, Placement.within, LineTable.span, LineTable.locate_ofText,
    Text.positionAt_offset, Nat.zero_add]
  omega

namespace Template

/-! ## Problems -/

/-- What comes after a tag does not move its problems. -/
theorem pieceDiagnostics_append {template : List Char} {p : Piece}
    (hp : ∀ offset body, p = .tag offset body → offset + body.length ≤ template.length)
    (more : List Char) : pieceDiagnostics (template ++ more) p = pieceDiagnostics template p := by
  cases p with
  | text cs => rfl
  | tag offset body =>
    have htag := hp offset body rfl
    refine List.map_congr_left fun d hd => ?_
    obtain ⟨hstart, hstop⟩ := (covers_of_mem_parseAt hd).bounds
    rw [String.toList_ofList] at hstart hstop
    unfold Diagnostic.relocate Span.map Position.within
    rw [Text.positionAt_append (by omega), Text.positionAt_append (by omega)]

theorem relocate_relocate (template rest : List Char) (k offset : Nat) (d : Diagnostic) :
    (d.relocate (Position.within rest offset)).relocate (Position.within template k) =
      d.relocate (Position.within template (k + offset)) := by
  simp only [Diagnostic.relocate, Span.map, Position.within, Text.positionAt_offset, Nat.add_assoc]

/-- The problems of a tag further on. -/
theorem pieceDiagnostics_shift (template rest : List Char) (k : Nat) (p : Piece) :
    pieceDiagnostics template (p.shift k) =
      (pieceDiagnostics rest p).map (Diagnostic.relocate (Position.within template k)) := by
  cases p with
  | text cs => rfl
  | tag offset body =>
    unfold Piece.shift pieceDiagnostics
    rw [List.map_map]
    exact List.map_congr_left fun d _ => (relocate_relocate template rest k offset d).symm

theorem unclosedDiagnostics_add (template rest : List Char) (k : Nat) (unclosed : Option Nat) :
    unclosedDiagnostics template (unclosed.map (k + ·)) =
      (unclosedDiagnostics rest unclosed).map
        (Diagnostic.relocate (Position.within template k)) := by
  cases unclosed with
  | none => rfl
  | some offset =>
    simp only [unclosedDiagnostics, Option.map_some, Option.toList_some, List.map_cons,
      List.map_nil, Diagnostic.relocate, Span.map, Position.within, Text.positionAt_offset,
      Nat.add_assoc]

theorem pieceDiagnostics_joinPieces (template : List Char) (ps qs : List Piece) :
    (joinPieces ps qs).flatMap (pieceDiagnostics template) =
      ps.flatMap (pieceDiagnostics template) ++ qs.flatMap (pieceDiagnostics template) := by
  fun_induction joinPieces ps qs with
  | case1 qs => rfl
  | case2 cs ds qs => rfl
  | case3 p ps qs _ ih => rw [List.flatMap_cons, ih, List.flatMap_cons, List.append_assoc]

/-- The problems of both templates, those of the second one where it is now. -/
theorem diagnostics_append {first : String} (second : String)
    (hclosed : (split first.toList).unclosed = none)
    (hseam : first.toList.getLast? = some '\x7b' → second.toList.head? ≠ some '\x7b') :
    (Template.parse (first ++ second)).diagnostics = (Template.parse first).diagnostics ++
      (Template.parse second).diagnostics.map
        (Diagnostic.relocate (Position.within (first ++ second).toList first.length)) := by
  have hlength : first.toList.length = first.length := String.length_toList
  have hfirst : (split first.toList).pieces.flatMap
      (pieceDiagnostics (first.toList ++ second.toList)) =
        (split first.toList).pieces.flatMap (pieceDiagnostics first.toList) := by
    refine List.flatMap_congr fun p hp => pieceDiagnostics_append (fun offset body htag => ?_) _
    have hwithin := ((splitFrom_within 0 first.toList).tags offset body (htag ▸ hp)).2
    omega
  have hmoved (ps : List Piece) : (ps.map (Piece.shift first.length)).flatMap
      (pieceDiagnostics (first.toList ++ second.toList)) =
        (ps.flatMap (pieceDiagnostics second.toList)).map (Diagnostic.relocate
          (Position.within (first.toList ++ second.toList) first.length)) := by
    rw [List.flatMap_map, List.map_flatMap]
    exact List.flatMap_congr fun p _ => pieceDiagnostics_shift _ _ _ p
  rw [diagnostics_parse, diagnostics_parse, diagnostics_parse, hclosed, String.toList_append,
    split_append second.toList hclosed hseam, pieceDiagnostics_joinPieces, hfirst, hlength, hmoved,
    List.map_append, unclosedDiagnostics_add _ second.toList]
  simp only [unclosedDiagnostics, Option.toList_none, List.map_nil, List.append_nil,
    List.append_assoc]

/-! ## Rendering -/

/-- Both templates are rendered one after the other, with the sites of the second one after those of
the first. -/
theorem render_append {first : String} (second : String)
    (hclosed : (split first.toList).unclosed = none)
    (hseam : first.toList.getLast? = some '\x7b' → second.toList.head? ≠ some '\x7b') :
    let k := (Template.parse first).sites
    let rest := readPieces (.ofText second.toList) k (split second.toList).pieces
    (Template.parse (first ++ second)).sites = sitesAfter k rest ∧
      ∀ scope data, (Template.parse (first ++ second)).render scope data = do
        let a ← (Template.parse first).render scope data
        let b ← renderSegments scope (.ofValue data) rest
        return a ++ b := by
  intro k rest
  have hpieces : (split (first ++ second).toList).pieces =
      joinPieces (split first.toList).pieces
        ((split second.toList).pieces.map (Piece.shift first.toList.length)) := by
    rw [String.toList_append, split_append second.toList hclosed hseam]
  obtain ⟨hsites, hrender⟩ := renderSegments_joinPieces (.ofText (first ++ second).toList)
    (split first.toList).pieces
    ((split second.toList).pieces.map (Piece.shift first.toList.length)) 0
  -- Where the tags of either template are makes no difference.
  have hfirst := readPieces_shift (first ++ second).toList first.toList 0 0
    (split first.toList).pieces
  rw [List.map_congr_left (fun p _ => Piece.shift_zero p), List.map_id'] at hfirst
  rw [hfirst.1] at hsites hrender
  have hrest := readPieces_shift (first ++ second).toList second.toList first.toList.length k
    (split second.toList).pieces
  refine ⟨?_, fun scope data => ?_⟩
  · show sitesAfter 0 (readPieces _ 0 (split (first ++ second).toList).pieces) = _
    rw [hpieces]
    exact hsites.trans hrest.1
  · show renderSegments scope _ (readPieces _ 0 (split (first ++ second).toList).pieces) = _
    rw [hpieces, hrender, hfirst.2]
    exact congrArg _ (funext fun a => congrArg (· >>= _) (hrest.2 scope (.ofValue data)))

end Template

/-! ## Sites of two templates -/

namespace SiteMap

/-- The first `k` sites and those that are fixed stay where they are, and all lambdas keep their
numbers. -/
def first (fixed : Nat → Prop) (k : Nat) : SiteMap where
  rel i j := i = j ∧ (i < k ∨ fixed i)
  unique h h' := Eq.congr h.1 h'.1
  ids i j := i = j
  ids_unique := Eq.congr

/-- The sites of a template that comes after `k` sites of another, where both together have `n`;
those that are fixed stay where they are. Lambdas get numbers from `a` on when the template is
rendered by itself, and from `b` on when it is after the other one; those that are known keep
theirs. -/
def second {fixed : Nat → Prop} (k : Nat) {n : Nat} (hfixed : ∀ i, fixed i → n ≤ i)
    {known a b : Nat} (ha : known ≤ a) (hb : known ≤ b) : SiteMap where
  rel i j := (k + i < n ∧ j = k + i) ∨ (fixed i ∧ j = i)
  unique := by
    intro i j i' j' hij hij'
    -- A site of the template is none of the fixed ones, for those lie beyond both templates.
    rcases hij with ⟨hi, rfl⟩ | ⟨hi, rfl⟩
    · rcases hij' with ⟨hi', rfl⟩ | ⟨hi', rfl⟩
      · omega
      · have hbeyond := hfixed j' hi'
        omega
    · have hbeyond := hfixed j hi
      rcases hij' with ⟨hi', rfl⟩ | ⟨hi', rfl⟩
      · omega
      · exact Iff.rfl
  ids i j := (i < known ∧ j = i) ∨ (a ≤ i ∧ i - a + b = j)
  ids_unique := by
    rintro i j i' j' (⟨hi, rfl⟩ | ⟨hi, rfl⟩) (⟨hi', rfl⟩ | ⟨hi', rfl⟩) <;> omega

theorem first_fixes (fixed : Nat → Prop) (known k : Nat) : (first fixed k).Fixes fixed known :=
  ⟨fun _ hi => ⟨rfl, .inr hi⟩, fun _ _ => rfl⟩

theorem second_fixes {fixed : Nat → Prop} (k : Nat) {n : Nat} (hfixed : ∀ i, fixed i → n ≤ i)
    {known a b : Nat} (ha : known ≤ a) (hb : known ≤ b) :
    (second k hfixed ha hb).Fixes fixed known :=
  ⟨fun _ hi => .inr ⟨hi, rfl⟩, fun _ hi => .inl ⟨hi, rfl⟩⟩

end SiteMap

/-- What an evaluation begins with, if nothing of it tells where sites are, but for fixed ones, nor
the numbers of lambdas, but for those below `known`: the scope with its formatters and variables,
the data, and what sites remember. -/
structure Indifferent (fixed : Nat → Prop) (known : Nat) (scope : Scope) (data : Value)
    (ms : Memories) : Prop where
  scope : ∀ m : SiteMap, m.Fixes fixed known → m.likeness.AlikeScope scope scope
  data : ∀ m : SiteMap, m.Fixes fixed known → m.likeness.Alike data data
  memories : ∀ site, ∀ made ∈ ms.at site, made.Indifferent fixed known

/-- What a template remembers that is rendered after another one with `k` sites, where both together
have `n`: at its own sites what both together remember there, and at fixed ones what was left. -/
structure Memories.Continues (fixed : Nat → Prop) (k n : Nat) (ms both left : Memories) :
    Prop where
  own : ∀ i, k + i < n → ms.at i = both.at (k + i)
  fixed : ∀ i, fixed i → ms.at i = left.at i

/-- With the formatters that are always there, nothing tells sites and numbers but lambdas in the
data. -/
theorem Indifferent.ofConfig {fixed : Nat → Prop} {known : Nat} (config : Config) {data : Value}
    (hdata : ∀ L : Likeness, L.Alike data data) :
    Indifferent fixed known (.ofOptions (.ofConfig config)) data [] where
  scope _ _ := ⟨rfl, Options.ofConfig_respects config, .nil, .nil, rfl⟩
  data m _ := hdata m.likeness
  memories := by
    rintro _ _ ⟨⟩

theorem alikeContext_ofValue {L : Likeness} {v w : Value} (h : L.Alike v w) :
    L.AlikeContext (.ofValue v) (.ofValue w) :=
  L.alikeContext_iff.mpr ⟨h, rfl, rfl, .none⟩

namespace Template

variable {fixed : Nat → Prop} {known : Nat} {scope : Scope} {data : Value} {s : RunState}

/-- Rendering a template changes only what its own sites remember, and fixed ones. Numbers that are
known are not given again. -/
theorem render_frame (text : String) (h : Indifferent fixed known scope data s.memories)
    (hknown : known ≤ s.nextLambda) :
    let k := (Template.parse text).sites
    let left := (((Template.parse text).render scope data).outcome s).2
    (SiteMap.first fixed k).AlikeMemories fixed known s.memories left.memories left.memories ∧
      known ≤ left.nextLambda := by
  intro k left
  have hfixes := SiteMap.first_fixes fixed known k
  obtain ⟨n, hn, -, hmoved⟩ := readPieces_moved (.ofText text.toList) (split text.toList).pieces 0 0
  have hk : k = 0 + n := hn
  have hsegments := hmoved (SiteMap.first fixed k).rel fun i hi => ⟨rfl, .inl (by omega)⟩
  -- The template is compared with itself, where nothing but its own sites and the fixed ones has a
  -- partner.
  have hstart : (SiteMap.first fixed k).AlikeState fixed known s.memories s s := by
    refine ⟨⟨?_, fun j made hmade _ _ => h.memories j made hmade, fun _ _ => rfl⟩, rfl,
      fun _ => rfl, hknown⟩
    rintro i _ ⟨rfl, -⟩
    rfl
  have hrelates := SiteMap.renderSegments_moved (h.scope _ hfixes)
    (fun m hm => (h.scope m hm).respects) hfixes hsegments
    (alikeContext_ofValue (h.data _ hfixes)) s s hstart
  exact ⟨hrelates.2.memories, hrelates.2.known⟩

/-- After another template a template renders to what it renders to by itself, whatever happened
before, and whichever numbers lambdas get. -/
theorem render_rest (first second : String) {n : Nat} (hfixed : ∀ i, fixed i → n ≤ i)
    (h : Indifferent fixed known scope data s.memories) (hknown : known ≤ s.nextLambda) :
    let k := (Template.parse first).sites
    let rest := readPieces (.ofText second.toList) k (split second.toList).pieces
    let left := (((Template.parse first).render scope data).outcome s).2
    n = sitesAfter k rest → ∀ own : RunState,
      own.memories.Continues fixed k n s.memories left.memories → own.cancelled = left.cancelled →
        known ≤ own.nextLambda →
          ResultAgree (· = ·) (((Template.parse second).render scope data).outcome own).1
            ((renderSegments scope (.ofValue data) rest).outcome left).1 := by
  intro k rest left hn own hms hcancelled hown
  obtain ⟨hframe, hleft⟩ := render_frame first h hknown
  have hfixes := SiteMap.second_fixes k hfixed hown hleft
  obtain ⟨count, -, hcount, hmoved⟩ :=
    readPieces_moved (.ofText second.toList) (split second.toList).pieces 0 k
  rw [← hn] at hcount
  have hsegments := hmoved (SiteMap.second k hfixed hown hleft).rel
    fun i hi => .inl ⟨by omega, by omega⟩
  -- The first template has left the sites of the second one as they were.
  have huntouched : ∀ i, k + i < n → left.memories.at (k + i) = s.memories.at (k + i) := by
    intro i hi
    refine hframe.others (k + i) ?_
    rintro _ ⟨rfl, hbefore | hbeyond⟩
    · omega
    · have hle := hfixed _ hbeyond
      omega
  have hstart : (SiteMap.second k hfixed hown hleft).AlikeState fixed known left.memories own
      left := by
    refine ⟨⟨?_, ?_, fun _ _ => rfl⟩, hcancelled, fun d => .inr ⟨Nat.le_add_right _ d, ?_⟩, hleft⟩
    · rintro i j (⟨hi, rfl⟩ | ⟨hi, rfl⟩)
      · exact (hms.own i hi).trans (huntouched i hi).symm
      · exact hms.fixed _ hi
    · rintro j made hmade i (⟨hi, rfl⟩ | ⟨hi, rfl⟩)
      · rw [huntouched i hi] at hmade
        exact h.memories _ made hmade
      · exact hframe.indifferent j made hmade j ⟨rfl, .inr hi⟩
    · rw [Nat.add_sub_cancel_left, Nat.add_comm]
  exact (SiteMap.renderSegments_moved (h.scope _ hfixes) (fun m hm => (h.scope m hm).respects)
    hfixes hsegments (alikeContext_ofValue (h.data _ hfixes)) _ _ hstart).1

/-- The result of putting two texts together, where the second evaluation comes to the same as
another one. -/
theorem outcome_append {m more : EvalM String} {s : RunState} {r : Except EvalError String}
    (hr : ResultAgree (· = ·) r (more.outcome (m.outcome s).2).1) :
    ((do let a ← m; let b ← more; return a ++ b : EvalM String).outcome s).1 =
      (m.outcome s).1.bind fun a => r.map (a ++ ·) := by
  rw [EvalM.outcome_bind]
  rcases hx : m.outcome s with ⟨result, left⟩
  cases result with
  | error e => rfl
  | ok a =>
    rw [hx] at hr
    dsimp only at hr ⊢
    rw [EvalM.outcome_bind]
    rcases hy : more.outcome left with ⟨result, last⟩
    rw [hy] at hr
    cases hr with
    | ok h => rw [h]; rfl
    | error e => rfl

/-- Two templates side by side have the problems of the first one and those of the second one where
it is now. They render to the text of the first one and that of the second one, or fail as the first
one does, or else as the second one.

The second template is rendered by itself, in a run of its own: other things may have happened
before, lambdas are numbered from elsewhere on, and its sites remember what they remember when both
are rendered together, which is nothing if the templates were just read. What the two runs share is
what the scope holds, once the first template was rendered: whether the evaluation was given up, and
what lambdas that were made before, with fixed sites and known numbers, remember. Without that the
two templates side by side can fail where neither of them does (`templates_share_giving_up`). -/
theorem templates_compose (first second : String)
    (hclosed : (split first.toList).unclosed = none)
    (hseam : first.toList.getLast? = some '\x7b' → second.toList.head? ≠ some '\x7b') :
    let both := Template.parse (first ++ second)
    both.diagnostics = (Template.parse first).diagnostics ++
        (Template.parse second).diagnostics.map
          (Diagnostic.relocate (Position.within (first ++ second).toList first.length)) ∧
      ∀ (fixed : Nat → Prop) (known : Nat), (∀ i, fixed i → both.sites ≤ i) →
        ∀ (scope : Scope) (data : Value) (s : RunState),
          Indifferent fixed known scope data s.memories → known ≤ s.nextLambda →
            let x := ((Template.parse first).render scope data).outcome s
            ∀ own : RunState,
              own.memories.Continues fixed (Template.parse first).sites both.sites s.memories
                  x.2.memories → own.cancelled = x.2.cancelled → known ≤ own.nextLambda →
                let y := ((Template.parse second).render scope data).outcome own
                ((both.render scope data).outcome s).1 = x.1.bind fun a => y.1.map (a ++ ·) := by
  intro both
  refine ⟨diagnostics_append second hclosed hseam, ?_⟩
  intro fixed known hfixed scope data s h hknown x own hms hcancelled hown y
  obtain ⟨hsites, hrender⟩ := render_append second hclosed hseam
  have hrest : ResultAgree (· = ·) y.1 _ :=
    render_rest first second hfixed h hknown hsites own hms hcancelled hown
  rw [hrender]
  exact outcome_append hrest

/-- The seam is within three closing braces, and the second template has open ones. Each of them is
rendered by itself from the beginning. -/
theorem templates_compose_braces :
    let first := "Hi \x7b\x7bname\x7d\x7d"
    let second := "\x7d\x7b\x7bcount + 2\x7d\x7d\x7b\x7b"
    let scope := Scope.ofOptions .standard
    let data : Value := .object [("name", .string "Ada"), ("count", .int 1)]
    let both := Template.parse (first ++ second)
    let x := ((Template.parse first).render scope data).outcome .fresh
    let y := ((Template.parse second).render scope data).outcome .fresh
    Indifferent (fun _ => False) 0 scope data RunState.fresh.memories ∧
      both.diagnostics = (Template.parse first).diagnostics ++
        (Template.parse second).diagnostics.map
          (Diagnostic.relocate (Position.within (first ++ second).toList first.length)) ∧
      ((both.render scope data).outcome .fresh).1 = x.1.bind (fun a => y.1.map (a ++ ·)) ∧
      x.1 = .ok "Hi Ada" ∧ y.1 = .ok "\x7d3\x7b\x7b" := by
  intro first second scope data both x y
  have hclosed : (split first.toList).unclosed = none := by decide +kernel
  have hseam : first.toList.getLast? = some '\x7b' → second.toList.head? ≠ some '\x7b' := by
    decide +kernel
  have hindifferent : Indifferent (fun _ => False) 0 scope data RunState.fresh.memories :=
    .ofConfig {} fun L => Likeness.alike_object
      (.cons ⟨rfl, Likeness.alike_string "Ada"⟩ (.cons ⟨rfl, Likeness.alike_int 1⟩ .nil))
  have hcancelled : RunState.fresh.cancelled = x.2.cancelled := by decide +kernel
  obtain ⟨hdiagnostics, hrender⟩ := templates_compose first second hclosed hseam
  have hresult := hrender (fun _ => False) 0 (fun _ h => h.elim) scope data .fresh hindifferent
    (Nat.le_refl 0) .fresh ⟨fun _ _ => rfl, fun _ h => h.elim⟩ hcancelled (Nat.le_refl 0)
  refine ⟨hindifferent, hdiagnostics, hresult, ?_, ?_⟩
  · decide +kernel
  · decide +kernel

/-- A formatter of the first template gives up what the second one belongs to, but not a rendering
of the second one that has nothing to do with it. -/
theorem templates_share_giving_up :
    let first := "\x7b\x7bv.Stop()\x7d\x7d"
    let second := "\x7b\x7bv\x7d\x7d"
    let scope := Scope.ofOptions (.only stopNow)
    let rendered (text : String) :=
      (((Template.parse text).render scope (.object [("v", .string "x")])).outcome .fresh).1
    (split first.toList).unclosed = none ∧ first.toList.getLast? ≠ some '\x7b' ∧
      rendered first = .ok "x" ∧ rendered second = .ok "x" ∧
        rendered (first ++ second) = .error .cancelled := by
  decide +kernel

end Template

end Stencil
