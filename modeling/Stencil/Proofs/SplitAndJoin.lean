import Stencil.Proofs.StandardCalls

/-!
# Joining undoes splitting

A text is split by reading it from left to right: where the separator begins, a piece ends and the
separator is passed, and everywhere else a character goes to the piece that is being read. So the
pieces with separators between them are the text (`intercalate_piecesFrom`). No piece contains the
separator. One that did would contain it from some character on, and there the piece would have
ended (`not_infix_of_mem_piecesFrom`).

An empty separator is not looked for: the pieces are the characters, and a text without characters
has none.

Main statement: `join_undoes_split`.
-/

namespace Stencil

namespace Text

/-! ## Pieces with separators between them -/

section Pieces

variable {separator : List Char}

theorem intercalate_consPiece (c : Char) {pieces : List (List Char)} (h : pieces ≠ []) :
    separator.intercalate (consPiece c pieces) = c :: separator.intercalate pieces := by
  cases pieces with
  | nil => exact absurd rfl h
  | cons piece more =>
    rw [consPiece]
    cases more <;> simp

theorem consPiece_ne_nil (c : Char) (pieces : List (List Char)) : consPiece c pieces ≠ [] := by
  cases pieces <;> exact List.cons_ne_nil _ _

theorem piecesFrom_ne_nil (separator : List Char) (skip : Nat) (text : List Char) :
    piecesFrom separator skip text ≠ [] := by
  fun_induction piecesFrom separator skip text with
  | case1 => exact List.cons_ne_nil _ _
  | case2 skip _ rest ih => exact ih
  | case3 c rest _ ih => exact List.cons_ne_nil _ _
  | case4 c rest _ ih => exact consPiece_ne_nil c _

/-- What is left of a text after what is skipped is the pieces with separators between them. -/
theorem intercalate_piecesFrom (hseparator : separator ≠ []) (skip : Nat) (text : List Char) :
    separator.intercalate (piecesFrom separator skip text) = text.drop skip := by
  fun_induction piecesFrom separator skip text with
  | case1 => simp
  | case2 skip _ rest ih => exact ih
  | case3 c rest hprefix ih =>
    obtain ⟨more, hmore⟩ := List.isPrefixOf_iff_prefix.mp hprefix
    obtain ⟨d, separator', rfl⟩ := List.exists_cons_of_ne_nil hseparator
    obtain ⟨rfl, rfl⟩ := List.cons.inj hmore
    rw [List.intercalate_cons_of_ne_nil (piecesFrom_ne_nil _ _ _), ih]
    simp
  | case4 c rest _ ih =>
    rw [intercalate_consPiece c (piecesFrom_ne_nil _ _ _), ih]
    rfl

/-! ## Pieces and the separator -/

/-- The first piece is what the text begins with. -/
theorem head_piecesFrom (skip : Nat) (text : List Char) :
    ∀ piece ∈ (piecesFrom separator skip text).head?, piece <+: text.drop skip := by
  fun_induction piecesFrom separator skip text with
  | case1 => simp
  | case2 skip _ rest ih => exact ih
  | case3 c rest _ ih => simp
  | case4 c rest _ ih =>
    intro piece hpiece
    cases hpieces : piecesFrom separator 0 rest with
    | nil => exact absurd hpieces (piecesFrom_ne_nil _ _ _)
    | cons first more =>
      rw [hpieces] at ih hpiece
      obtain rfl := Option.some.inj hpiece
      exact (List.cons_prefix_cons).mpr ⟨rfl, ih first rfl⟩

theorem not_infix_of_mem_piecesFrom (hseparator : separator ≠ []) (skip : Nat) (text : List Char) :
    ∀ piece ∈ piecesFrom separator skip text, ¬ separator <:+: piece := by
  have hempty : ¬ separator <:+: [] := fun h => hseparator (List.infix_nil.mp h)
  fun_induction piecesFrom separator skip text with
  | case1 => simpa using hempty
  | case2 skip _ rest ih => exact ih
  | case3 c rest _ ih => exact List.forall_mem_cons.mpr ⟨hempty, ih⟩
  | case4 c rest hprefix ih =>
    cases hpieces : piecesFrom separator 0 rest with
    | nil => exact absurd hpieces (piecesFrom_ne_nil _ _ _)
    | cons first more =>
      have hfirst : first <+: rest := head_piecesFrom 0 rest first (by rw [hpieces]; rfl)
      rw [hpieces] at ih
      obtain ⟨hfree, hmore⟩ := List.forall_mem_cons.mp ih
      refine List.forall_mem_cons.mpr ⟨fun hinfix => ?_, hmore⟩
      -- The separator would begin the text here, or stand in the piece without this character.
      rcases List.infix_cons_iff.mp hinfix with hbegins | hinside
      · have hwhole : separator <+: c :: rest :=
          hbegins.trans (List.cons_prefix_cons.mpr ⟨rfl, hfirst⟩)
        exact hprefix (List.isPrefixOf_iff_prefix.mpr hwhole)
      · exact hfree hinside

end Pieces

/-! ## Splitting a text -/

theorem intercalate_pieces (separator text : List Char) :
    separator.intercalate (pieces separator text) = text := by
  unfold pieces
  split
  · next hempty =>
    obtain rfl := List.isEmpty_iff.mp hempty
    induction text with
    | nil => rfl
    | cons c rest ih =>
      cases rest with
      | nil => simp
      | cons d rest =>
        have hrest : (d :: rest).map (fun c => [c]) ≠ [] := List.cons_ne_nil _ _
        rw [List.map_cons, List.intercalate_cons_of_ne_nil hrest, ih]
        simp
  · next hempty =>
    exact intercalate_piecesFrom (fun h => hempty (List.isEmpty_iff.mpr h)) 0 text

theorem pieces_eq_nil_iff {separator text : List Char} :
    pieces separator text = [] ↔ text = [] ∧ separator = [] := by
  unfold pieces
  split
  · next hempty => simp [List.isEmpty_iff.mp hempty]
  · next hempty =>
    refine ⟨fun h => absurd h (piecesFrom_ne_nil _ _ _), fun h => ?_⟩
    exact absurd (List.isEmpty_iff.mpr h.2) hempty

theorem not_infix_of_mem_pieces {separator : List Char} (hseparator : separator ≠ [])
    (text : List Char) : ∀ piece ∈ pieces separator text, ¬ separator <:+: piece := by
  unfold pieces
  rw [if_neg fun h => hseparator (List.isEmpty_iff.mp h)]
  exact not_infix_of_mem_piecesFrom hseparator 0 text

end Text

/-! ## Calls -/

namespace Builtin

theorem gives_split (t s : String) : Gives "Split" (.string t) (.string s) (splitText s t) := by
  refine gives_of_only ?_ (i := 37) (by decide +kernel) rfl (by decide) rfl
    (fun _ => congrArg Shape.type) (fun _ => congrArg Shape.type)
  rintro ⟨v, arguments, _, _, _, _⟩ rfl rfl
  rfl

/-- Joining strings puts the separator between them. -/
theorem gives_join (strings : List String) (s : String) :
    Gives "Join" (.array (strings.map .string)) (.string s) (.string (s.intercalate strings)) := by
  refine gives_of_only ?_ (i := 42) (by decide +kernel) rfl (by decide) rfl (fun w hw => ?_)
    (fun _ => congrArg Shape.type)
  · rintro ⟨v, arguments, _, _, _, _⟩ rfl rfl
    have htexts : (strings.map Value.string).map Value.text = strings := by
      rw [List.map_map]
      exact List.map_id'' (fun text => by simp [Value.text]) strings
    show Value.string ((Value.text (.string s)).intercalate _) = _
    rw [htexts, Value.text]
  · have htype : w.type = .array := congrArg Shape.type hw
    cases w <;> cases htype
    exact ⟨_, rfl, fun _ _ => trivial⟩

end Builtin

/-- Splitting a string by another one gives strings, at least one unless there is nothing to split
and nothing to split by. None of them contains the separator if it has any characters, and joining
them with the separator gives the string that was split. -/
theorem join_undoes_split (t s : String) :
    ∃ strings : List String,
      Gives "Split" (.string t) (.string s) (.array (strings.map .string)) ∧
      (strings = [] ↔ t = "" ∧ s = "") ∧
      (s ≠ "" → ∀ piece ∈ strings, ¬ s.toList <:+: piece.toList) ∧
      Gives "Join" (.array (strings.map .string)) (.string s) (.string t) := by
  refine ⟨(Text.pieces s.toList t.toList).map String.ofList, ?_, ?_, fun hs => ?_, ?_⟩
  · rw [List.map_map]
    exact Builtin.gives_split t s
  · rw [List.map_eq_nil_iff, Text.pieces_eq_nil_iff, String.toList_eq_nil_iff,
      String.toList_eq_nil_iff]
  · have hs : s.toList ≠ [] := fun h => hs (String.toList_eq_nil_iff.mp h)
    refine List.forall_mem_map.mpr fun piece hpiece => ?_
    rw [String.toList_ofList]
    exact Text.not_infix_of_mem_pieces hs t.toList piece hpiece
  · have hjoined : s.intercalate ((Text.pieces s.toList t.toList).map String.ofList) = t := by
      rw [← String.toList_inj, String.toList_intercalate, List.map_map]
      have hpieces : (Text.pieces s.toList t.toList).map (String.toList ∘ String.ofList) =
          Text.pieces s.toList t.toList := List.map_id'' (fun _ => String.toList_ofList) _
      rw [hpieces, Text.intercalate_pieces]
    have hgives := Builtin.gives_join ((Text.pieces s.toList t.toList).map String.ofList) s
    rwa [hjoined] at hgives

end Stencil
