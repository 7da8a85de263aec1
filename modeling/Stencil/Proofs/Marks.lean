import Stencil.Proofs.Following

/-!
# Characters and literals of a text

A text is cut into marks: each string literal is one mark, and so is each character outside of them
(`marks`). Of these, blanks have no meaning, and neither has a dot before an object selector;
`significant` leaves both out. `Alike` relates texts whose significant marks are the same wherever
both are put, so that it is enough to compare texts piece by piece: it is kept when texts are laid
side by side (`Alike.append`), and two runs of blanks are alike (`alike_blanks`).
-/

namespace Stencil

open Text (Blanks)

/-! ## Marks -/

/-- A character outside string literals, or a whole literal. -/
inductive Mark where
  | char (c : Char)
  /-- The literal with its delimiters, as it is written. -/
  | literal (cs : List Char)
deriving DecidableEq, Repr

/-- A literal of which the end was not found yet. -/
structure OpenLiteral where
  delimiter : Char
  /-- What was found of it, with its delimiter. -/
  read : List Char
  /-- Whether the next character belongs to a backslash. -/
  escaped : Bool

/-- Whether a literal begins with the character. -/
def isQuote (c : Char) : Bool :=
  c == '\'' || c == '"'

/-- Cuts a text into marks, where a literal may be open already. -/
def marksFrom : Option OpenLiteral → List Char → List Mark
  | none, [] => []
  | some l, [] => [.literal l.read]
  | none, c :: rest =>
    if isQuote c then marksFrom (some ⟨c, [c], false⟩) rest else .char c :: marksFrom none rest
  | some l, c :: rest =>
    if l.escaped then marksFrom (some ⟨l.delimiter, l.read ++ [c], false⟩) rest
    else if c == '\\' then marksFrom (some ⟨l.delimiter, l.read ++ [c], true⟩) rest
    else if c == l.delimiter then .literal (l.read ++ [c]) :: marksFrom none rest
    else marksFrom (some ⟨l.delimiter, l.read ++ [c], false⟩) rest

/-- The marks of a text. -/
def marks (text : List Char) : List Mark :=
  marksFrom none text

/-- The literal that a mark is, if it is one. -/
def Mark.literal? : Mark → Option (List Char)
  | char _ => none
  | literal cs => some cs

/-- The string literals among marks, in order. -/
def literals (ms : List Mark) : List (List Char) :=
  ms.filterMap Mark.literal?

/-- A literal that the scanner finds closed is one mark. -/
theorem marksFrom_of_closed {d : Char} (hd : d ≠ '\\') {text : List Char}
    (h : (scanString d text).closed = true) (read : List Char) :
    marksFrom (some ⟨d, read, false⟩) text =
      .literal (read ++ text.take (scanString d text).read) ::
        marks (text.drop (scanString d text).read) := by
  fun_induction scanString d text generalizing read with
  | case1 => cases h
  | case2 c rest hc =>
    obtain rfl : c = d := eq_of_beq hc
    simp [marksFrom, marks, hd]
  | case3 => cases h
  | case4 c hc hb next after hnext scan ih =>
    obtain rfl : c = '\\' := eq_of_beq hb
    simp [marksFrom, ih h, scan]
  -- The backslash takes a character along that would have meant nothing else without it.
  | case5 c hc hb next after hnext scan ih =>
    obtain rfl : c = '\\' := eq_of_beq hb
    simp only [Bool.or_eq_true, beq_iff_eq, not_or] at hnext
    have hmore := ih h (read ++ ['\\'])
    simp only [marksFrom, beq_iff_eq, hnext, if_false, Bool.false_eq_true] at hmore
    simp only [List.append_assoc, List.singleton_append] at hmore
    simp [marksFrom, hmore, scan]
  | case6 c rest hc hb scan ih =>
    simp only [beq_iff_eq] at hc hb
    simp [marksFrom, hc, hb, ih h, scan]

/-! ## What means something -/

/-- Whether the mark is a blank. -/
def Mark.isBlank : Mark → Bool
  | char c => Text.isBlank c
  | literal _ => false

@[simp] theorem Mark.isBlank_char (c : Char) : (char c).isBlank = Text.isBlank c := rfl

@[simp] theorem Mark.isBlank_literal (cs : List Char) : (literal cs).isBlank = false := rfl

/-- The marks that are no blanks. -/
def solid (ms : List Mark) : List Mark :=
  ms.filter fun m => !m.isBlank

/-- The marks without the dots that stand directly before a question mark. -/
def dropDots : List Mark → List Mark
  | [] => []
  | m :: rest =>
    if m = .char '.' ∧ rest.head? = some (.char '?') then dropDots rest else m :: dropDots rest

/-- What is left of a text without blanks, and then without the dots that stand directly before a
question mark. -/
def significant (text : List Char) : List Mark :=
  dropDots (solid (marks text))

@[simp] theorem literals_char (c : Char) (ms : List Mark) :
    literals (.char c :: ms) = literals ms := rfl

@[simp] theorem literals_literal (cs : List Char) (ms : List Mark) :
    literals (.literal cs :: ms) = cs :: literals ms := rfl

theorem literals_solid (ms : List Mark) : literals (solid ms) = literals ms := by
  induction ms with
  | nil => rfl
  | cons m ms ih =>
    cases m with
    | char c =>
      rw [literals_char, ← ih]
      cases hc : Text.isBlank c <;> simp [solid, hc]
    | literal cs => simpa [solid] using ih

theorem literals_dropDots (ms : List Mark) : literals (dropDots ms) = literals ms := by
  induction ms with
  | nil => rfl
  | cons m ms ih =>
    unfold dropDots
    split
    · next h => simp [h.1, ih]
    · cases m <;> simp [ih]

/-- Literals always mean something. -/
theorem literals_significant (text : List Char) :
    literals (significant text) = literals (marks text) := by
  rw [significant, literals_dropDots, literals_solid]

/-! ## Texts side by side -/

/-- Whether the text has these marks wherever it stands outside of literals. -/
def Consists (cs : List Char) (ms : List Mark) : Prop :=
  ∀ rest, marks (cs ++ rest) = ms ++ marks rest

theorem Consists.append {cs ds : List Char} {ms ns : List Mark} (hcs : Consists cs ms)
    (hds : Consists ds ns) : Consists (cs ++ ds) (ms ++ ns) := by
  intro rest
  rw [List.append_assoc, List.append_assoc, hcs, hds]

/-- Without quotes, every character is a mark. -/
theorem consists_chars {cs : List Char} (h : ∀ c ∈ cs, isQuote c = false) :
    Consists cs (cs.map .char) := by
  intro rest
  induction cs with
  | nil => rfl
  | cons c cs ih =>
    have hrest := ih fun d hd => h d (List.mem_cons_of_mem c hd)
    unfold marks at hrest ⊢
    rw [List.cons_append, marksFrom, if_neg (by simp [h c List.mem_cons_self]), hrest]
    rfl

theorem consists_literal {d : Char} (hd : d = '\'' ∨ d = '"') {fs : List Fragment}
    (h : IsLiteral d fs) : Consists (d :: (Fragment.render fs ++ [d]))
      [.literal (d :: (Fragment.render fs ++ [d]))] := by
  intro rest
  have hquote : isQuote d = true := by rcases hd with rfl | rfl <;> rfl
  have hbackslash : d ≠ '\\' := by rcases hd with rfl | rfl <;> decide
  have hscan := h rest
  have hends : (scanString d (Fragment.render fs ++ d :: rest)).closed = true := by rw [hscan]
  have hclosed := marksFrom_of_closed hbackslash hends [d]
  rw [hscan] at hclosed
  have htext : Fragment.render fs ++ d :: rest = (Fragment.render fs ++ [d]) ++ rest := by simp
  have hlength : (Fragment.render fs).length + 1 = (Fragment.render fs ++ [d]).length := by simp
  rw [htext, hlength, List.take_left, List.drop_left] at hclosed
  rw [List.cons_append, marks, marksFrom, if_pos hquote, hclosed]
  rfl

/-- What comes before does not tell marks apart that begin alike. -/
theorem dropDots_append_congr {ms ns : List Mark} (hdrop : dropDots ms = dropDots ns)
    (hfirst : ms.head? = some (.char '?') ↔ ns.head? = some (.char '?')) (before : List Mark) :
    dropDots (before ++ ms) = dropDots (before ++ ns) := by
  induction before with
  | nil => exact hdrop
  | cons m before ih =>
    have hhead : (before ++ ms).head? = some (.char '?') ↔
        (before ++ ns).head? = some (.char '?') := by
      cases before with
      | nil => exact hfirst
      | cons b before => exact Iff.rfl
    simp only [List.cons_append, dropDots, hhead, ih]

/-- A dot that a question mark follows is left out, whatever stands before it but a dot. -/
theorem dropDots_question (before rest : List Mark) (h : before.getLast? ≠ some (.char '.')) :
    dropDots (before ++ .char '?' :: rest) =
      dropDots (before ++ .char '.' :: .char '?' :: rest) := by
  have hdot (rest : List Mark) :
      dropDots (.char '.' :: .char '?' :: rest) = dropDots (.char '?' :: rest) := by
    rw [dropDots, if_pos ⟨rfl, rfl⟩]
  induction before with
  | nil => exact (hdot rest).symm
  | cons m before ih =>
    cases before with
    | nil =>
      have hm : m ≠ .char '.' := fun hm => h (by rw [hm]; rfl)
      simp only [List.cons_append, List.nil_append]
      rw [dropDots, if_neg fun h => hm h.1, dropDots.eq_2 m, if_neg fun h => hm h.1, hdot]
    | cons b before =>
      have hbefore := ih h
      simp only [List.cons_append] at hbefore ⊢
      rw [dropDots, dropDots.eq_2 m, hbefore]
      rfl

/-- Whether marks cannot be told apart, without dots before question marks, wherever they stand. -/
structure MarksAlike (ms ns : List Mark) : Prop where
  drop : ∀ rest, dropDots (ms ++ rest) = dropDots (ns ++ rest)
  first : ∀ rest,
    (ms ++ rest).head? = some (.char '?') ↔ (ns ++ rest).head? = some (.char '?')

theorem MarksAlike.refl (ms : List Mark) : MarksAlike ms ms :=
  ⟨fun _ => rfl, fun _ => Iff.rfl⟩

theorem MarksAlike.append {ms ns ms' ns' : List Mark} (h : MarksAlike ms ns)
    (h' : MarksAlike ms' ns') : MarksAlike (ms ++ ms') (ns ++ ns') := by
  constructor <;> intro rest <;> rw [List.append_assoc, List.append_assoc]
  · rw [h.drop, dropDots_append_congr (h'.drop rest) (h'.first rest) ns]
  · refine (h.first _).trans ?_
    cases ns with
    | nil => exact h'.first rest
    | cons n ns => exact Iff.rfl

/-- A question mark may have a dot in front of it, unless another dot comes before that. -/
theorem MarksAlike.question {ms ns : List Mark} (h : MarksAlike ms ns) (hne : ms ≠ [])
    (hlast : ms.getLast? ≠ some (.char '.')) :
    MarksAlike (ms ++ [.char '?']) (ns ++ [.char '.', .char '?']) := by
  have hdots (rest : List Mark) := dropDots_question ms rest hlast
  constructor <;> intro rest <;> simp only [List.append_assoc, List.cons_append, List.nil_append]
  · rw [hdots, h.drop]
  · rw [← h.first]
    cases ms with
    | nil => exact absurd rfl hne
    | cons m ms => exact Iff.rfl

/-- Texts that have the same significant marks wherever they stand. -/
def Alike (cs ds : List Char) : Prop :=
  ∃ ms ns, Consists cs ms ∧ Consists ds ns ∧ MarksAlike (solid ms) (solid ns)

theorem solid_append (ms ns : List Mark) : solid (ms ++ ns) = solid ms ++ solid ns :=
  List.filter_append ..

theorem Alike.append {cs ds cs' ds' : List Char} (h : Alike cs ds) (h' : Alike cs' ds') :
    Alike (cs ++ cs') (ds ++ ds') := by
  obtain ⟨ms, ns, hms, hns, halike⟩ := h
  obtain ⟨ms', ns', hms', hns', halike'⟩ := h'
  refine ⟨_, _, hms.append hms', hns.append hns', ?_⟩
  rw [solid_append, solid_append]
  exact halike.append halike'

theorem Consists.alike {cs : List Char} {ms : List Mark} (h : Consists cs ms) : Alike cs cs :=
  ⟨ms, ms, h, h, .refl _⟩

theorem alike_chars {cs : List Char} (h : ∀ c ∈ cs, isQuote c = false) : Alike cs cs :=
  (consists_chars h).alike

theorem Alike.cons {c : Char} (hc : isQuote c = false) {cs ds : List Char} (h : Alike cs ds) :
    Alike (c :: cs) (c :: ds) :=
  have hfirst : Alike [c] [c] := alike_chars (by simpa using hc)
  hfirst.append h

theorem isQuote_of_isBlank {c : Char} (h : Text.isBlank c = true) : isQuote c = false := by
  refine Bool.eq_false_iff.mpr fun hc => ?_
  rw [isQuote, Bool.or_eq_true, beq_iff_eq, beq_iff_eq] at hc
  rcases hc with rfl | rfl <;> exact absurd h (by decide)

/-- Texts without quotes are compared character by character. -/
theorem alike_of_chars {cs ds : List Char} (hcs : ∀ c ∈ cs, isQuote c = false)
    (hds : ∀ c ∈ ds, isQuote c = false)
    (h : MarksAlike (solid (cs.map .char)) (solid (ds.map .char))) : Alike cs ds :=
  ⟨_, _, consists_chars hcs, consists_chars hds, h⟩

theorem solid_of_blanks {ws : List Char} (h : Blanks ws) : solid (ws.map .char) = [] := by
  rw [solid, List.filter_eq_nil_iff]
  rintro _ hm
  obtain ⟨c, hc, rfl⟩ := List.mem_map.mp hm
  simp [h c hc]

theorem solid_of_not_blank {cs : List Char} (h : ∀ c ∈ cs, Text.isBlank c = false) :
    solid (cs.map .char) = cs.map .char := by
  rw [solid, List.filter_eq_self]
  rintro _ hm
  obtain ⟨c, hc, rfl⟩ := List.mem_map.mp hm
  simp [h c hc]

/-- Blanks have no meaning. -/
theorem alike_blanks {ws ws' : List Char} (hws : Blanks ws) (hws' : Blanks ws') : Alike ws ws' := by
  refine alike_of_chars (fun c hc => isQuote_of_isBlank (hws c hc))
    (fun c hc => isQuote_of_isBlank (hws' c hc)) ?_
  rw [solid_of_blanks hws, solid_of_blanks hws']
  exact .refl []

theorem Alike.significant {cs ds : List Char} (h : Alike cs ds) :
    Stencil.significant cs = Stencil.significant ds := by
  obtain ⟨ms, ns, hms, hns, halike⟩ := h
  have hcs := hms []
  have hds := hns []
  rw [List.append_nil] at hcs hds
  simp only [Stencil.significant, hcs, hds, solid_append]
  exact halike.drop _

end Stencil
