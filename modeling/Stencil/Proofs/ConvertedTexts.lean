import Stencil.Proofs.BoundTypes

/-!
# Numbers read from texts

With `Converter.numericStrings` in a registry, an overload that asks for a number can be chosen for
a string. A converter is asked about types when the choice is made, and gets to see the string only
when the overload is bound to the call. So a string that stands for no number is accepted like any
other one, and what the parameter gets for it is null.

`Resolution.Conveys` speaks about every value that is bound, be it the value of the call, an
argument or one of the arguments of a list: what holds of all that is accepted holds of all that is
bound (`Registry.conveys_of_resolve`).

Main statement: `converted_texts_typed_iff_read`, a value that comes of a conversion has its
declared type just if the text stands for a number of that type, and whether it does has no part in
the choice.
-/

namespace Stencil

/-! ## Texts that stand for numbers -/

namespace ParamType

/-- The number that a text stands for as a type takes it, blanks around it aside. A text that is
both a whole number and a double is a whole number where the type takes either. -/
def numberIn? (type : ParamType) (s : String) : Option Value :=
  let text := Text.trim s.toList
  let whole := (readInt64? text).map Value.int
  let double := (readFloat? text).map Value.float
  match type with
  | integer => whole
  | float => double
  | _ => whole.or double

/-- What a parameter gets for a text that is converted: the number that it stands for, which fits as
it is, or null, which does not fit, if it stands for none. -/
structure GetsFromText (type : ParamType) (s : String) (got : Value) : Prop where
  numeric : type = integer ∨ type = float ∨ type = number
  read : got = (type.numberIn? s).getD .null
  fits_iff : ∀ known, (type.fit got known).1.isSome = true ↔ (type.numberIn? s).isSome = true
  fit_eq : (type.numberIn? s).isSome = true → ∀ known, type.fit got known = (some .keep, known)

/-- A number that is read for a type is of that type. -/
theorem fit_of_numberIn? {type : ParamType} (h : type = integer ∨ type = float ∨ type = number)
    {s : String} {v : Value} (hread : type.numberIn? s = some v) (known : TypeArguments) :
    type.fit v known = (some .keep, known) := by
  rcases h with rfl | rfl | rfl
  · obtain ⟨n, -, rfl⟩ := Option.map_eq_some_iff.mp hread
    rfl
  · obtain ⟨x, -, rfl⟩ := Option.map_eq_some_iff.mp hread
    rfl
  · rcases Option.or_eq_some_iff.mp hread with hread | ⟨-, hread⟩
    · obtain ⟨n, -, rfl⟩ := Option.map_eq_some_iff.mp hread
      rfl
    · obtain ⟨x, -, rfl⟩ := Option.map_eq_some_iff.mp hread
      rfl

theorem getsFromText_getD {type : ParamType} (h : type = integer ∨ type = float ∨ type = number)
    (s : String) : type.GetsFromText s ((type.numberIn? s).getD .null) := by
  cases hread : type.numberIn? s with
  | some v =>
    have hfit := fit_of_numberIn? h hread
    refine ⟨h, by rw [hread], fun known => ?_, fun _ => hfit⟩
    rw [Option.getD_some, hfit known, hread]
    exact Iff.rfl
  | none =>
    refine ⟨h, by rw [hread], fun known => ?_, fun hsome => ?_⟩
    · rw [hread]
      rcases h with rfl | rfl | rfl <;> exact Iff.rfl
    · rw [hread] at hsome
      cases hsome

end ParamType

/-- What is read from a string and what its conversion gives are the same. -/
theorem Converter.numericStrings_convert (s : String) (type : ParamType) :
    numericStrings.convert (.string s) type = (type.numberIn? s).getD .null := by
  cases type <;> rfl

/-! ## Conversions of texts -/

/-- What fits without a converter is bound without one. -/
theorem ParamType.adaptation_usesConverter (type : ParamType) :
    type.adaptation.usesConverter = false := by
  induction type with
  | array element ih =>
    unfold adaptation Conversion.ofElements
    split
    · rfl
    · exact ih
  | _ => rfl

/-- A relation that only says something about values that go through a converter: these are texts
made numbers. -/
def ReadsTexts : Conveying := fun type c given got =>
  c.usesConverter = true → ∃ s, given = .string s ∧ type.GetsFromText s got

theorem readsTexts_of_accept {converters : List Converter}
    (hconverters : ∀ c ∈ converters, c = .numericStrings) {type : ParamType} {v : Value}
    {known known' : TypeArguments} {c : Conversion}
    (h : accept converters type v known = (some c, known')) :
    ReadsTexts type c v (c.apply v) := by
  intro huses
  unfold accept at h
  split at h
  · next c' between hfit =>
    obtain ⟨hc, -⟩ := Prod.mk.inj h
    obtain rfl := Option.some.inj hc
    rcases (fit_fitted type hfit).conversion with rfl | rfl
    · cases huses
    · rw [type.adaptation_usesConverter] at huses
      cases huses
  · obtain ⟨hc, -⟩ := Prod.mk.inj h
    obtain ⟨converter, hfind, rfl⟩ := Option.map_eq_some_iff.mp hc
    obtain rfl := hconverters converter (List.mem_of_find?_eq_some hfind)
    have haccepts := List.find?_some hfind
    simp only [Converter.numericStrings, Bool.and_eq_true, Bool.or_eq_true, beq_iff_eq,
      or_assoc] at haccepts
    obtain ⟨hstring, hnumeric⟩ := haccepts
    cases v with
    | string s =>
      refine ⟨s, rfl, ?_⟩
      show type.GetsFromText s (Converter.numericStrings.convert (.string s) type)
      rw [Converter.numericStrings_convert]
      exact ParamType.getsFromText_getD hnumeric s
    | _ => cases hstring

/-- Values that are the same but for the text, if they are strings. -/
inductive Value.SameButText : Value → Value → Prop where
  | same (v : Value) : SameButText v v
  | string (s s' : String) : SameButText (.string s) (.string s')

/-- No type and no converter looks into a text. -/
theorem Value.SameButText.fitAlike {v w : Value} (h : v.SameButText w)
    (converters : List Converter) (types : ParamType → Prop) : FitAlike converters types v w := by
  cases h with
  | same => exact fun _ _ _ => rfl
  | string s s' =>
    intro type _ known
    have hsettled : type.isSettledByType (Value.string s).type = true := by
      cases type <;> rfl
    have hsame : (Value.string s).type = (Value.string s').type := rfl
    exact accept_congr hsame (fit_congr_of_type hsame hsettled) known

theorem Value.SameButText.shape_eq {v w : Value} (h : v.SameButText w) : v.shape = w.shape := by
  cases h <;> rfl

/-- Calls with the same names whose values are the same but for texts. -/
def SameButTexts (as bs : List Supplied) : Prop :=
  List.Forall₂ (fun a b => a.name = b.name ∧ a.value.SameButText b.value) as bs

theorem Registry.resolve_sameButTexts (r : Registry) (matching : NameMatching) (name : String)
    {v w : Value} (hvalue : v.SameButText w) {as bs : List Supplied} (h : SameButTexts as bs) :
    r.resolve matching name v as = r.resolve matching name w bs := by
  have hshapes : (as.map fun a => (a.name, a.value.shape)) =
      bs.map fun b => (b.name, b.value.shape) := by
    rw [← List.forall₂_eq_eq_eq, List.forall₂_map_left_iff, List.forall₂_map_right_iff]
    exact h.imp fun a b hab => Prod.ext hab.1 hab.2.shape_eq
  have hshape : CallShape.ofCall r matching v as = CallShape.ofCall r matching w bs := by
    unfold CallShape.ofCall
    rw [hvalue.shape_eq, hshapes]
  refine resolve_congr name hshape fun s _ => ⟨hvalue.fitAlike _ _, ?_⟩
  exact h.imp fun a b hab => ⟨hab.1, hab.2.fitAlike _ _⟩

/-! ## Choices -/

/-- In a registry whose converters all read numbers from strings: whatever an overload gets through
a converter was given as a string for a number, it fits the declared type just if the string stands
for a number of that type, and it is null otherwise. The choice is the same for all strings. -/
theorem converted_texts_typed_iff_read {r : Registry}
    (hconverters : ∀ c ∈ r.converters, c = .numericStrings) {matching : NameMatching}
    {name : String} {v : Value} {arguments : List Supplied} {made : Resolution}
    (h : r.resolve matching name v arguments = some made) :
    made.Conveys ReadsTexts v arguments ∧
      ∀ w others, v.SameButText w → SameButTexts arguments others →
        r.resolve matching name w others = some made := by
  refine ⟨Registry.conveys_of_resolve (P := fun _ => ReadsTexts)
    (fun haccept _ _ => readsTexts_of_accept hconverters haccept) h, ?_⟩
  intro w others hvalue hothers
  rw [← r.resolve_sameButTexts matching name hvalue hothers]
  exact h

/-- A value, an argument and a list of arguments that are converted; of the arguments in the list
one is a number as it is. -/
theorem converted_texts_typed_iff_read_list :
    let r := ((Registry.empty 1).addConverter 1 .numericStrings).registerAll 1
      [.computing "Mix" .integer [.needed "first" .float, .remaining "more" .number] Call.value]
    let v := Value.string " 21 "
    let arguments : List Supplied := [⟨none, .string "0.5"⟩, ⟨none, .int 3⟩, ⟨none, .string "4"⟩]
    ∃ made, r.resolve .ignoreCase "Mix" v arguments = some made ∧
      (made.bind v arguments).1 = .int 21 ∧ made.Conveys ReadsTexts v arguments := by
  intro r v arguments
  have hbound : (r.resolve .ignoreCase "Mix" v arguments).map
      (fun made => (made.bind v arguments).1) = some (.int 21) := rfl
  obtain ⟨made, hmade, hvalue⟩ := Option.map_eq_some_iff.mp hbound
  have hconverters : ∀ c ∈ r.converters, c = .numericStrings := fun c hc => List.mem_singleton.mp hc
  exact ⟨made, hmade, hvalue, (converted_texts_typed_iff_read hconverters hmade).1⟩

/-- A word is taken for a whole number, and what the overload gets for it is null, which no whole
number is. -/
theorem word_converted_to_null :
    let r := ((Registry.empty 1).addConverter 1 .numericStrings).registerAll 1
      [.computing "F" .integer [] Call.value]
    ∃ made, (∀ c ∈ r.converters, c = .numericStrings) ∧
      r.resolve .ignoreCase "F" (.string "abc") [] = some made ∧
      (made.bind (.string "abc") []).1 = .null ∧
      ¬ made.Conveys (fun type c _ got => c.usesConverter = true →
        (type.fit got made.types).1.isSome = true) (.string "abc") [] := by
  intro r
  have hfacts : (r.resolve .ignoreCase "F" (.string "abc") []).map (fun made =>
      (made.valueConversion.usesConverter, made.signature.valueType,
        (made.bind (.string "abc") []).1)) = some (true, .integer, .null) := rfl
  obtain ⟨made, hmade, hfacts⟩ := Option.map_eq_some_iff.mp hfacts
  obtain ⟨huses, htype, hvalue⟩ : made.valueConversion.usesConverter = true ∧
      made.signature.valueType = .integer ∧ (made.bind (.string "abc") []).1 = .null := by
    simpa using hfacts
  refine ⟨made, fun c hc => List.mem_singleton.mp hc, hmade, hvalue, fun hconveys => ?_⟩
  have hfits := hconveys.value huses
  rw [htype, hvalue] at hfits
  cases hfits

end Stencil
