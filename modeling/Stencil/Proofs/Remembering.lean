import Stencil.Formatter.Memory
import Stencil.Proofs.Generations
import Stencil.Proofs.Shapes

/-!
# Whether remembering shows

A place where a formatter is called takes its last choice again for a call of the same shape. That
should never show: each answer should be the choice that would be made afresh.

Whether it does is a question about types. `Transparent meets` says that remembering does not show
in any history of calls in which declared types meet shapes of values as `meets` allows.

> `transparent_iff_settled`: remembering does not show if and only if each conclusive shape settles
> the types that it meets.

It does show for arrays of arrays: a choice made for numbers is taken again for texts
(`remembering_shows_in_nested_arrays`).
-/

namespace Stencil

/-- What is asked at a place. The name of the formatter belongs to the place. -/
structure Inquiry where
  registry : Registry
  matching : NameMatching
  value : Value
  arguments : List Supplied

namespace Inquiry

def shape (q : Inquiry) : CallShape :=
  .ofCall q.registry q.matching q.value q.arguments

/-- The choice made without a look at what is remembered. -/
def choice (name : String) (q : Inquiry) : Option Resolution :=
  q.registry.resolve q.matching name q.value q.arguments

/-- The declared types of all that is registered, each with the shapes of the values of the call
that it may be held against. -/
def Meets (meets : ParamType → Shape → Prop) (q : Inquiry) : Prop :=
  ∀ s ∈ q.registry.signatures, meets s.valueType q.value.shape ∧
    ∀ p ∈ s.params, ∀ a ∈ q.arguments, meets p.type a.value.shape

end Inquiry

/-- The generations of the registries asked stand for their contents. -/
def Distinguished (calls : List Inquiry) : Prop :=
  ToldApart fun r => ∃ q ∈ calls, q.registry = r

/-- Whatever was done with registries on a shelf between the calls, their generations stand for
their contents. -/
theorem distinguished_of_run {calls : List Inquiry} (steps : List ShelfStep)
    (h : ∀ q ∈ calls, q.registry = .standard ∨ Shelf.empty.EverHolds steps q.registry) :
    Distinguished calls :=
  (Shelf.toldApart_of_run steps).mono fun _ ⟨q, hq, hr⟩ => hr ▸ h q hq

/-- The answers to calls made one after the other at a place. -/
def Memory.answers (name : String) (m : Memory) : List Inquiry → List (Option Resolution)
  | [] => []
  | q :: rest =>
    let c := q.registry.consult m q.matching name q.value q.arguments
    c.resolution :: c.memory.answers name rest

/-- Remembering does not show where types meet shapes as allowed. -/
def Transparent (meets : ParamType → Shape → Prop) : Prop :=
  ∀ name calls, Distinguished calls → (∀ q ∈ calls, q.Meets meets) →
    Memory.answers name none calls = calls.map (Inquiry.choice name)

/-! ## Calls of one shape -/

theorem Inquiry.shape_of_choice {q : Inquiry} {name : String} {made : Resolution}
    (h : q.choice name = some made) : made.shape = q.shape :=
  Registry.shape_of_resolve h

/-- Arguments of equal names and shapes fit alike what their shapes settle. -/
theorem alike_of_shapes {converters : List Converter} {types : ParamType → Prop}
    {as bs : List Supplied}
    (hshapes : as.map (fun a => (a.name, a.value.shape)) = bs.map fun b => (b.name, b.value.shape))
    (hfit : ∀ a ∈ as, ∀ b : Value, a.value.shape = b.shape → FitAlike converters types a.value b) :
    List.Forall₂ (Supplied.Alike converters types) as bs := by
  induction as generalizing bs with
  | nil =>
    cases bs with
    | nil => exact .nil
    | cons _ _ => cases hshapes
  | cons a as ih =>
    cases bs with
    | nil => cases hshapes
    | cons b bs =>
      obtain ⟨hab, hrest⟩ := List.cons.inj hshapes
      obtain ⟨hname, hshape⟩ := Prod.mk.inj hab
      exact .cons ⟨hname, hfit a List.mem_cons_self b.value hshape⟩
        (ih hrest fun a' ha' => hfit a' (List.mem_cons_of_mem a ha'))

section Settled

variable {meets : ParamType → Shape → Prop}
  (hsettled : ∀ type s, meets type s → s.isConclusive = true → type.isSettledBy s = true)

include hsettled

theorem fitAlike_of_shape {converters : List Converter} {types : ParamType → Prop} {v w : Value}
    (hshape : v.shape = w.shape) (hconclusive : v.shape.isConclusive = true)
    (hmeets : ∀ type, types type → meets type v.shape) : FitAlike converters types v w :=
  fun type htype known => accept_congr (congrArg Shape.type hshape)
    (fit_congr_of_shape hshape hconclusive (hsettled type _ (hmeets type htype) hconclusive)) known

/-- Calls of one shape on one registry mean the same, if the shape may be used again. -/
theorem choice_eq_of_shape {q q' : Inquiry} (name : String) (hregistry : q.registry = q'.registry)
    (hshape : q.shape = q'.shape) (hreusable : q.shape.isReusable = true) (hmeets : q.Meets meets) :
    q.choice name = q'.choice name := by
  obtain ⟨r, matching, v, as⟩ := q
  obtain ⟨r', matching', w, bs⟩ := q'
  obtain rfl : r = r' := hregistry
  obtain ⟨-, hmatching, hv, has⟩ := CallShape.mk.inj hshape
  obtain rfl : matching = matching' := hmatching
  obtain ⟨hvalue, harguments⟩ := Bool.and_eq_true_iff.mp hreusable
  refine Registry.resolve_congr name hshape fun s hs => ⟨?_, alike_of_shapes has ?_⟩
  · refine fitAlike_of_shape hsettled hv hvalue ?_
    rintro type rfl
    exact (hmeets s hs).1
  · intro a ha b hab
    have hconclusive : a.value.shape.isConclusive = true :=
      List.all_eq_true.mp harguments (a.name, a.value.shape)
        (List.mem_map_of_mem (f := fun a : Supplied => (a.name, a.value.shape)) ha)
    refine fitAlike_of_shape hsettled hab hconclusive ?_
    rintro type ⟨p, hp, rfl⟩
    exact (hmeets s hs).2 p hp a ha

/-! ## Histories -/

/-- What is remembered was chosen for one of the calls, and may be used again. -/
def Memory.Honest (name : String) (calls : List Inquiry) (m : Memory) : Prop :=
  ∀ r ∈ m, r.shape.isReusable = true ∧ ∃ q ∈ calls, q.choice name = some r

omit hsettled in
/-- Asking leaves an honest memory honest. -/
theorem Memory.Honest.consult {name : String} {calls : List Inquiry} {m : Memory}
    (hm : m.Honest name calls) {q : Inquiry} (hq : q ∈ calls) :
    (q.registry.consult m q.matching name q.value q.arguments).memory.Honest name calls := by
  intro made hmade
  rcases Registry.of_mem_memory hmade with hmade | ⟨hfresh, hreusable⟩
  · exact hm made hmade
  · exact ⟨hreusable, q, hq, hfresh⟩

/-- With an honest memory the answer is the choice made afresh. -/
theorem resolution_of_honest {name : String} {calls : List Inquiry}
    (hdistinguished : Distinguished calls) (hmeets : ∀ q ∈ calls, q.Meets meets) {m : Memory}
    (hm : m.Honest name calls) {q : Inquiry} (hq : q ∈ calls) :
    (q.registry.consult m q.matching name q.value q.arguments).resolution = q.choice name := by
  unfold Registry.consult
  split
  · next r hfound =>
    obtain ⟨hr, hshape⟩ := Option.filter_eq_some_iff.mp hfound
    have hshape : r.shape = q.shape := of_decide_eq_true hshape
    obtain ⟨hreusable, q', hq', hchoice⟩ := hm r hr
    have hsame : q'.shape = q.shape := (Inquiry.shape_of_choice hchoice).symm.trans hshape
    -- The shape names the generation, and thereby the registry.
    have hregistry : q'.registry = q.registry :=
      hdistinguished _ _ ⟨q', hq', rfl⟩ ⟨q, hq, rfl⟩ (congrArg CallShape.generation hsame)
    rw [← Inquiry.shape_of_choice hchoice] at hsame
    rw [← hchoice]
    exact choice_eq_of_shape hsettled name hregistry
      ((Inquiry.shape_of_choice hchoice).symm.trans hsame)
      (by rw [← Inquiry.shape_of_choice hchoice]; exact hreusable) (hmeets q' hq')
  · split
    · next made hmade => exact hmade.symm
    · next hmade => exact hmade.symm

theorem answers_of_honest {name : String} {calls : List Inquiry}
    (hdistinguished : Distinguished calls) (hmeets : ∀ q ∈ calls, q.Meets meets)
    {asked : List Inquiry} (hasked : ∀ q ∈ asked, q ∈ calls) {m : Memory}
    (hm : m.Honest name calls) : m.answers name asked = asked.map (Inquiry.choice name) := by
  induction asked generalizing m with
  | nil => rfl
  | cons q rest ih =>
    have hq := hasked q List.mem_cons_self
    simp only [Memory.answers, List.map_cons]
    rw [resolution_of_honest hsettled hdistinguished hmeets hm hq,
      ih (fun q' hq' => hasked q' (List.mem_cons_of_mem q hq')) (hm.consult hq)]

theorem transparent_of_settled : Transparent meets := by
  intro name calls hdistinguished hmeets
  refine answers_of_honest hsettled hdistinguished hmeets (fun _ hq => hq) ?_
  intro r hr
  cases hr

end Settled

/-! ## Where it shows -/

theorem consult_none {q : Inquiry} {name : String} {made : Resolution}
    (hmade : q.choice name = some made) (hreusable : made.shape.isReusable = true) :
    q.registry.consult none q.matching name q.value q.arguments =
      ⟨some made, some made, false⟩ := by
  have hmade : q.registry.resolve q.matching name q.value q.arguments = some made := hmade
  simp only [Registry.consult, Memory.find?, Option.filter_none, hmade, Memory.keep, hreusable,
    if_true]

theorem consult_found {q : Inquiry} {name : String} {made : Resolution}
    (hshape : made.shape = q.shape) :
    q.registry.consult (some made) q.matching name q.value q.arguments =
      ⟨some made, some made, true⟩ := by
  have hfound : Memory.find? (some made)
      (.ofCall q.registry q.matching q.value q.arguments) = some made :=
    Option.filter_eq_some_iff.mpr ⟨rfl, decide_eq_true hshape⟩
  simp only [Registry.consult, hfound]

namespace Remembering

/-- An overload without a name or parameters, for values of one type. -/
def plainSignature (type : ParamType) : Signature :=
  ⟨none, type, [], .compute Call.value, fun _ => false, none⟩

/-- A call without arguments, where nothing but one overload for values of one type is
registered. -/
def plainInquiry (type : ParamType) (v : Value) : Inquiry :=
  ⟨(Registry.empty 1).file 1 (plainSignature type), .caseSensitive, v, []⟩

theorem choice_plainInquiry (name : String) (type : ParamType) (v : Value) :
    (plainInquiry type v).choice name =
      (type.fit v []).1.map fun c =>
        ⟨plainSignature type, c, [], (type.fit v []).2, (plainInquiry type v).shape⟩ := by
  -- Nothing is registered under a name, and no converter is asked.
  have hnamed : (if name == "" then [] else
      ((Registry.empty 1).file 1 (plainSignature type)).named name .caseSensitive) = [] := by
    split <;> rfl
  have haccept : accept [] type v [] = type.fit v [] := by
    unfold accept
    split
    · next h => exact h.symm
    · next h => exact h.symm
  unfold Inquiry.choice plainInquiry Registry.resolve
  simp only [hnamed]
  show Option.map Prod.snd (bestOf ([(0, plainSignature type)].filterMap fun c =>
    (c.2.bindCall [] (plainInquiry type v).shape v []).map fun bound => (c.1, bound))) = _
  simp only [List.filterMap_cons, List.filterMap_nil, Signature.bindCall, plainSignature, haccept]
  rcases type.fit v [] with ⟨_ | c, known⟩
  · rfl
  · rfl

theorem distinguished_plainInquiries (type : ParamType) (v w : Value) :
    Distinguished [plainInquiry type v, plainInquiry type w] := by
  rintro _ _ ⟨q, hq, rfl⟩ ⟨q', hq', rfl⟩ _
  simp only [List.mem_cons, List.not_mem_nil, or_false] at hq hq'
  rcases hq with rfl | rfl <;> rcases hq' with rfl | rfl <;> rfl

/-- Of two values of one conclusive shape the second gets the answer made for the first. -/
theorem answers_plainInquiries (name : String) {type : ParamType} {v w : Value}
    (hshape : v.shape = w.shape) (hconclusive : v.shape.isConclusive = true) {made : Resolution}
    (hmade : (plainInquiry type v).choice name = some made) :
    Memory.answers name none [plainInquiry type v, plainInquiry type w] =
      [some made, some made] := by
  have hmadeShape : made.shape = (plainInquiry type v).shape := Inquiry.shape_of_choice hmade
  have hsame : (plainInquiry type w).shape = (plainInquiry type v).shape :=
    congrArg (fun s => CallShape.mk 1 .caseSensitive s []) hshape.symm
  have hreusable : made.shape.isReusable = true := by
    rw [hmadeShape]
    simpa [Inquiry.shape, CallShape.ofCall, plainInquiry, CallShape.isReusable] using hconclusive
  simp only [Memory.answers, consult_none hmade hreusable,
    consult_found (hmadeShape.trans hsame.symm)]

/-- Remembering shows in two calls if one declared type meets one conclusive shape that does not
settle it. -/
theorem shows_of_unsettled {meets : ParamType → Shape → Prop} {type : ParamType} {s : Shape}
    (hmeets : meets type s) (hconclusive : s.isConclusive = true)
    (hunsettled : type.isSettledBy s = false) : ¬ Transparent meets := by
  intro htransparent
  obtain ⟨v, w, rfl, hw, hv, hmiss⟩ := exists_misfit hunsettled
  have hall : ∀ q ∈ [plainInquiry type v, plainInquiry type w], q.Meets meets := by
    intro q hq
    have hq : q = plainInquiry type v ∨ q = plainInquiry type w := by simpa using hq
    intro s' hs'
    have hs' : s' ∈ (plainInquiry type v).registry.signatures := by
      rcases hq with rfl | rfl <;> exact hs'
    obtain rfl : s' = plainSignature type := by
      simpa [plainInquiry, Registry.file, Registry.empty, plainSignature] using hs'
    refine ⟨?_, fun p hp => by cases hp⟩
    rcases hq with rfl | rfl
    · exact hmeets
    · exact hw ▸ hmeets
  -- The second value gets the answer of the first, which keeps it as it is. Afresh it would not
  -- be kept.
  have hanswers := htransparent "" _ (distinguished_plainInquiries type v w) hall
  have hchoice := choice_plainInquiry "" type v
  rw [hv] at hchoice
  rw [answers_plainInquiries "" hw.symm hconclusive hchoice] at hanswers
  have hfresh := (List.cons.inj (List.cons.inj hanswers).2).1
  rw [choice_plainInquiry] at hfresh
  rcases hfit : type.fit w [] with ⟨_ | c, known⟩ <;> rw [hfit] at hfresh
  · cases hfresh
  · have hmake := Option.some.inj hfresh
    have hkeep : Conversion.keep = c := congrArg Resolution.valueConversion hmake
    have hknown : [] = known := congrArg Resolution.types hmake
    exact hmiss (by rw [hfit, ← hkeep, ← hknown])

end Remembering

/-- Remembering does not show exactly where conclusive shapes settle the types that they meet. -/
theorem transparent_iff_settled (meets : ParamType → Shape → Prop) :
    Transparent meets ↔
      ∀ type s, meets type s → s.isConclusive = true → type.isSettledBy s = true := by
  constructor
  · intro htransparent type s hmeets hconclusive
    by_contra hunsettled
    exact Remembering.shows_of_unsettled hmeets hconclusive (Bool.eq_false_iff.mpr hunsettled)
      htransparent
  · exact transparent_of_settled

/-- Arrays of numbers in an array, and then texts in their place: the second call gets the answer of
the first, where afresh nothing fits. -/
theorem remembering_shows_in_nested_arrays :
    ¬ ∀ name calls, Distinguished calls →
      Memory.answers name none calls = calls.map (Inquiry.choice name) := by
  intro h
  have hshows := h "F"
    [ Remembering.plainInquiry (.array (.array .integer)) (.array [.array [.int 1]]),
      Remembering.plainInquiry (.array (.array .integer)) (.array [.array [.string "x"]]) ]
    (Remembering.distinguished_plainInquiries _ _ _)
  exact absurd (congrArg (List.map Option.isSome) hshows) (by decide)

end Stencil
