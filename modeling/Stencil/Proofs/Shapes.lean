import Stencil.Proofs.Choice

/-!
# What a shape says about how a value fits

A shape names the type of a value and, for a collection, the type that its elements have in common.
That is all that most declared types look at. The exception are collections of collections: whether
an array of arrays fits a type can depend on what the inner arrays hold, which no shape tells.

`ParamType.isSettledBy` says when the shape is enough. It is exact:

> `fit_congr_of_shape`: values of a shape that settles a type fit it in the same way;
> `exists_misfit`: for every other shape that counts as conclusive there is a value that fits as it
> is and one that does not.
-/

namespace Stencil

namespace ParamType

/-- Whether all values of a type fit in the same way. A collection fits a collection of anything,
and what else a declared collection asks for, its type does not tell. -/
def isSettledByType : ParamType → ValueType → Bool
  | array element, .array | object element, .object => element == any
  | _, _ => true

/-- Whether all values of a shape fit in the same way. -/
def isSettledBy (type : ParamType) (s : Shape) : Bool :=
  match type, s with
  | array element, ⟨.array, some inner⟩ | object element, ⟨.object, some inner⟩ =>
    element.isSettledByType inner
  | _, _ => true

end ParamType

/-! ## Values of one type -/

theorem fitEach_any (items : List Value) (known : TypeArguments) :
    fitEach ParamType.any.fit items .keep known = (some .keep, known) := by
  induction items with
  | nil => rfl
  | cons v rest ih => exact ih

theorem fit_array_any (items : List Value) (known : TypeArguments) :
    (ParamType.array .any).fit (.array items) known = (some .keep, known) :=
  fitEach_any items known

theorem fit_object_any (members : List (String × Value)) (known : TypeArguments) :
    (ParamType.object .any).fit (.object members) known = (some .keep, known) := by
  show Fitting.unconverted (fitEach ParamType.any.fit (members.map Prod.snd) .keep) known = _
  simp only [Fitting.unconverted, fitEach_any]
  rfl

/-- Values of one type fit in the same way what their type settles. -/
theorem fit_congr_of_type {type : ParamType} {v w : Value} (htype : v.type = w.type)
    (h : type.isSettledByType v.type = true) (known : TypeArguments) :
    type.fit v known = type.fit w known := by
  cases v <;> cases w <;> simp only [Value.type, reduceCtorEq, ValueType.host.injEq] at htype <;>
    cases type <;> try rfl
  · next as bs element =>
    obtain rfl : element = .any := by simpa [ParamType.isSettledByType, Value.type] using h
    rw [fit_array_any, fit_array_any]
  · next as bs element =>
    obtain rfl : element = .any := by simpa [ParamType.isSettledByType, Value.type] using h
    rw [fit_object_any, fit_object_any]
  · simp only [ParamType.fit, htype]
  · show fitGeneric _ (ValueType.host _) known = fitGeneric _ (ValueType.host _) known
    rw [htype]

/-! ## Collections -/

/-- What a settled type other than a type parameter finds out, it finds out whatever is known. -/
theorem fit_plain {type : ParamType} {v : Value} (hgeneric : ∀ name, type ≠ .generic name)
    (h : type.isSettledByType v.type = true) : ∃ c, ∀ known, type.fit v known = (c, known) := by
  cases type with
  | generic name => exact absurd rfl (hgeneric name)
  | array element =>
    cases v with
    | array items =>
      obtain rfl : element = .any := by simpa [ParamType.isSettledByType, Value.type] using h
      exact ⟨some .keep, fit_array_any items⟩
    | _ => exact ⟨none, fun _ => rfl⟩
  | object element =>
    cases v with
    | object members =>
      obtain rfl : element = .any := by simpa [ParamType.isSettledByType, Value.type] using h
      exact ⟨some .keep, fit_object_any members⟩
    | _ => exact ⟨none, fun _ => rfl⟩
  | _ => cases v <;> exact ⟨_, fun _ => rfl⟩

/-- The conversion for a collection whose elements all need the same one. -/
def widestOf (c : Conversion) : Conversion :=
  if Conversion.keep.cost < c.cost then c else .keep

/-- A collection with elements is fitted like its elements if these fit all alike. -/
theorem fitEach_replicated {fit : Value → Fitting Conversion} {c : Option Conversion}
    {items : List Value} (hitems : ∀ v ∈ items, ∀ known, fit v known = (c, known))
    (hne : items ≠ []) (known : TypeArguments) :
    fitEach fit items .keep known =
      (c.map fun c => if (widestOf c).isKeep then .keep else .elements (widestOf c), known) := by
  -- once the widest conversion was found it stays
  have hrest : ∀ (c : Conversion) (rest : List Value),
      (∀ v ∈ rest, ∀ known, fit v known = (some c, known)) →
      fitEach fit rest (widestOf c) known =
        (some (if (widestOf c).isKeep then .keep else .elements (widestOf c)), known) := by
    intro c rest h
    induction rest with
    | nil => rfl
    | cons v rest ih =>
      have hwidest : (if (widestOf c).cost < c.cost then c else widestOf c) = widestOf c := by
        unfold widestOf
        split <;> simp
      simp only [fitEach, h v List.mem_cons_self, hwidest]
      exact ih fun w hw => h w (List.mem_cons_of_mem v hw)
  cases items with
  | nil => exact absurd rfl hne
  | cons v rest =>
    simp only [fitEach, hitems v List.mem_cons_self]
    cases c with
    | none => rfl
    | some c => exact hrest c rest fun w hw => hitems w (List.mem_cons_of_mem v hw)

/-- A common type is the type of each element. -/
theorem type_of_commonType {items : List Value} {inner : ValueType}
    (h : Value.commonType items = some inner) : items ≠ [] ∧ ∀ v ∈ items, v.type = inner := by
  cases items with
  | nil => simp [Value.commonType] at h
  | cons v rest =>
    simp only [Value.commonType, Option.ite_none_right_eq_some, List.all_eq_true, beq_iff_eq,
      Option.some.injEq] at h
    obtain ⟨hall, rfl⟩ := h
    refine ⟨List.cons_ne_nil v rest, fun w hw => ?_⟩
    rcases List.mem_cons.mp hw with rfl | hw
    · rfl
    · exact hall w hw

theorem fitElements_generic {name : String} {fit : Value → Fitting Conversion}
    {items : List Value} {inner : ValueType} (h : Value.commonType items = some inner)
    (known : TypeArguments) :
    fitElements (.generic name) fit items known = fitGeneric name inner known := by
  cases items with
  | nil => simp [Value.commonType] at h
  | cons v rest => simp only [fitElements, h]

theorem fitElements_plain {element : ParamType} (hgeneric : ∀ name, element ≠ .generic name)
    (fit : Value → Fitting Conversion) (items : List Value) (known : TypeArguments) :
    fitElements element fit items known = fitEach fit items .keep known := by
  unfold fitElements
  split
  · exact absurd rfl (hgeneric _)
  · exact absurd rfl (hgeneric _)
  · rfl

/-- The elements of two collections fit in the same way what their common type settles. -/
theorem fitElements_congr {element : ParamType} {as bs : List Value} {inner : ValueType}
    (has : Value.commonType as = some inner) (hbs : Value.commonType bs = some inner)
    (h : element.isSettledByType inner = true) (known : TypeArguments) :
    fitElements element element.fit as known = fitElements element element.fit bs known := by
  obtain ⟨hane, hatype⟩ := type_of_commonType has
  obtain ⟨hbne, hbtype⟩ := type_of_commonType hbs
  by_cases hgeneric : ∃ name, element = .generic name
  · obtain ⟨name, rfl⟩ := hgeneric
    rw [fitElements_generic has, fitElements_generic hbs]
  · have hplain : ∀ name, element ≠ .generic name := fun name hname => hgeneric ⟨name, hname⟩
    obtain ⟨a, ha⟩ := List.exists_mem_of_ne_nil as hane
    -- one element stands for all of them, in either collection
    obtain ⟨c, hc⟩ := fit_plain hplain (v := a) (by rw [hatype a ha]; exact h)
    have heach : ∀ v : Value, v.type = inner → ∀ known, element.fit v known = (c, known) := by
      intro v hv known
      rw [← hc known]
      exact fit_congr_of_type (hv.trans (hatype a ha).symm) (by rw [hv]; exact h) known
    rw [fitElements_plain hplain, fitElements_plain hplain,
      fitEach_replicated (fun v hv => heach v (hatype v hv)) hane,
      fitEach_replicated (fun v hv => heach v (hbtype v hv)) hbne]

/-- Values of a conclusive shape fit in the same way what their shape settles. -/
theorem fit_congr_of_shape {type : ParamType} {v w : Value} (hshape : v.shape = w.shape)
    (hconclusive : v.shape.isConclusive = true) (h : type.isSettledBy v.shape = true)
    (known : TypeArguments) : type.fit v known = type.fit w known := by
  have htype : v.type = w.type := congrArg Shape.type hshape
  have helement := congrArg Shape.element hshape
  -- What the type alone does not settle is about the elements of a collection.
  by_cases hsettled : type.isSettledByType v.type = true
  · exact fit_congr_of_type htype hsettled known
  cases type with
  | array element =>
    cases v with
    | array as =>
      cases w with
      | array bs =>
        obtain ⟨inner, has⟩ := Option.isSome_iff_exists.mp hconclusive
        have hbs : Value.commonType bs = some inner := helement.symm.trans has
        have hs : (Value.array as).shape = ⟨.array, some inner⟩ := congrArg (Shape.mk _) has
        rw [hs] at h
        exact fitElements_congr has hbs h known
      | _ => simp [Value.type] at htype
    | _ => simp [ParamType.isSettledByType, Value.type] at hsettled
  | object element =>
    cases v with
    | object as =>
      cases w with
      | object bs =>
        obtain ⟨inner, has⟩ := Option.isSome_iff_exists.mp hconclusive
        have hbs : Value.commonType (bs.map Prod.snd) = some inner := helement.symm.trans has
        have hs : (Value.object as).shape = ⟨.object, some inner⟩ := congrArg (Shape.mk _) has
        rw [hs] at h
        simp only [ParamType.fit, Fitting.unconverted, fitElements_congr has hbs h known]
      | _ => simp [Value.type] at htype
    | _ => simp [ParamType.isSettledByType, Value.type] at hsettled
  | _ => simp [ParamType.isSettledByType] at hsettled

/-! ## What shapes leave open -/

/-- For each type that does not settle a type of collections, there is an empty collection, which
fits as it is, and one that holds null, which does not. -/
theorem exists_misfit_of_type {element : ParamType} {inner : ValueType}
    (h : element.isSettledByType inner = false) :
    ∃ v w : Value, v.type = inner ∧ w.type = inner ∧
      (∀ known, element.fit v known = (some .keep, known)) ∧
      element.fit w [] ≠ (some .keep, []) ∧ ∀ c ∈ (element.fit w []).1, c.cost = 0 → c = .keep := by
  cases element with
  | array x =>
    obtain ⟨rfl, hx⟩ : inner = .array ∧ x ≠ .any := by
      cases inner <;> simp_all [ParamType.isSettledByType]
    refine ⟨.array [], .array [.null], rfl, rfl, fun known => ?_, ?_⟩
    · cases x <;> rfl
    · cases x <;> simp_all [ParamType.fit, fitElements, fitEach, fitGeneric, Fitting.plain,
        Value.commonType, Keyed.set, Conversion.cost, Conversion.isKeep]
  | object x =>
    obtain ⟨rfl, hx⟩ : inner = .object ∧ x ≠ .any := by
      cases inner <;> simp_all [ParamType.isSettledByType]
    refine ⟨.object [], .object [("", .null)], rfl, rfl, fun known => ?_, ?_⟩
    · cases x <;> rfl
    · cases x <;> simp_all [ParamType.fit, fitElements, fitEach, fitGeneric, Fitting.plain,
        Value.commonType, Keyed.set, Conversion.cost, Conversion.isKeep, Fitting.unconverted]
  | _ => simp [ParamType.isSettledByType] at h

theorem Conversion.isKeep_iff {c : Conversion} : c.isKeep = true ↔ c = .keep := by
  cases c <;> simp [Conversion.isKeep]

/-- A collection of one element fits as it is only if the element does. -/
theorem keep_of_fitEach_singleton {fit : Value → Fitting Conversion} {v : Value}
    (hcost : ∀ c ∈ (fit v []).1, c.cost = 0 → c = .keep)
    (h : fitEach fit [v] .keep [] = (some .keep, [])) : fit v [] = (some .keep, []) := by
  simp only [fitEach] at h
  split at h
  · cases h
  · next c known hc =>
    obtain ⟨hwidest, rfl⟩ := Prod.mk.inj h
    -- A conversion that costs anything would be the widest one, and kept as such.
    have hc0 : c.cost = 0 := by
      by_contra hne
      have hpos : Conversion.keep.cost < c.cost := Nat.pos_of_ne_zero hne
      rw [if_pos hpos] at hwidest
      split at hwidest
      · next hkeep => exact hne (congrArg Conversion.cost (Conversion.isKeep_iff.mp hkeep))
      · cases hwidest
    rw [hc, hcost c (by rw [hc]; rfl) hc0]

theorem keep_of_unconverted {fitting : Fitting Conversion}
    (h : fitting.unconverted [] = (some .keep, [])) : fitting [] = (some .keep, []) := by
  unfold Fitting.unconverted at h
  split at h
  · next c known hc =>
    split at h
    · next hkeep => rw [hc, Conversion.isKeep_iff.mp hkeep, (Prod.mk.inj h).2]
    · cases h
  · cases h

/-- For each conclusive shape that does not settle a type there are two values, one that fits as it
is and one that does not. -/
theorem exists_misfit {type : ParamType} {s : Shape} (h : type.isSettledBy s = false) :
    ∃ v w : Value, v.shape = s ∧ w.shape = s ∧
      type.fit v [] = (some .keep, []) ∧ type.fit w [] ≠ (some .keep, []) := by
  have hplain : ∀ (element : ParamType) (inner : ValueType),
      element.isSettledByType inner = false → ∀ name, element ≠ .generic name := by
    rintro element inner hsettled name rfl
    simp [ParamType.isSettledByType] at hsettled
  unfold ParamType.isSettledBy at h
  split at h
  · next element inner =>
    obtain ⟨v, w, rfl, hw, hv, hmiss, hcost⟩ := exists_misfit_of_type h
    -- A collection of one is as good a witness as its only element.
    refine ⟨.array [v], .array [w], rfl, congrArg (fun t => Shape.mk .array (some t)) hw, ?_, ?_⟩
    · simp [ParamType.fit, fitElements_plain (hplain element v.type h), fitEach, hv,
        Conversion.cost, Conversion.isKeep]
    · intro hfit
      rw [ParamType.fit, fitElements_plain (hplain element v.type h)] at hfit
      exact hmiss (keep_of_fitEach_singleton hcost hfit)
  · next element inner =>
    obtain ⟨v, w, rfl, hw, hv, hmiss, hcost⟩ := exists_misfit_of_type h
    refine ⟨.object [("", v)], .object [("", w)], rfl,
      congrArg (fun t => Shape.mk .object (some t)) hw, ?_, ?_⟩
    · simp [ParamType.fit, Fitting.unconverted, fitElements_plain (hplain element v.type h),
        fitEach, hv, Conversion.cost, Conversion.isKeep]
    · intro hfit
      have helements := keep_of_unconverted hfit
      rw [fitElements_plain (hplain element v.type h)] at helements
      exact hmiss (keep_of_fitEach_singleton hcost helements)
  · cases h

end Stencil
