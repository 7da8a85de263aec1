import Stencil.Proofs.Conveying
import Stencil.Proofs.Shapes

/-!
# Bound values have their declared types

An overload is chosen by the types of a call's values, and then gets these values converted. What
it gets should have the types that it declared, as it is and without any further conversion.

That is not plain for arrays. Each element is fitted for itself, but only the costliest conversion
is kept, and all elements go through it, at any depth. It is right because a declared type knows one
conversion other than none (`ParamType.adaptation`), and a value that fits without it comes through
it with the right type as well. `Fitted` says so of one value. It is kept by collections
(`fitElements_fitted`), so by induction on the type it holds of every fit (`fit_fitted`), and
conversely what has a type fits it as it is (`fit_of_isTypeOf`).

Type parameters are found out as a call is bound, one value after the other. What was found out
stays (`StillKnown`), so in the end all values have their types under what is known then.

Main statement: `bound_values_typed`.
-/

namespace Stencil

/-! ## Types of values -/

namespace ParamType

/-- Whether a value has a declared type as it is. A type parameter stands for the type that is known
for it. -/
def IsTypeOf (known : TypeArguments) : ParamType → Value → Prop
  | any, _ => True
  | generic name, v => known.lookup name = some v.type
  | boolean, v => v.type = .boolean
  | integer, v => v.type = .integer
  | float, v => v.type = .float
  | number, v => v.type = .integer ∨ v.type = .float
  | string, v => v.type = .string
  | lambda, v => v.type = .lambda
  | host name, v => v.type = .host name
  | array element, v => ∃ items, v = .array items ∧ ∀ w ∈ items, element.IsTypeOf known w
  | object element, v => ∃ members, v = .object members ∧ ∀ m ∈ members, element.IsTypeOf known m.2

/-- What may become of a value that is given for a parameter: whole numbers become doubles where
these are asked for, all but texts and lambdas become texts where these are asked for, and so do the
elements of arrays. -/
def Adapts : ParamType → Value → Value → Prop
  | float, given, got => got = given ∨ ∃ n, given = .int n ∧ got = .float n.toFloat
  | string, given, got =>
    got = given ∨ given.type ≠ .string ∧ given.type ≠ .lambda ∧ got = .string given.text
  | array element, given, got => got = given ∨ ∃ items items', given = .array items ∧
      got = .array items' ∧ List.Forall₂ element.Adapts items items'
  | _, given, got => got = given

theorem Adapts.same (type : ParamType) (v : Value) : type.Adapts v v := by
  cases type with
  | float => exact .inl rfl
  | string => exact .inl rfl
  | array element => exact .inl rfl
  | _ => exact (rfl : v = v)

end ParamType

/-- The conversion of an array by the conversion of its elements. -/
def Conversion.ofElements (c : Conversion) : Conversion :=
  if c.isKeep then .keep else .elements c

/-- The one conversion that values may need for a type. -/
def ParamType.adaptation : ParamType → Conversion
  | float => .widen
  | string => .stringify
  | array element => element.adaptation.ofElements
  | _ => .keep

theorem Conversion.ofElements_apply (c : Conversion) (items : List Value) :
    c.ofElements.apply (.array items) = .array (items.map c.apply) := by
  unfold ofElements
  split
  · next hkeep =>
    obtain rfl := Conversion.isKeep_iff.mp hkeep
    exact congrArg Value.array (List.map_id'' (fun v => by cases v <;> rfl) items).symm
  · rfl

theorem Conversion.eq_keep_of_ofElements {c : Conversion} (h : c.ofElements = .keep) :
    c = .keep := by
  unfold ofElements at h
  split at h
  · next hkeep => exact Conversion.isKeep_iff.mp hkeep
  · cases h

/-- What is needed costs something. -/
theorem ParamType.adaptation_cost (type : ParamType) :
    type.adaptation = .keep ∨ 0 < type.adaptation.cost := by
  induction type with
  | float => exact .inr Nat.one_pos
  | string => exact .inr (Nat.succ_pos 1)
  | array element ih =>
    unfold adaptation Conversion.ofElements
    split
    · exact .inl rfl
    · next hkeep =>
      exact .inr (ih.resolve_left fun h => hkeep (Conversion.isKeep_iff.mpr h))
  | _ => exact .inl rfl

/-! ## Fitting finds types -/

theorem fitGeneric_eq {name : String} {type : ValueType} {known known' : TypeArguments}
    {c : Conversion} (h : fitGeneric name type known = (some c, known')) :
    c = .keep ∧ StillKnown known known' ∧ known'.lookup name = some type := by
  have hknown := stillKnown_fitGeneric name type known
  rw [h] at hknown
  unfold fitGeneric at h
  split at h
  · next found hfound =>
    obtain ⟨hc, rfl⟩ := Prod.mk.inj h
    split at hc
    · next htype =>
      obtain rfl := Option.some.inj hc
      exact ⟨rfl, hknown, htype ▸ hfound⟩
    · cases hc
  · obtain ⟨hc, rfl⟩ := Prod.mk.inj h
    obtain rfl := Option.some.inj hc
    refine ⟨rfl, hknown, ?_⟩
    rw [Keyed.lookup_set, if_pos (beq_self_eq_true name)]

/-- A value that was fitted to a type. Whether or not it needs the conversion that was found, with
the conversion of the type it gets that type, under all that is found out later. -/
structure Fitted (type : ParamType) (v : Value) (known known' : TypeArguments) (c : Conversion) :
    Prop where
  stillKnown : StillKnown known known'
  conversion : c = .keep ∨ c = type.adaptation
  kept : c = .keep → ∀ later, StillKnown known' later → type.IsTypeOf later v
  adapted : ∀ later, StillKnown known' later → type.IsTypeOf later (type.adaptation.apply v)
  adapts : type.Adapts v (type.adaptation.apply v)

/-- A value that needs no conversion, of a type that has none. -/
theorem Fitted.plain {type : ParamType} {v : Value} {known known' : TypeArguments}
    (hknown : StillKnown known known') (hnone : type.adaptation = .keep)
    (htype : ∀ later, StillKnown known' later → type.IsTypeOf later v) :
    Fitted type v known known' .keep where
  stillKnown := hknown
  conversion := .inl rfl
  kept _ := htype
  adapted := by
    rw [hnone]
    cases v <;> exact htype
  adapts := by
    rw [hnone]
    cases v <;> exact .same type _

/-- A value that is taken as it is, whatever is known of type parameters. -/
theorem Fitted.of_plain {type : ParamType} {v : Value} {known known' : TypeArguments}
    {c : Conversion} (h : Fitting.plain (some .keep) known = (some c, known'))
    (hnone : type.adaptation = .keep) (htype : ∀ later, type.IsTypeOf later v) :
    Fitted type v known known' c := by
  obtain ⟨hc, rfl⟩ := Prod.mk.inj h
  obtain rfl := Option.some.inj hc
  exact .plain (.refl _) hnone fun later _ => htype later

/-- A value that needs the conversion of its type. -/
theorem Fitted.of_adapted {type : ParamType} {v : Value} {known known' : TypeArguments}
    {c : Conversion} (h : Fitting.plain (some type.adaptation) known = (some c, known'))
    (hneeded : type.adaptation ≠ .keep)
    (htype : ∀ later, type.IsTypeOf later (type.adaptation.apply v))
    (hadapts : type.Adapts v (type.adaptation.apply v)) : Fitted type v known known' c := by
  obtain ⟨hc, rfl⟩ := Prod.mk.inj h
  obtain rfl := Option.some.inj hc
  exact ⟨.refl _, .inr rfl, fun hkeep => absurd hkeep hneeded, fun later _ => htype later, hadapts⟩

/-- Elements that were fitted to a type, each with the type's conversion. -/
structure EachFitted (element : ParamType) (items : List Value) (known known' : TypeArguments)
    (c : Conversion) : Prop where
  stillKnown : StillKnown known known'
  conversion : c = .keep ∨ c = element.adaptation
  kept : c = .keep → ∀ v ∈ items, ∀ later, StillKnown known' later → element.IsTypeOf later v
  adapted : ∀ v ∈ items, ∀ later, StillKnown known' later →
    element.IsTypeOf later (element.adaptation.apply v)
  adapts : ∀ v ∈ items, element.Adapts v (element.adaptation.apply v)

theorem EachFitted.nil {element : ParamType} {c : Conversion} (known : TypeArguments)
    (hc : c = .keep ∨ c = element.adaptation) : EachFitted element [] known known c where
  stillKnown := .refl known
  conversion := hc
  kept := by simp
  adapted := by simp
  adapts := by simp

section Elements

variable {element : ParamType}
  (ih : ∀ {v known known' c}, element.fit v known = (some c, known') →
    Fitted element v known known' c)

include ih

/-- The costliest conversion is none only if no element needs one. -/
theorem fitEach_fitted {items : List Value} {widest c : Conversion} {known known' : TypeArguments}
    (hwidest : widest = .keep ∨ widest = element.adaptation)
    (h : fitEach element.fit items widest known = (some c, known')) :
    ∃ w, c = w.ofElements ∧ EachFitted element items known known' w ∧
      (w = .keep → widest = .keep) := by
  induction items generalizing widest known with
  | nil =>
    obtain ⟨hc, rfl⟩ := Prod.mk.inj h
    exact ⟨widest, (Option.some.inj hc).symm, .nil known hwidest, id⟩
  | cons v items ihitems =>
    simp only [fitEach] at h
    split at h
    · cases h
    · next c' between hfirst =>
      have hv := ih hfirst
      -- Of the conversions so far the costlier one goes on, and both are none or the type's own.
      have hnext : (if widest.cost < c'.cost then c' else widest) = .keep ∨
          (if widest.cost < c'.cost then c' else widest) = element.adaptation := by
        split
        · exact hv.conversion
        · exact hwidest
      obtain ⟨w, rfl, hitems, hkeep⟩ := ihitems hnext h
      have hboth : w = .keep → c' = .keep ∧ widest = .keep := by
        intro hw
        have hnone := hkeep hw
        have hcost := element.adaptation_cost
        split at hnone
        · next hlt =>
          subst hnone
          exact absurd hlt (Nat.not_lt_zero _)
        · next hge =>
          subst hnone
          refine ⟨?_, rfl⟩
          rcases hv.conversion with hc | hc
          · exact hc
          · rcases hcost with hcost | hcost
            · rw [hc, hcost]
            · rw [← hc] at hcost
              exact absurd hcost hge
      refine ⟨w, rfl, ⟨hv.stillKnown.trans hitems.stillKnown, hitems.conversion, ?_, ?_, ?_⟩,
        fun hw => (hboth hw).2⟩
      · intro hw u hu later hlater
        rcases List.mem_cons.mp hu with rfl | hu
        · exact hv.kept (hboth hw).1 later (hitems.stillKnown.trans hlater)
        · exact hitems.kept hw u hu later hlater
      · intro u hu later hlater
        rcases List.mem_cons.mp hu with rfl | hu
        · exact hv.adapted later (hitems.stillKnown.trans hlater)
        · exact hitems.adapted u hu later hlater
      · intro u hu
        rcases List.mem_cons.mp hu with rfl | hu
        · exact hv.adapts
        · exact hitems.adapts u hu

/-- What holds of each value holds of the elements of a collection. -/
theorem fitElements_fitted {items : List Value} {known known' : TypeArguments} {c : Conversion}
    (h : fitElements element element.fit items known = (some c, known')) :
    ∃ w, c = w.ofElements ∧ EachFitted element items known known' w := by
  by_cases hgeneric : ∃ name, element = .generic name
  · obtain ⟨name, rfl⟩ := hgeneric
    cases hcommon : Value.commonType items with
    | some type =>
      rw [fitElements_generic hcommon] at h
      obtain ⟨rfl, hknown, hname⟩ := fitGeneric_eq h
      have hall : ∀ v ∈ items, ∀ later, StillKnown known' later →
          (ParamType.generic name).IsTypeOf later v := by
        intro v hv later hlater
        show later.lookup name = some v.type
        rw [(type_of_commonType hcommon).2 v hv]
        exact hlater name type hname
      refine ⟨.keep, rfl, hknown, .inl rfl, fun _ => hall, ?_, ?_⟩
      · intro v hv
        cases v <;> exact hall _ hv
      · intro v hv
        cases v <;> exact .same _ _
    | none =>
      -- Without elements nothing is found out, and elements of several types do not fit.
      cases items with
      | nil =>
        obtain ⟨hc, rfl⟩ := Prod.mk.inj h
        obtain rfl := Option.some.inj hc
        exact ⟨.keep, rfl, .nil known (.inl rfl)⟩
      | cons v items =>
        simp only [fitElements, hcommon] at h
        cases h
  · have hplain : ∀ name, element ≠ .generic name := fun name hname => hgeneric ⟨name, hname⟩
    rw [fitElements_plain hplain] at h
    obtain ⟨w, hc, hfitted, -⟩ := fitEach_fitted ih (.inl rfl) h
    exact ⟨w, hc, hfitted⟩

theorem Fitted.array {items : List Value} {known known' : TypeArguments} {c : Conversion}
    (h : fitElements element element.fit items known = (some c, known')) :
    Fitted (.array element) (.array items) known known' c := by
  obtain ⟨w, rfl, hitems⟩ := fitElements_fitted ih h
  have happly : (ParamType.array element).adaptation.apply (.array items) =
      .array (items.map element.adaptation.apply) := Conversion.ofElements_apply _ items
  refine ⟨hitems.stillKnown, ?_, ?_, ?_, ?_⟩
  · rcases hitems.conversion with rfl | rfl
    · exact .inl rfl
    · exact .inr rfl
  · intro hkeep later hlater
    have hw := Conversion.eq_keep_of_ofElements hkeep
    exact ⟨items, rfl, fun v hv => hitems.kept hw v hv later hlater⟩
  · intro later hlater
    rw [happly]
    refine ⟨_, rfl, fun v hv => ?_⟩
    obtain ⟨u, hu, rfl⟩ := List.mem_map.mp hv
    exact hitems.adapted u hu later hlater
  · rw [happly]
    refine .inr ⟨items, _, rfl, rfl, ?_⟩
    rw [List.forall₂_map_right_iff, List.forall₂_same]
    exact hitems.adapts

/-- The members of an object are taken as they are. -/
theorem Fitted.object {members : List (String × Value)} {known known' : TypeArguments}
    {c : Conversion}
    (h : (fitElements element element.fit (members.map Prod.snd)).unconverted known =
      (some c, known')) :
    Fitted (.object element) (.object members) known known' c := by
  unfold Fitting.unconverted at h
  split at h
  · next c' between hfit =>
    obtain ⟨hc, rfl⟩ := Prod.mk.inj h
    split at hc
    · next hkeep =>
      obtain rfl := Option.some.inj hc
      obtain ⟨w, rfl, hmembers⟩ := fitElements_fitted ih hfit
      have hw := Conversion.eq_keep_of_ofElements (Conversion.isKeep_iff.mp hkeep)
      refine .plain hmembers.stillKnown rfl fun later hlater => ⟨members, rfl, fun m hm => ?_⟩
      exact hmembers.kept hw m.2 (List.mem_map_of_mem hm) later hlater
    · cases hc
  · cases h

end Elements

/-- Every value that fits a type without a converter is fitted to it. -/
theorem fit_fitted (type : ParamType) {v : Value} {known known' : TypeArguments} {c : Conversion}
    (h : type.fit v known = (some c, known')) : Fitted type v known known' c := by
  induction type generalizing v known known' c with
  | any => exact .of_plain h rfl fun _ => trivial
  | generic name =>
    obtain ⟨rfl, hknown, hname⟩ := fitGeneric_eq h
    exact .plain hknown rfl fun later hlater => hlater name v.type hname
  | array element ih =>
    cases v with
    | array items => exact .array ih h
    | _ => cases h
  | object element ih =>
    cases v with
    | object members => exact .object ih h
    | _ => cases h
  | float =>
    cases v with
    | float x =>
      obtain ⟨hc, rfl⟩ := Prod.mk.inj h
      obtain rfl := Option.some.inj hc
      exact ⟨.refl _, .inl rfl, fun _ _ _ => rfl, fun _ _ => rfl, .inl rfl⟩
    | int n => exact .of_adapted h nofun (fun _ => rfl) (.inr ⟨n, rfl, rfl⟩)
    | _ => cases h
  | string =>
    cases v with
    | string s =>
      -- A string is its own text.
      obtain ⟨hc, rfl⟩ := Prod.mk.inj h
      obtain rfl := Option.some.inj hc
      exact ⟨.refl _, .inl rfl, fun _ _ _ => rfl, fun _ _ => rfl, .inl rfl⟩
    | lambda l => cases h
    | _ => exact .of_adapted h nofun (fun _ => rfl) (.inr ⟨nofun, nofun, rfl⟩)
  | number =>
    cases v with
    | int n => exact .of_plain h rfl fun _ => .inl rfl
    | float x => exact .of_plain h rfl fun _ => .inr rfl
    | _ => cases h
  | host name =>
    cases v with
    | host value =>
      by_cases hname : value.typeName = name
      · subst hname
        simp only [ParamType.fit, if_true] at h
        exact .of_plain h rfl fun _ => rfl
      · simp only [ParamType.fit, hname, if_false] at h
        cases h
    | _ => cases h
  | boolean =>
    cases v with
    | bool b => exact .of_plain h rfl fun _ => rfl
    | _ => cases h
  | integer =>
    cases v with
    | int n => exact .of_plain h rfl fun _ => rfl
    | _ => cases h
  | lambda =>
    cases v with
    | lambda l => exact .of_plain h rfl fun _ => rfl
    | _ => cases h

/-! ## What has a type fits it as it is -/

theorem fitEach_keep {fit : Value → Fitting Conversion} {items : List Value} {known : TypeArguments}
    (h : ∀ v ∈ items, fit v known = (some .keep, known)) :
    fitEach fit items .keep known = (some .keep, known) := by
  induction items with
  | nil => rfl
  | cons v items ih =>
    simp only [fitEach, h v List.mem_cons_self]
    exact ih fun w hw => h w (List.mem_cons_of_mem v hw)

theorem fitElements_keep {element : ParamType} {items : List Value} {known : TypeArguments}
    (ih : ∀ v, element.IsTypeOf known v → element.fit v known = (some .keep, known))
    (h : ∀ v ∈ items, element.IsTypeOf known v) :
    fitElements element element.fit items known = (some .keep, known) := by
  by_cases hgeneric : ∃ name, element = .generic name
  · obtain ⟨name, rfl⟩ := hgeneric
    cases items with
    | nil => rfl
    | cons v items =>
      have hname : ∀ w ∈ v :: items, known.lookup name = some w.type := h
      have hv := hname v List.mem_cons_self
      -- The parameter stands for one type, so that is the type of all elements.
      have hcommon : Value.commonType (v :: items) = some v.type := by
        simp only [Value.commonType, Option.ite_none_right_eq_some, List.all_eq_true, beq_iff_eq,
          and_true]
        intro w hw
        exact Option.some.inj ((hname w (List.mem_cons_of_mem v hw)).symm.trans hv)
      rw [fitElements_generic hcommon]
      simp [fitGeneric, hv]
  · rw [fitElements_plain fun name hname => hgeneric ⟨name, hname⟩]
    exact fitEach_keep fun v hv => ih v (h v hv)

theorem fit_of_isTypeOf (type : ParamType) {v : Value} {known : TypeArguments}
    (h : type.IsTypeOf known v) : type.fit v known = (some .keep, known) := by
  induction type generalizing v with
  | any => rfl
  | generic name =>
    have hname : known.lookup name = some v.type := h
    simp [ParamType.fit, fitGeneric, hname]
  | array element ih =>
    obtain ⟨items, rfl, hitems⟩ := h
    exact fitElements_keep (fun v hv => ih hv) hitems
  | object element ih =>
    obtain ⟨members, rfl, hmembers⟩ := h
    have hall : ∀ v ∈ members.map Prod.snd, element.IsTypeOf known v :=
      List.forall_mem_map.mpr hmembers
    simp only [ParamType.fit, Fitting.unconverted, fitElements_keep (fun v hv => ih hv) hall]
    rfl
  | number =>
    rcases h with h | h <;> cases v <;> first | rfl | cases h
  | host name =>
    cases v with
    | host value =>
      obtain rfl : value.typeName = name := ValueType.host.inj h
      simp [ParamType.fit, Fitting.plain]
    | _ => cases h
  | _ => cases v <;> first | rfl | cases h

/-! ## Parameters -/

/-- What a parameter gets for a value that is given for it. -/
structure ParamType.Receives (types : TypeArguments) (type : ParamType) (given got : Value) :
    Prop where
  /-- It is accepted as it is, and nothing more is found out. -/
  accepted : ∀ converters, accept converters type got types = (some .keep, types)
  /-- It has the declared type, where each type parameter stands for the one type found for it. -/
  typed : type.IsTypeOf types got
  /-- Nothing else was changed. -/
  adapts : type.Adapts given got

theorem ParamType.Receives.of_isTypeOf {types : TypeArguments} {type : ParamType}
    {given got : Value} (htype : type.IsTypeOf types got) (hadapts : type.Adapts given got) :
    type.Receives types given got := by
  refine ⟨fun converters => ?_, htype, hadapts⟩
  unfold accept
  rw [fit_of_isTypeOf type htype]

/-- Whether a converter takes part. -/
def Conversion.usesConverter : Conversion → Bool
  | convert _ _ => true
  | elements each => each.usesConverter
  | _ => false

/-- A value that is accepted without a converter is received with its type. -/
theorem accept_receives {converters : List Converter} {type : ParamType} {v : Value}
    {known known' : TypeArguments} {c : Conversion}
    (h : accept converters type v known = (some c, known')) (hnone : c.usesConverter = false) :
    StillKnown known known' ∧
      ∀ later, StillKnown known' later → type.Receives later v (c.apply v) := by
  unfold accept at h
  split at h
  · next c' between hfit =>
    obtain ⟨hc, rfl⟩ := Prod.mk.inj h
    obtain rfl := Option.some.inj hc
    have hfitted := fit_fitted type hfit
    refine ⟨hfitted.stillKnown, fun later hlater => ?_⟩
    rcases hfitted.conversion with rfl | rfl
    · have hsame : Conversion.keep.apply v = v := by cases v <;> rfl
      rw [hsame]
      exact .of_isTypeOf (hfitted.kept rfl later hlater) (.same type v)
    · exact .of_isTypeOf (hfitted.adapted later hlater) hfitted.adapts
  · next between hfit =>
    obtain ⟨hc, rfl⟩ := Prod.mk.inj h
    obtain ⟨converter, -, rfl⟩ := Option.map_eq_some_iff.mp hc
    cases hnone

namespace Binding

/-- Whether a converter takes part. -/
def usesConverter : Binding → Bool
  | argument _ c => c.usesConverter
  | default _ => false
  | rest items => items.any fun item => item.2.usesConverter

/-- What a parameter gets by its binding: what comes of its argument or of each of its arguments,
received with the declared type, or its default. -/
def Receives (types : TypeArguments) (arguments : List Supplied) (p : Param) :
    Binding → Value → Prop
  | argument position _, got =>
    ∃ a, arguments[position]? = some a ∧ p.type.Receives types a.value got
  | default v, got => p.kind = .optional v ∧ got = v
  | rest items, got => ∃ each, got = .array each ∧
    List.Forall₂ (fun item got =>
      ∃ a, arguments[item.1]? = some a ∧ p.type.Receives types a.value got) items each

end Binding

/-- What is conveyed without a converter is received. -/
theorem Binding.Receives.of_conveys {types : TypeArguments} {arguments : List Supplied} {p : Param}
    {b : Binding} {got : Value}
    (h : b.Conveys (fun type c given got => c.usesConverter = false →
      type.Receives types given got) arguments p got)
    (hnone : b.usesConverter = false) : b.Receives types arguments p got := by
  cases b with
  | argument position c =>
    obtain ⟨a, ha, hreceives⟩ := h
    exact ⟨a, ha, hreceives hnone⟩
  | default v => exact h
  | rest items =>
    obtain ⟨each, hgot, hall⟩ := h
    have hitems : ∀ item ∈ items, item.2.usesConverter = false := by
      simpa [usesConverter] using hnone
    refine ⟨each, hgot, ((List.forall₂_and_left _ _).mpr ⟨hitems, hall⟩).imp ?_⟩
    rintro item got ⟨hitem, a, ha, hreceives⟩
    exact ⟨a, ha, hreceives hitem⟩

theorem bindParams_receives {converters : List Converter} {arguments : List Supplied}
    {surplus : List Placed} (hsurplus : ∀ x ∈ surplus, x.IsFrom arguments)
    {params : List Param} {slots : List (Option Placed)} (hlength : params.length = slots.length)
    (hslots : ∀ x, some x ∈ slots → x.IsFrom arguments) {known known' : TypeArguments}
    {bindings : List Binding}
    (h : bindParams converters surplus params slots known = some (bindings, known'))
    (hnone : bindings.any Binding.usesConverter = false) :
    StillKnown known known' ∧ ∀ later, StillKnown known' later →
      List.Forall₂ (fun p b => b.Receives later arguments p (b.value arguments)) params
        bindings := by
  obtain ⟨hknown, hall⟩ := bindParams_conveys
    (P := fun types type c given got => c.usesConverter = false → type.Receives types given got)
    (fun haccept later hlater hnone => (accept_receives haccept hnone).2 later hlater)
    hsurplus hlength hslots h
  have hbindings : ∀ b ∈ bindings, b.usesConverter = false := by simpa using hnone
  refine ⟨hknown, fun later hlater => ?_⟩
  have hboth := (List.forall₂_and_left _ _).mpr ⟨hbindings, (hall later hlater).flip⟩
  exact (hboth.imp fun b p hb => Binding.Receives.of_conveys hb.2 hb.1).flip

/-! ## Calls -/

namespace Resolution

/-- Whether a converter takes part. -/
def usesConverter (r : Resolution) : Bool :=
  r.valueConversion.usesConverter || r.bindings.any Binding.usesConverter

/-- What an overload gets for a call has the types that it declared. -/
structure BindsTyped (r : Resolution) (v : Value) (arguments : List Supplied) : Prop where
  value : r.signature.valueType.Receives r.types v (r.bind v arguments).1
  params : ∀ (i : Nat) (p : Param), r.signature.params[i]? = some p →
    ∃ binding got, r.bindings[i]? = some binding ∧ (r.bind v arguments).2[i]? = some got ∧
      Binding.Receives r.types arguments p binding got

end Resolution

/-- Whenever an overload is chosen and no converter takes part, it gets a value of its declared type
and, for each parameter that is not left to its default, arguments of the declared type. They are
accepted as they are, each type parameter stands for one type in all of them, and only whole numbers
that became doubles and other values that became texts differ from what the call supplied. -/
theorem bound_values_typed {r : Registry} {matching : NameMatching} {name : String} {v : Value}
    {arguments : List Supplied} {made : Resolution}
    (h : r.resolve matching name v arguments = some made) (hnone : made.usesConverter = false) :
    made.BindsTyped v arguments := by
  obtain ⟨s, -, hbound⟩ := Registry.exists_of_resolve h
  obtain ⟨conversion, known, claimed, slots, surplus, bindings, types, haccept, hclaim, hfill, -,
    hbind, rfl⟩ := Signature.stations_of_bindCall hbound
  obtain ⟨hvalueNone, hbindingsNone⟩ := Bool.or_eq_false_iff.mp hnone
  obtain ⟨hslots, hsurplus⟩ := isFrom_of_fillInOrder hclaim hfill
  obtain ⟨-, hvalue⟩ := accept_receives haccept hvalueNone
  obtain ⟨hknown, hparams⟩ :=
    bindParams_receives hsurplus (slotted_of_fillInOrder hclaim hfill).length_eq hslots hbind
      hbindingsNone
  refine ⟨hvalue types hknown, fun i p hi => ?_⟩
  have hall := hparams types (.refl types)
  have hlt : i < bindings.length := hall.length_eq ▸ (List.getElem?_eq_some_iff.mp hi).1
  refine ⟨bindings[i], bindings[i].value arguments, List.getElem?_eq_getElem hlt, ?_, ?_⟩
  · simp [Resolution.bind, hlt]
  · obtain ⟨hlt', rfl⟩ := List.getElem?_eq_some_iff.mp hi
    exact hall.get hlt' hlt

/-- Of the doubles in two arrays one was a whole number, and texts were found for a type parameter
that an empty array says nothing about. -/
theorem bound_values_typed_nested :
    let r := (Registry.empty 1).registerAll 1 [.computing "Mix" (.array (.array .float))
      [.needed "first" (.generic "T"), .default "fill" .integer .null,
        .remaining "more" (.array (.generic "T"))] Call.value]
    let v := Value.array [.array [.float 0.5, .int 1], .array []]
    let arguments : List Supplied :=
      [⟨some "first", .string "a"⟩, ⟨none, .int 3⟩, ⟨none, .array []⟩, ⟨none, .array [.string "b"]⟩]
    ∃ made, r.resolve .ignoreCase "Mix" v arguments = some made ∧ made.usesConverter = false ∧
      made.valueConversion = .elements (.elements .widen) ∧ made.types = [("T", .string)] ∧
      made.BindsTyped v arguments := by
  intro r v arguments
  have hfacts : ((r.resolve .ignoreCase "Mix" v arguments).map fun made =>
      (made.usesConverter, made.types)) = some (false, [("T", .string)]) := by
    decide +kernel
  obtain ⟨made, hmade, hfacts⟩ := Option.map_eq_some_iff.mp hfacts
  obtain ⟨hnone, htypes⟩ := Prod.mk.inj hfacts
  have hconversion : (r.resolve .ignoreCase "Mix" v arguments).map Resolution.valueConversion =
      some (.elements (.elements .widen)) := rfl
  rw [hmade] at hconversion
  exact ⟨made, hmade, hnone, Option.some.inj hconversion, htypes, bound_values_typed hmade hnone⟩

end Stencil
