import Stencil.Proofs.Placing

/-!
# What is bound to a call

What an overload gets for a call comes of what was supplied: of the value, of the argument that was
placed at a parameter, or of each of the arguments that were left for a list. Each of them was
accepted by itself, and what was known of the type parameters then is known later on, whether or not
it was accepted as it is (`stillKnown_accept`). So what holds of every value that is accepted holds
of all that is bound, under what is known in the end.

Main statement: `Registry.conveys_of_resolve`.
-/

namespace Stencil

/-! ## What is known of type parameters -/

/-- What was known of type parameters is known later on. -/
def StillKnown (known later : TypeArguments) : Prop :=
  ∀ name type, known.lookup name = some type → later.lookup name = some type

theorem StillKnown.refl (known : TypeArguments) : StillKnown known known :=
  fun _ _ h => h

theorem StillKnown.trans {a b c : TypeArguments} (h : StillKnown a b) (h' : StillKnown b c) :
    StillKnown a c :=
  fun name type hname => h' name type (h name type hname)

theorem stillKnown_fitGeneric (name : String) (type : ValueType) (known : TypeArguments) :
    StillKnown known (fitGeneric name type known).2 := by
  unfold fitGeneric
  split
  · exact .refl known
  · next hnone =>
    intro other type' hother
    have hne : (name == other) = false := by
      rw [beq_eq_false_iff_ne]
      rintro rfl
      rw [hnone] at hother
      cases hother
    rw [Keyed.lookup_set, hne]
    exact hother

section Elements

variable {fit : Value → Fitting Conversion} (h : ∀ v known, StillKnown known (fit v known).2)

include h

theorem stillKnown_fitEach (items : List Value) (widest : Conversion) (known : TypeArguments) :
    StillKnown known (fitEach fit items widest known).2 := by
  induction items generalizing widest known with
  | nil => exact .refl known
  | cons v items ih =>
    have hfirst := h v known
    simp only [fitEach]
    split
    · next hfit =>
      rw [hfit] at hfirst
      exact hfirst
    · next hfit =>
      rw [hfit] at hfirst
      exact hfirst.trans (ih _ _)

theorem stillKnown_fitElements (element : ParamType) (items : List Value) (known : TypeArguments) :
    StillKnown known (fitElements element fit items known).2 := by
  unfold fitElements
  split
  · exact .refl known
  · split
    · exact stillKnown_fitGeneric _ _ known
    · exact .refl known
  · exact stillKnown_fitEach h items .keep known

end Elements

/-- An attempt to fit a value forgets nothing, be it successful or not. -/
theorem stillKnown_fit (type : ParamType) (v : Value) (known : TypeArguments) :
    StillKnown known (type.fit v known).2 := by
  induction type generalizing v known with
  | generic name => exact stillKnown_fitGeneric name v.type known
  | array element ih =>
    cases v with
    | array items => exact stillKnown_fitElements ih element items known
    | _ => exact .refl known
  | object element ih =>
    cases v with
    | object members =>
      have hmembers := stillKnown_fitElements ih element (members.map Prod.snd) known
      simp only [ParamType.fit, Fitting.unconverted]
      split <;> next hfit => rw [hfit] at hmembers; exact hmembers
    | _ => exact .refl known
  | _ => cases v <;> exact .refl known

/-- A converter that steps in leaves what the attempt before it has left. -/
theorem accept_snd (converters : List Converter) (type : ParamType) (v : Value)
    (known : TypeArguments) : (accept converters type v known).2 = (type.fit v known).2 := by
  unfold accept
  split <;> next hfit => rw [hfit]

theorem stillKnown_accept {converters : List Converter} {type : ParamType} {v : Value}
    {known known' : TypeArguments} {c? : Option Conversion}
    (h : accept converters type v known = (c?, known')) : StillKnown known known' := by
  obtain rfl : known' = (type.fit v known).2 := by rw [← accept_snd converters, h]
  exact stillKnown_fit type v known

/-! ## What comes of what was supplied -/

/-- A relation between a declared type, the conversion of a value to it, the value that was given
and the one that is bound. -/
abbrev Conveying := ParamType → Conversion → Value → Value → Prop

/-- What a parameter gets by its binding comes of its argument, or of each of its arguments, as the
relation says. Or else it is its default. -/
def Binding.Conveys (P : Conveying) (arguments : List Supplied) (p : Param) : Binding → Value → Prop
  | argument position c, got => ∃ a, arguments[position]? = some a ∧ P p.type c a.value got
  | default v, got => p.kind = .optional v ∧ got = v
  | rest items, got => ∃ each, got = .array each ∧
    List.Forall₂ (fun item got => ∃ a, arguments[item.1]? = some a ∧ P p.type item.2 a.value got)
      items each

/-- All that an overload gets for a call comes of what was supplied as the relation says. -/
structure Resolution.Conveys (P : Conveying) (r : Resolution) (v : Value)
    (arguments : List Supplied) : Prop where
  value : P r.signature.valueType r.valueConversion v (r.bind v arguments).1
  params : ∀ (i : Nat) (p : Param), r.signature.params[i]? = some p →
    ∃ binding got, r.bindings[i]? = some binding ∧ (r.bind v arguments).2[i]? = some got ∧
      binding.Conveys P arguments p got

section Conveying

variable {P : TypeArguments → Conveying} {converters : List Converter} {arguments : List Supplied}
  (hP : ∀ {type v known c known'}, accept converters type v known = (some c, known') →
    ∀ later, StillKnown known' later → P later type c v (c.apply v))

include hP

/-- An argument that was accepted where it was placed is conveyed by way of its position. -/
theorem conveys_of_accept {type : ParamType} {x : Placed} (hx : x.IsFrom arguments)
    {known known' : TypeArguments} {c : Conversion}
    (h : accept converters type x.value known = (some c, known')) {later : TypeArguments}
    (hlater : StillKnown known' later) :
    ∃ a, arguments[x.position]? = some a ∧
      P later type c a.value (c.apply (Binding.valueAt arguments x.position)) := by
  have haccepted := hP h later hlater
  have hat := hx.valueAt
  obtain ⟨a, ha, hvalue⟩ := hx
  refine ⟨a, ha, ?_⟩
  rw [hat, hvalue]
  exact haccepted

theorem acceptAll_conveys {type : ParamType} {queue : List Placed}
    (hqueue : ∀ x ∈ queue, x.IsFrom arguments) {known known' : TypeArguments}
    {items : List (Nat × Conversion)}
    (h : acceptAll converters type queue known = some (items, known')) :
    StillKnown known known' ∧ ∀ later, StillKnown known' later → ∀ item ∈ items,
      ∃ a, arguments[item.1]? = some a ∧
        P later type item.2 a.value (item.2.apply (Binding.valueAt arguments item.1)) := by
  induction queue generalizing known items with
  | nil =>
    obtain ⟨rfl, rfl⟩ := Prod.mk.inj (Option.some.inj h)
    exact ⟨.refl known, fun later _ item hitem => by cases hitem⟩
  | cons x queue ih =>
    obtain ⟨c, between, rest, haccept, hrest, rfl⟩ := exists_of_acceptAll_cons h
    obtain ⟨hknown, hall⟩ := ih (fun y hy => hqueue y (List.mem_cons_of_mem x hy)) hrest
    refine ⟨(stillKnown_accept haccept).trans hknown, fun later hlater item hitem => ?_⟩
    rcases List.mem_cons.mp hitem with rfl | hitem
    · exact conveys_of_accept hP (hqueue x List.mem_cons_self) haccept (hknown.trans hlater)
    · exact hall later hlater item hitem

theorem Param.bind_conveys {p : Param} {surplus : List Placed} {slot : Option Placed}
    (hsurplus : ∀ x ∈ surplus, x.IsFrom arguments) (hslot : ∀ x ∈ slot, x.IsFrom arguments)
    {known known' : TypeArguments} {b : Binding}
    (h : p.bind converters surplus slot known = some (b, known')) :
    StillKnown known known' ∧ ∀ later, StillKnown known' later →
      b.Conveys (P later) arguments p (b.value arguments) := by
  rcases Param.bind_cases h with ⟨-, items, rfl, hitems⟩ | ⟨-, x, c, rfl, rfl, haccept⟩ |
    ⟨v, hkind, -, rfl, rfl⟩
  · obtain ⟨hknown, hall⟩ := acceptAll_conveys hP hsurplus hitems
    refine ⟨hknown, fun later hlater => ⟨_, rfl, ?_⟩⟩
    rw [List.forall₂_map_right_iff, List.forall₂_same]
    exact hall later hlater
  · exact ⟨stillKnown_accept haccept, fun later hlater =>
      conveys_of_accept hP (hslot x rfl) haccept hlater⟩
  · exact ⟨.refl _, fun later _ => ⟨hkind, rfl⟩⟩

/-- What one parameter finds out is still known when the last one is bound. -/
theorem bindParams_conveys {surplus : List Placed} (hsurplus : ∀ x ∈ surplus, x.IsFrom arguments)
    {params : List Param} {slots : List (Option Placed)} (hlength : params.length = slots.length)
    (hslots : ∀ x, some x ∈ slots → x.IsFrom arguments) {known known' : TypeArguments}
    {bindings : List Binding}
    (h : bindParams converters surplus params slots known = some (bindings, known')) :
    StillKnown known known' ∧ ∀ later, StillKnown known' later →
      List.Forall₂ (fun p b => b.Conveys (P later) arguments p (b.value arguments)) params
        bindings := by
  induction params generalizing slots known bindings with
  | nil =>
    obtain ⟨rfl, rfl⟩ := Prod.mk.inj (Option.some.inj h)
    exact ⟨.refl known, fun _ _ => .nil⟩
  | cons p params ih =>
    cases slots with
    | nil => cases hlength
    | cons slot slots =>
      obtain ⟨b, between, bindings', hfirst, hrest, rfl⟩ := exists_of_bindParams_cons h
      obtain ⟨hknown, hb⟩ := Param.bind_conveys hP hsurplus
        (fun x hx => hslots x (hx ▸ List.mem_cons_self)) hfirst
      obtain ⟨hknown', hbindings⟩ := ih (Nat.succ.inj hlength)
        (fun x hx => hslots x (List.mem_cons_of_mem slot hx)) hrest
      exact ⟨hknown.trans hknown', fun later hlater =>
        .cons (hb later (hknown'.trans hlater)) (hbindings later hlater)⟩

end Conveying

/-- What holds of every value that is accepted holds of all that is bound to a call. -/
theorem Registry.conveys_of_resolve {P : TypeArguments → Conveying} {r : Registry}
    (hP : ∀ {type v known c known'}, accept r.converters type v known = (some c, known') →
      ∀ later, StillKnown known' later → P later type c v (c.apply v))
    {matching : NameMatching} {name : String} {v : Value} {arguments : List Supplied}
    {made : Resolution} (h : r.resolve matching name v arguments = some made) :
    made.Conveys (P made.types) v arguments := by
  obtain ⟨s, -, hbound⟩ := Registry.exists_of_resolve h
  obtain ⟨conversion, known, claimed, slots, surplus, bindings, types, haccept, hclaim, hfill, -,
    hbind, rfl⟩ := Signature.stations_of_bindCall hbound
  obtain ⟨hslots, hsurplus⟩ := isFrom_of_fillInOrder hclaim hfill
  have hlength := (slotted_of_fillInOrder hclaim hfill).length_eq
  obtain ⟨hknown, hparams⟩ := bindParams_conveys hP hsurplus hlength hslots hbind
  have hall := hparams types (.refl types)
  refine ⟨hP haccept types hknown, fun i p hi => ?_⟩
  obtain ⟨hlt, rfl⟩ := List.getElem?_eq_some_iff.mp hi
  have hlt' : i < bindings.length := hall.length_eq ▸ hlt
  refine ⟨bindings[i], bindings[i].value arguments, List.getElem?_eq_getElem hlt', ?_, ?_⟩
  · simp [Resolution.bind, hlt']
  · exact hall.get hlt hlt'

end Stencil
