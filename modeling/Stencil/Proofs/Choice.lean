import Mathlib.Data.List.Forall2
import Stencil.Formatter.Memory

/-!
# What a choice depends on

Choosing an overload looks at values through `accept` only: whether, and by which conversion, a
value fits a declared type. So two calls get the same choice as soon as their values fit alike.

The argument follows an argument of the call through its stations. `claimByName` and `fillInOrder`
move arguments without a look at their values (`claimByName_related`, `fillInOrder_related`), and
`bindParams` fits each where it was placed (`bindParams_related`). What is known of a call that
could be bound is said once for each station (`Param.bind_cases`, `exists_of_bindParams_cons`,
`Signature.stations_of_bindCall`).

Main statement: `Registry.resolve_congr`, calls of one shape whose values fit all declared types
alike mean the same overload, bound in the same way.
-/

namespace Stencil

/-- Each type of a class takes both values in the same way, whatever is known about type
parameters. -/
def FitAlike (converters : List Converter) (types : ParamType → Prop) (v w : Value) : Prop :=
  ∀ type, types type → ∀ known, accept converters type v known = accept converters type w known

/-- Values of one type that fit alike without converters fit alike: a converter is asked about the
type only. -/
theorem accept_congr {converters : List Converter} {type : ParamType} {v w : Value}
    (htype : v.type = w.type) (hfit : ∀ known, type.fit v known = type.fit w known)
    (known : TypeArguments) :
    accept converters type v known = accept converters type w known := by
  unfold accept
  rw [hfit known, htype]

/-- Elements that fit alike one by one fit alike as a whole. -/
theorem fitEach_congr {fit : Value → Fitting Conversion} {items items' : List Value}
    (h : List.Forall₂ (fun v w => ∀ known, fit v known = fit w known) items items')
    (widest : Conversion) (known : TypeArguments) :
    fitEach fit items widest known = fitEach fit items' widest known := by
  induction h generalizing widest known with
  | nil => rfl
  | cons hvw _ ih => simp only [fitEach, hvw, ih]

/-! ## Optional results -/

section Related

variable {α β α' β' : Type} {R : α → β → Prop} {S : α' → β' → Prop}

theorem related_bind {x : Option α} {y : Option β} (hxy : Option.Rel R x y) {f : α → Option α'}
    {g : β → Option β'} (hfg : ∀ a b, R a b → Option.Rel S (f a) (g b)) :
    Option.Rel S (x.bind f) (y.bind g) := by
  cases hxy with
  | none => exact .none
  | some hab => exact hfg _ _ hab

theorem related_map {x : Option α} {y : Option β} (hxy : Option.Rel R x y) {f : α → α'}
    {g : β → β'} (hfg : ∀ a b, R a b → S (f a) (g b)) : Option.Rel S (x.map f) (y.map g) := by
  cases hxy with
  | none => exact .none
  | some hab => exact .some (hfg _ _ hab)

theorem related_or {x x' : Option α} {y y' : Option β} (h : Option.Rel R x y)
    (h' : Option.Rel R x' y') : Option.Rel R (x.or x') (y.or y') := by
  cases h with
  | none => exact h'
  | some hab => exact .some hab

end Related

/-! ## Placing

Arguments are placed without a look at their values. So what relates the arguments of two calls one
by one still relates them where they were placed. -/

section Placing

variable {R : Placed → Placed → Prop}

/-- Arguments with the same name that are related. -/
def NamedBy (R : Placed → Placed → Prop) (a b : Option String × Placed) : Prop :=
  a.1 = b.1 ∧ R a.2 b.2

/-- What two parameters were given: nothing, or related arguments. -/
abbrev SlotsBy (R : Placed → Placed → Prop) :
    List (Option Placed) → List (Option Placed) → Prop :=
  List.Forall₂ (Option.Rel R)

/-- Arguments given by position, in order. -/
abbrev queueOf (placed : List (Option String × Placed)) : List Placed :=
  (placed.filter fun (name, _) => name.isNone).map Prod.snd

theorem slotsBy_nothing (params : List Param) :
    SlotsBy R (params.map fun _ => none) (params.map fun _ => none) := by
  induction params with
  | nil => exact .nil
  | cons _ _ ih => exact .cons .none ih

/-- Related slots are taken in the same places. -/
theorem isSome_of_related {a b : Option Placed} (h : Option.Rel R a b) : a.isSome = b.isSome := by
  cases h <;> rfl

theorem any_isSome_getElem?_related {xs ys : List (Option Placed)} (h : SlotsBy R xs ys)
    (i : Nat) : xs[i]?.any Option.isSome = ys[i]?.any Option.isSome := by
  induction h generalizing i with
  | nil => rfl
  | cons hab _ ih =>
    cases i with
    | zero => simpa using isSome_of_related hab
    | succ i => simpa using ih i

theorem set_related {xs ys : List (Option Placed)} (h : SlotsBy R xs ys) {a b : Placed}
    (hab : R a b) (i : Nat) : SlotsBy R (xs.set i (some a)) (ys.set i (some b)) := by
  induction h generalizing i with
  | nil => exact .nil
  | cons hxy hrest ih =>
    cases i with
    | zero => exact .cons (.some hab) hrest
    | succ i => exact .cons hxy (ih i)

/-- Claiming by name looks at names only. -/
theorem claimByName_related (matching : NameMatching) (params : List Param)
    {as bs : List (Option String × Placed)} (h : List.Forall₂ (NamedBy R) as bs)
    {xs ys : List (Option Placed)} (hslots : SlotsBy R xs ys) :
    Option.Rel (SlotsBy R) (claimByName matching params as xs)
      (claimByName matching params bs ys) := by
  induction h generalizing xs ys with
  | nil => exact .some hslots
  | @cons a b as bs hab _ ih =>
    obtain ⟨name, a⟩ := a
    obtain ⟨other, b⟩ := b
    obtain ⟨rfl, hrelated⟩ : name = other ∧ R a b := hab
    cases name with
    | none => exact ih hslots
    | some name =>
      simp only [claimByName]
      -- A name leads both to the same slot, which is free for both or for neither.
      cases params.findIdx? (Param.answersTo matching name) with
      | none => exact .none
      | some target =>
        simp only [Option.bind_eq_bind, Option.bind_some, any_isSome_getElem?_related hslots target]
        split
        · exact .none
        · exact ih (set_related hslots hrelated target)

/-- Filling in order looks at the slots that are taken only. -/
theorem fillInOrder_related (params : List Param) {xs ys : List (Option Placed)}
    (hslots : SlotsBy R xs ys) {as bs : List Placed} (h : List.Forall₂ R as bs) :
    SlotsBy R (fillInOrder params xs as).1 (fillInOrder params ys bs).1 ∧
    List.Forall₂ R (fillInOrder params xs as).2 (fillInOrder params ys bs).2 := by
  induction params generalizing xs ys as bs with
  | nil => exact ⟨hslots, h⟩
  | cons p params ih =>
    cases hslots with
    | nil => exact ⟨.nil, h⟩
    | cons hxy hrest =>
      -- A slot that is taken keeps its argument, and the queue waits for the next one.
      simp only [fillInOrder, isSome_of_related hxy]
      split
      · exact ⟨.cons hxy (ih hrest h).1, (ih hrest h).2⟩
      · cases h with
        | nil => exact ⟨.cons .none hrest, .nil⟩
        | cons hab has => exact ⟨.cons (.some hab) (ih hrest has).1, (ih hrest has).2⟩

theorem isEmpty_of_related {as bs : List Placed} (h : List.Forall₂ R as bs) :
    as.isEmpty = bs.isEmpty := by
  cases h <;> rfl

theorem queueOf_related {as bs : List (Option String × Placed)}
    (h : List.Forall₂ (NamedBy R) as bs) : List.Forall₂ R (queueOf as) (queueOf bs) := by
  induction h with
  | nil => exact .nil
  | cons hab _ ih =>
    simp only [queueOf, List.filter_cons, hab.1]
    split
    · exact .cons hab.2 ih
    · exact ih

end Placing

/-! ## Binding -/

section Binding

variable {converters : List Converter} {types : ParamType → Prop}
  {R : Placed → Placed → Prop} {Q : Nat → Nat → Prop}

/-- Bindings that differ in the positions of the arguments only, and by related ones. -/
inductive Binding.Moved (Q : Nat → Nat → Prop) : Binding → Binding → Prop where
  | argument {i j : Nat} {c : Conversion} (h : Q i j) : Moved Q (.argument i c) (.argument j c)
  | default {v : Value} : Moved Q (.default v) (.default v)
  | rest {xs ys : List (Nat × Conversion)}
    (h : List.Forall₂ (fun x y => Q x.1 y.1 ∧ x.2 = y.2) xs ys) : Moved Q (.rest xs) (.rest ys)

/-- Bindings of the same arguments are the same. -/
theorem Binding.Moved.eq {b b' : Binding} (h : b.Moved Eq b') : b = b' := by
  cases h with
  | argument h => rw [h]
  | default => rfl
  | rest h =>
    congr 1
    exact List.forall₂_eq_eq_eq ▸ h.imp fun _ _ h => Prod.ext h.1 h.2

theorem Binding.Moved.cost_eq {b b' : Binding} (h : b.Moved Q b') : b.cost = b'.cost := by
  cases h with
  | argument h => rfl
  | default => rfl
  | @rest xs ys h =>
    unfold Binding.cost
    -- The sum is taken from the left, so it is followed from any number on.
    suffices ∀ n, xs.foldl (fun n x => n + x.2.cost) n = ys.foldl (fun n x => n + x.2.cost) n from
      this 0
    induction h with
    | nil => exact fun n => rfl
    | cons hxy _ ih => exact fun n => by rw [List.foldl_cons, List.foldl_cons, hxy.2, ih]

theorem Binding.Moved.slack_eq {b b' : Binding} (h : b.Moved Q b') : b.slack = b'.slack := by
  cases h <;> rfl

theorem cost_eq_of_moved {bs bs' : List Binding} (h : List.Forall₂ (Binding.Moved Q) bs bs') :
    bs.map Binding.slack = bs'.map Binding.slack ∧
    ∀ n, bs.foldl (fun n b => n + b.cost) n = bs'.foldl (fun n b => n + b.cost) n := by
  induction h with
  | nil => exact ⟨rfl, fun n => rfl⟩
  | cons hb _ ih =>
    refine ⟨by rw [List.map_cons, List.map_cons, hb.slack_eq, ih.1], fun n => ?_⟩
    rw [List.foldl_cons, List.foldl_cons, hb.cost_eq, ih.2]

/-- What is asked of related arguments: related positions, and values that fit alike. -/
abbrev BindsBy (converters : List Converter) (types : ParamType → Prop) (Q : Nat → Nat → Prop)
    (R : Placed → Placed → Prop) : Prop :=
  ∀ a b, R a b → Q a.position b.position ∧ FitAlike converters types a.value b.value

theorem acceptAll_related (hR : BindsBy converters types Q R) {type : ParamType}
    (htype : types type) {as bs : List Placed} (h : List.Forall₂ R as bs) (known : TypeArguments) :
    Option.Rel (fun x y => List.Forall₂ (fun i j => Q i.1 j.1 ∧ i.2 = j.2) x.1 y.1 ∧ x.2 = y.2)
      (acceptAll converters type as known) (acceptAll converters type bs known) := by
  induction h generalizing known with
  | nil => exact .some ⟨.nil, rfl⟩
  | @cons a b as bs hab _ ih =>
    obtain ⟨hposition, hvalue⟩ := hR a b hab
    simp only [acceptAll, hvalue type htype known]
    split
    · exact related_bind (ih _) fun x y hrest => .some ⟨.cons ⟨hposition, rfl⟩ hrest.1, hrest.2⟩
    · exact .none

theorem Param.bind_related (hR : BindsBy converters types Q R) {p : Param} (hp : types p.type)
    {as bs : List Placed} (h : List.Forall₂ R as bs) {x y : Option Placed}
    (hxy : Option.Rel R x y) (known : TypeArguments) :
    Option.Rel (fun x y => x.1.Moved Q y.1 ∧ x.2 = y.2) (p.bind converters as x known)
      (p.bind converters bs y known) := by
  unfold Param.bind
  cases hkind : p.kind with
  | rest =>
    exact related_bind (acceptAll_related hR hp h known) fun x y hitems =>
      .some ⟨.rest hitems.1, hitems.2⟩
  | required =>
    cases hxy with
    | none => exact .none
    | @some a b hab =>
      simp only [(hR a b hab).2 p.type hp known]
      split
      · exact .some ⟨.argument (hR a b hab).1, rfl⟩
      · exact .none
  | optional value =>
    cases hxy with
    | none => exact .some ⟨.default, rfl⟩
    | @some a b hab =>
      simp only [(hR a b hab).2 p.type hp known]
      split
      · exact .some ⟨.argument (hR a b hab).1, rfl⟩
      · exact .none

theorem bindParams_related (hR : BindsBy converters types Q R) {params : List Param}
    (hparams : ∀ p ∈ params, types p.type) {as bs : List Placed} (h : List.Forall₂ R as bs)
    {xs ys : List (Option Placed)} (hslots : SlotsBy R xs ys) (known : TypeArguments) :
    Option.Rel (fun x y => List.Forall₂ (Binding.Moved Q) x.1 y.1 ∧ x.2 = y.2)
      (bindParams converters as params xs known) (bindParams converters bs params ys known) := by
  induction params generalizing xs ys known with
  | nil => exact .some ⟨.nil, rfl⟩
  | cons p params ih =>
    cases hslots with
    | nil => exact .some ⟨.nil, rfl⟩
    | cons hxy hrest =>
      refine related_bind (Param.bind_related hR (hparams p List.mem_cons_self) h hxy known) ?_
      rintro ⟨b, types⟩ ⟨b', types'⟩ ⟨hb, rfl⟩
      refine related_bind (ih (fun q hq => hparams q (List.mem_cons_of_mem p hq)) hrest types) ?_
      rintro ⟨bs, types⟩ ⟨bs', types'⟩ ⟨hbs, rfl⟩
      exact .some ⟨.cons hb hbs, rfl⟩

end Binding

/-! ## What bindings come from -/

section Origins

variable {converters : List Converter} {types types' : TypeArguments}

/-- Arguments that were accepted were accepted one after the other. -/
theorem exists_of_acceptAll_cons {type : ParamType} {a : Placed} {rest : List Placed}
    {items : List (Nat × Conversion)}
    (h : acceptAll converters type (a :: rest) types = some (items, types')) :
    ∃ c between items', accept converters type a.value types = (some c, between) ∧
      acceptAll converters type rest between = some (items', types') ∧
      items = (a.position, c) :: items' := by
  unfold acceptAll at h
  split at h
  · next c between haccept =>
    simp only [Option.bind_eq_bind, Option.bind_eq_some_iff] at h
    obtain ⟨⟨items', known⟩, hrest, h⟩ := h
    obtain ⟨rfl, rfl⟩ := Prod.mk.inj (Option.some.inj h)
    exact ⟨c, between, items', haccept, hrest, rfl⟩
  · cases h

/-- The three ways in which a parameter is bound: to all that is left, to the argument in its slot,
or to its default if nothing is there. -/
theorem Param.bind_cases {surplus : List Placed} {p : Param} {slot : Option Placed}
    {binding : Binding} (h : p.bind converters surplus slot types = some (binding, types')) :
    (p.isRest = true ∧ ∃ items, binding = .rest items ∧
      acceptAll converters p.type surplus types = some (items, types')) ∨
    (p.isRest = false ∧ ∃ a c, slot = some a ∧ binding = .argument a.position c ∧
      accept converters p.type a.value types = (some c, types')) ∨
    ∃ v, p.kind = .optional v ∧ slot = none ∧ binding = .default v ∧ types' = types := by
  unfold Param.bind at h
  unfold Param.isRest
  split at h
  · next hkind =>
    simp only [Option.bind_eq_bind, Option.bind_eq_some_iff] at h
    obtain ⟨⟨items, known⟩, hitems, h⟩ := h
    obtain ⟨rfl, rfl⟩ := Prod.mk.inj (Option.some.inj h)
    exact .inl ⟨by rw [hkind], items, rfl, hitems⟩
  · next a hkind =>
    split at h
    · next c known haccept =>
      obtain ⟨rfl, rfl⟩ := Prod.mk.inj (Option.some.inj h)
      refine .inr (.inl ⟨?_, a, c, rfl, rfl, haccept⟩)
      cases hp : p.kind with
      | rest => exact absurd hp hkind
      | required => rfl
      | optional value => rfl
    · cases h
  · next value hkind =>
    obtain ⟨rfl, rfl⟩ := Prod.mk.inj (Option.some.inj h)
    exact .inr (.inr ⟨value, hkind, rfl, rfl, rfl⟩)
  · cases h

/-- Parameters that were bound were bound one after the other. -/
theorem exists_of_bindParams_cons {surplus : List Placed} {p : Param} {params : List Param}
    {slot : Option Placed} {slots : List (Option Placed)} {bindings : List Binding}
    (h : bindParams converters surplus (p :: params) (slot :: slots) types =
      some (bindings, types')) :
    ∃ binding between bindings', p.bind converters surplus slot types = some (binding, between) ∧
      bindParams converters surplus params slots between = some (bindings', types') ∧
      bindings = binding :: bindings' := by
  simp only [bindParams, Option.bind_eq_bind, Option.bind_eq_some_iff] at h
  obtain ⟨⟨binding, between⟩, hfirst, ⟨bindings', known⟩, hrest, h⟩ := h
  obtain ⟨rfl, rfl⟩ := Prod.mk.inj (Option.some.inj h)
  exact ⟨binding, between, bindings', hfirst, hrest, rfl⟩

end Origins

/-! ## Choosing -/

/-- The types of the parameters of an overload. -/
def Signature.Takes (s : Signature) (type : ParamType) : Prop :=
  ∃ p ∈ s.params, p.type = type

/-- Choices of one overload that convert in the same way and differ in the positions of the
arguments only. -/
structure Resolution.Moved (Q : Nat → Nat → Prop) (r r' : Resolution) : Prop where
  signature : r.signature = r'.signature
  valueConversion : r.valueConversion = r'.valueConversion
  bindings : List.Forall₂ (Binding.Moved Q) r.bindings r'.bindings
  types : r.types = r'.types

theorem Resolution.Moved.rank_eq {Q : Nat → Nat → Prop} {r r' : Resolution} (h : r.Moved Q r')
    (position : Nat) : r.rank position = r'.rank position := by
  obtain ⟨s, c, bindings, types, shape⟩ := r
  obtain ⟨s', c', bindings', types', shape'⟩ := r'
  obtain ⟨rfl, rfl, hbindings, rfl⟩ := h
  obtain ⟨hslack, hcost⟩ := cost_eq_of_moved hbindings
  unfold Resolution.rank Resolution.slack Resolution.cost
  rw [hslack, hcost]

/-- Choices that differ in nothing, their shapes included, are the same. -/
theorem Resolution.Moved.eq_of_shape {r r' : Resolution} (h : r.Moved Eq r')
    (hshape : r.shape = r'.shape) : r = r' := by
  obtain ⟨s, c, bindings, types, shape⟩ := r
  obtain ⟨s', c', bindings', types', shape'⟩ := r'
  obtain ⟨rfl, rfl, hbindings, rfl⟩ := h
  obtain rfl : shape = shape' := hshape
  have : bindings = bindings' := List.forall₂_eq_eq_eq ▸ hbindings.imp fun _ _ hb => hb.eq
  rw [this]

/-- Calls whose arguments claim related parameters, and wait for the others in related queues, are
bound to an overload in the same way. -/
theorem Signature.bindCall_related {s : Signature} {converters : List Converter}
    {shape shape' : CallShape} {v w : Value} (hvalue : FitAlike converters (· = s.valueType) v w)
    {R : Placed → Placed → Prop} {Q : Nat → Nat → Prop} (hR : BindsBy converters s.Takes Q R)
    {as bs : List Supplied}
    (hclaim : Option.Rel (SlotsBy R)
      (claimByName shape.matching s.params (placedFrom 0 as) (s.params.map fun _ => none))
      (claimByName shape'.matching s.params (placedFrom 0 bs) (s.params.map fun _ => none)))
    (hqueue : List.Forall₂ R (queueOf (placedFrom 0 as)) (queueOf (placedFrom 0 bs))) :
    Option.Rel (Resolution.Moved Q) (s.bindCall converters shape v as)
      (s.bindCall converters shape' w bs) := by
  unfold Signature.bindCall
  rw [hvalue s.valueType rfl]
  split
  · exact .none
  · next conversion known _ =>
    refine related_bind hclaim fun xs ys hslots => ?_
    obtain ⟨hfilled, hsurplus⟩ := fillInOrder_related s.params hslots hqueue
    simp only [isEmpty_of_related hsurplus]
    split
    · exact .none
    · refine related_bind (bindParams_related hR (fun p hp => ⟨p, hp, rfl⟩) hsurplus hfilled known)
        fun x y hxy => ?_
      exact .some ⟨rfl, rfl, hxy.1, hxy.2⟩

/-- Arguments of the same name that fit alike. -/
def Supplied.Alike (converters : List Converter) (types : ParamType → Prop) (a b : Supplied) :
    Prop :=
  a.name = b.name ∧ FitAlike converters types a.value b.value

/-- Arguments at the same position that fit alike. -/
def Placed.Alike (converters : List Converter) (types : ParamType → Prop) (a b : Placed) : Prop :=
  a.position = b.position ∧ FitAlike converters types a.value b.value

theorem placedFrom_related {converters : List Converter} {types : ParamType → Prop}
    {as bs : List Supplied} (h : List.Forall₂ (Supplied.Alike converters types) as bs)
    (start : Nat) : List.Forall₂ (NamedBy (Placed.Alike converters types)) (placedFrom start as)
      (placedFrom start bs) := by
  induction h generalizing start with
  | nil => exact .nil
  | cons hab _ ih => exact .cons ⟨hab.1, rfl, hab.2⟩ (ih (start + 1))

theorem Signature.bindCall_congr {s : Signature} {converters : List Converter}
    {shape shape' : CallShape} (hmatching : shape.matching = shape'.matching) {v w : Value}
    (hvalue : FitAlike converters (· = s.valueType) v w) {as bs : List Supplied}
    (h : List.Forall₂ (Supplied.Alike converters s.Takes) as bs) :
    Option.Rel (Resolution.Moved Eq) (s.bindCall converters shape v as)
      (s.bindCall converters shape' w bs) := by
  have hplaced := placedFrom_related h 0
  have hR : BindsBy converters s.Takes Eq (Placed.Alike converters s.Takes) := fun a b hab => hab
  refine bindCall_related hvalue hR ?_ (queueOf_related hplaced)
  rw [hmatching]
  exact claimByName_related _ s.params hplaced (slotsBy_nothing s.params)

/-- Overloads that declare the same types are bound in the same way, whatever they do, and of the
shape of a call only the matching matters. -/
theorem Signature.bindCall_map {s s' : Signature} (hvalue : s'.valueType = s.valueType)
    (hparams : s'.params = s.params) {shape shape' : CallShape}
    (hmatching : shape'.matching = shape.matching) {f : Resolution → Resolution}
    (hf : ∀ conversion bindings types, f ⟨s, conversion, bindings, types, shape⟩ =
      ⟨s', conversion, bindings, types, shape'⟩)
    (converters : List Converter) (v : Value) (arguments : List Supplied) :
    s'.bindCall converters shape' v arguments =
      (s.bindCall converters shape v arguments).map f := by
  unfold bindCall Signature.hasRest
  rw [hvalue, hparams, hmatching]
  cases accept converters s.valueType v [] with
  | mk conversion types =>
    cases conversion with
    | none => rfl
    | some conversion =>
      simp only [Option.bind_eq_bind, Option.map_bind, Function.comp_def]
      congr 1
      funext claimed
      split
      · rfl
      · simp only [Option.map_bind, Function.comp_def, Option.pure_def, Option.map_some, hf]

/-- The stations of a call that could be bound to an overload: its value, its arguments with a name
and those without, and the parameters. Without a parameter for what is left nothing may be left. -/
theorem Signature.stations_of_bindCall {s : Signature} {converters : List Converter}
    {shape : CallShape} {v : Value} {arguments : List Supplied} {made : Resolution}
    (h : s.bindCall converters shape v arguments = some made) :
    ∃ conversion known claimed slots surplus bindings types,
      accept converters s.valueType v [] = (some conversion, known) ∧
      claimByName shape.matching s.params (placedFrom 0 arguments) (s.params.map fun _ => none) =
        some claimed ∧
      fillInOrder s.params claimed (queueOf (placedFrom 0 arguments)) = (slots, surplus) ∧
      (surplus = [] ∨ s.hasRest = true) ∧
      bindParams converters surplus s.params slots known = some (bindings, types) ∧
      made = ⟨s, conversion, bindings, types, shape⟩ := by
  unfold Signature.bindCall at h
  split at h
  · cases h
  · next conversion known haccept =>
    simp only [Option.bind_eq_bind, Option.bind_eq_some_iff] at h
    obtain ⟨claimed, hclaim, h⟩ := h
    split at h
    · cases h
    · next hsurplus =>
      obtain ⟨⟨bindings, types⟩, hbind, h⟩ := Option.bind_eq_some_iff.mp h
      refine ⟨conversion, known, claimed, _, _, bindings, types, haccept, hclaim, rfl, ?_, hbind,
        (Option.some.inj h).symm⟩
      simpa [Classical.or_iff_not_imp_left] using hsurplus

/-- What is known of an overload that could be bound. -/
theorem Signature.bindCall_eq_some {s : Signature} {converters : List Converter}
    {shape : CallShape} {v : Value} {arguments : List Supplied} {made : Resolution}
    (h : s.bindCall converters shape v arguments = some made) :
    ∃ conversion known surplus slots bindings types,
      accept converters s.valueType v [] = (some conversion, known) ∧
      bindParams converters surplus s.params slots known = some (bindings, types) ∧
      made = ⟨s, conversion, bindings, types, shape⟩ := by
  obtain ⟨conversion, known, _, slots, surplus, bindings, types, haccept, -, -, -, hbind, hmade⟩ :=
    stations_of_bindCall h
  exact ⟨conversion, known, surplus, slots, bindings, types, haccept, hbind, hmade⟩

theorem mem_of_bestOf {candidates : List (Nat × Resolution)} {best : Nat × Resolution}
    (h : bestOf candidates = some best) : best ∈ candidates := by
  induction candidates generalizing best with
  | nil => cases h
  | cons c rest ih =>
    obtain ⟨i, r⟩ := c
    unfold bestOf at h
    split at h
    · obtain rfl := Option.some.inj h
      exact List.mem_cons_self
    · next j found hrest =>
      split at h <;> obtain rfl := Option.some.inj h
      · exact List.mem_cons_of_mem _ (ih hrest)
      · exact List.mem_cons_self

/-- The best of overloads depends on their ranks only. -/
theorem bestOf_related {R : Resolution → Resolution → Prop}
    (hR : ∀ x y, R x y → ∀ position, x.rank position = y.rank position)
    {xs ys : List (Nat × Resolution)}
    (h : List.Forall₂ (fun x y => x.1 = y.1 ∧ R x.2 y.2) xs ys) :
    Option.Rel (fun x y => x.1 = y.1 ∧ R x.2 y.2) (bestOf xs) (bestOf ys) := by
  induction h with
  | nil => exact .none
  | @cons x y xs ys hxy _ ih =>
    obtain ⟨i, r⟩ := x
    obtain ⟨j, r'⟩ := y
    obtain ⟨rfl, hr⟩ : i = j ∧ R r r' := hxy
    unfold bestOf
    generalize bestOf xs = best at ih ⊢
    generalize bestOf ys = best' at ih ⊢
    cases ih with
    | none => exact .some ⟨rfl, hr⟩
    | @some best best' hbest =>
      obtain ⟨k, best⟩ := best
      obtain ⟨k', best'⟩ := best'
      obtain ⟨rfl, hbest⟩ : k = k' ∧ R best best' := hbest
      simp only [hR best best' hbest, hR r r' hr]
      split
      · exact .some ⟨rfl, hbest⟩
      · exact .some ⟨rfl, hr⟩

namespace Registry

/-- Of overloads that are bound alike one by one the same is chosen. -/
theorem choose_related {r r' : Registry} {shape shape' : CallShape} {v w : Value}
    {as bs : List Supplied} {candidates : List (Nat × Signature)}
    {R : Resolution → Resolution → Prop}
    (hR : ∀ x y, R x y → ∀ position, x.rank position = y.rank position)
    (h : ∀ c ∈ candidates, Option.Rel R (c.2.bindCall r.converters shape v as)
      (c.2.bindCall r'.converters shape' w bs)) :
    Option.Rel R (r.choose shape v as candidates) (r'.choose shape' w bs candidates) := by
  have hbound : List.Forall₂ (fun x y => x.1 = y.1 ∧ R x.2 y.2)
      (candidates.filterMap fun c => (c.2.bindCall r.converters shape v as).map fun x => (c.1, x))
      (candidates.filterMap fun c =>
        (c.2.bindCall r'.converters shape' w bs).map fun x => (c.1, x)) := by
    induction candidates with
    | nil => exact .nil
    | cons c candidates ih =>
      have hrest := ih fun c' hc' => h c' (List.mem_cons_of_mem c hc')
      have hfirst := h c List.mem_cons_self
      simp only [List.filterMap_cons]
      generalize c.2.bindCall r.converters shape v as = x at hfirst ⊢
      generalize c.2.bindCall r'.converters shape' w bs = y at hfirst ⊢
      cases hfirst with
      | none => exact hrest
      | some hxy => exact .cons ⟨rfl, hxy⟩ hrest
  exact related_map (bestOf_related hR hbound) fun x y hxy => hxy.2

theorem mem_of_at? {r : Registry} {position : Nat} {c : Nat × Signature}
    (h : r.at? position = some c) : c.2 ∈ r.signatures := by
  obtain ⟨s, hs, rfl⟩ := Option.map_eq_some_iff.mp h
  exact Array.mem_of_getElem? hs

theorem mem_of_mem_named {r : Registry} {name : String} {matching : NameMatching}
    {c : Nat × Signature} (h : c ∈ r.named name matching) : c.2 ∈ r.signatures := by
  obtain ⟨position, -, hat⟩ := List.mem_filterMap.mp (List.mem_of_mem_filter h)
  exact mem_of_at? hat

theorem mem_of_mem_unnamed {r : Registry} {c : Nat × Signature} (h : c ∈ r.unnamed) :
    c.2 ∈ r.signatures := by
  obtain ⟨position, -, hat⟩ := List.mem_filterMap.mp h
  exact mem_of_at? hat

/-- Calls mean the same overload if they are bound alike to all that is registered. -/
theorem resolve_related {r : Registry} {matching : NameMatching} (name : String) {v w : Value}
    {as bs : List Supplied} {R : Resolution → Resolution → Prop}
    (hR : ∀ x y, R x y → ∀ position, x.rank position = y.rank position)
    (h : ∀ s ∈ r.signatures, Option.Rel R
      (s.bindCall r.converters (.ofCall r matching v as) v as)
      (s.bindCall r.converters (.ofCall r matching w bs) w bs)) :
    Option.Rel R (r.resolve matching name v as) (r.resolve matching name w bs) := by
  have hnamed : ∀ c ∈ if name == "" then [] else r.named name matching, c.2 ∈ r.signatures := by
    intro c hc
    split at hc
    · cases hc
    · exact mem_of_mem_named hc
  exact related_or (choose_related hR fun c hc => h c.2 (hnamed c hc))
    (choose_related hR fun c hc => h c.2 (mem_of_mem_unnamed hc))

theorem exists_of_choose {r : Registry} {shape : CallShape} {v : Value} {arguments : List Supplied}
    {candidates : List (Nat × Signature)} {made : Resolution}
    (h : r.choose shape v arguments candidates = some made) :
    ∃ c ∈ candidates, c.2.bindCall r.converters shape v arguments = some made := by
  obtain ⟨⟨i, best⟩, hbest, rfl⟩ := Option.map_eq_some_iff.mp h
  obtain ⟨c, hc, hmade⟩ := List.mem_filterMap.mp (mem_of_bestOf hbest)
  obtain ⟨bound, hbound, heq⟩ := Option.map_eq_some_iff.mp hmade
  obtain ⟨-, rfl⟩ := Prod.mk.inj heq
  exact ⟨c, hc, hbound⟩

/-- What is chosen for a call is something registered, bound to the call. -/
theorem exists_of_resolve {r : Registry} {matching : NameMatching} {name : String} {v : Value}
    {arguments : List Supplied} {made : Resolution}
    (h : r.resolve matching name v arguments = some made) :
    ∃ s ∈ r.signatures,
      s.bindCall r.converters (.ofCall r matching v arguments) v arguments = some made := by
  rcases Option.or_eq_some_iff.mp h with h | ⟨-, h⟩
  · split at h
    · obtain ⟨c, hc, -⟩ := exists_of_choose h
      cases hc
    · obtain ⟨c, hc, hbound⟩ := exists_of_choose h
      exact ⟨c.2, mem_of_mem_named hc, hbound⟩
  · obtain ⟨c, hc, hbound⟩ := exists_of_choose h
    exact ⟨c.2, mem_of_mem_unnamed hc, hbound⟩

/-- A choice carries the shape of the call it was made for. -/
theorem shape_of_resolve {r : Registry} {matching : NameMatching} {name : String} {v : Value}
    {arguments : List Supplied} {made : Resolution}
    (h : r.resolve matching name v arguments = some made) :
    made.shape = .ofCall r matching v arguments := by
  obtain ⟨s, -, hbound⟩ := exists_of_resolve h
  obtain ⟨_, _, _, _, _, _, -, -, rfl⟩ := Signature.bindCall_eq_some hbound
  rfl

/-- Calls of one shape mean the same overload if all that is registered takes their values alike. -/
theorem resolve_congr {r : Registry} {matching : NameMatching} (name : String) {v w : Value}
    {as bs : List Supplied}
    (hshape : CallShape.ofCall r matching v as = CallShape.ofCall r matching w bs)
    (h : ∀ s ∈ r.signatures, FitAlike r.converters (· = s.valueType) v w ∧
      List.Forall₂ (Supplied.Alike r.converters s.Takes) as bs) :
    r.resolve matching name v as = r.resolve matching name w bs := by
  have hmatching : (CallShape.ofCall r matching v as).matching =
      (CallShape.ofCall r matching w bs).matching := rfl
  have hbound := fun s hs => Signature.bindCall_congr hmatching (h s hs).1 (h s hs).2
  have hrelated := resolve_related name (fun x y hxy => Resolution.Moved.rank_eq hxy) hbound
  cases hv : r.resolve matching name v as with
  | none =>
    rw [hv] at hrelated
    cases hw : r.resolve matching name w bs with
    | none => rfl
    | some made => rw [hw] at hrelated; cases hrelated
  | some made =>
    rw [hv] at hrelated
    cases hw : r.resolve matching name w bs with
    | none => rw [hw] at hrelated; cases hrelated
    | some made' =>
      rw [hw] at hrelated
      cases hrelated with
      | some hmoved =>
        have hshapes : made.shape = made'.shape :=
          (shape_of_resolve hv).trans (hshape.trans (shape_of_resolve hw).symm)
        rw [hmoved.eq_of_shape hshapes]

theorem signature_of_resolve {r : Registry} {matching : NameMatching} {name : String} {v : Value}
    {arguments : List Supplied} {made : Resolution}
    (h : r.resolve matching name v arguments = some made) : made.signature ∈ r.signatures := by
  obtain ⟨s, hs, hbound⟩ := exists_of_resolve h
  obtain ⟨_, _, _, _, _, _, -, -, rfl⟩ := Signature.bindCall_eq_some hbound
  exact hs

section Consult

variable {r : Registry} {m : Memory} {matching : NameMatching} {name : String} {v : Value}
  {arguments : List Supplied} {made : Resolution}

/-- The answer to a call is what was remembered for its shape, or a choice made afresh. -/
theorem of_mem_resolution
    (h : made ∈ (r.consult m matching name v arguments).resolution) :
    (made ∈ m ∧ made.shape = .ofCall r matching v arguments) ∨
      r.resolve matching name v arguments = some made := by
  unfold consult at h
  split at h
  · next found hfind =>
    obtain rfl := Option.some.inj h
    obtain ⟨hfound, hshape⟩ := Option.filter_eq_some_iff.mp hfind
    exact .inl ⟨hfound, of_decide_eq_true hshape⟩
  · split at h
    · next fresh hfresh => exact .inr (hfresh.trans h)
    · cases h

/-- What is remembered after a call was remembered before, or is a choice made afresh that may be
used again. -/
theorem of_mem_memory (h : made ∈ (r.consult m matching name v arguments).memory) :
    made ∈ m ∨ r.resolve matching name v arguments = some made ∧ made.shape.isReusable = true := by
  unfold consult at h
  split at h
  · exact .inl h
  · split at h
    · next fresh hfresh =>
      have hkept : made ∈ m.keep fresh := h
      unfold Memory.keep at hkept
      split at hkept
      · next hreusable =>
        obtain rfl := Option.some.inj hkept
        exact .inr ⟨hfresh, hreusable⟩
      · exact .inl hkept
    · exact .inl h

/-- What holds of the choices remembered and of one made afresh holds of the answer to a call, and
of what is remembered after it. -/
theorem consult_forall (matching : NameMatching) (name : String) (v : Value)
    (arguments : List Supplied) {P : Resolution → Prop} (hm : ∀ made ∈ m, P made)
    (hfresh : ∀ made, r.resolve matching name v arguments = some made → P made) :
    let answer := r.consult m matching name v arguments
    (∀ made ∈ answer.resolution, P made) ∧ ∀ made ∈ answer.memory, P made := by
  refine ⟨fun made hmade => ?_, fun made hmade => ?_⟩
  · rcases of_mem_resolution hmade with ⟨hfound, -⟩ | hmade
    · exact hm made hfound
    · exact hfresh made hmade
  · rcases of_mem_memory hmade with hfound | ⟨hmade, -⟩
    · exact hm made hfound
    · exact hfresh made hmade

end Consult

end Registry

end Stencil
