import Stencil.Proofs.BoundTypes

/-!
# What attempts leave behind

While a call is bound to an overload, the types that its type parameters stand for are found out and
kept. An attempt to fit a value that fails keeps them as well: the elements of a collection are
fitted one after the other, and what the first ones have shown stays when a later one does not fit.
So a value that only a converter makes acceptable can decide a type parameter.

`ParamType.finds` says what there is to be found in a value, `fit_findsOut` that an attempt leaves
just this behind, be it successful or not. For declared types that are not collections of
collections a failure leaves nothing (`exists_nested_of_reveals`).

At a call, each parameter demands types of its arguments (`Signature.demands?`), and an overload is
bound if all demands are met one after the other (`bindCall_types`).

Main statement: `failed_fits_traceless_iff`.
-/

namespace Stencil

/-! ## What there is to be found -/

/-- The first finding among elements that are tried in order, up to one that does not fit. -/
def firstFinding (finds : Value → Option ValueType) (fits : Value → Bool) :
    List Value → Option ValueType
  | [] => none
  | v :: rest => (finds v).or (if fits v then firstFinding finds fits rest else none)

namespace ParamType

/-- The type parameter of a declared type, be it the type itself or that of elements. -/
def parameter? : ParamType → Option String
  | generic name => some name
  | array element | object element => element.parameter?
  | _ => none

/-- What elements say about a type parameter. If it stands for their own type they need to have one
in common, and otherwise each may have something to say. -/
def findsAmong (element : ParamType) (finds : Value → Option ValueType) (items : List Value) :
    Option ValueType :=
  match element with
  | generic _ => Value.commonType items
  | _ => firstFinding finds (fun v => (element.fit v []).1.isSome) items

/-- The type that a value says its type parameter stands for, whether or not it fits. -/
def finds : ParamType → Value → Option ValueType
  | generic _, v => some v.type
  | array element, .array items => element.findsAmong element.finds items
  | object element, .object members => element.findsAmong element.finds (members.map Prod.snd)
  | _, _ => none

/-- Whether a value says what a type parameter stands for about which nothing is known. -/
def Reveals (type : ParamType) (v : Value) (known : TypeArguments) : Prop :=
  ∃ name found, type.parameter? = some name ∧ known.lookup name = none ∧
    type.finds v = some found

end ParamType

/-- What an attempt leaves behind, given the type parameter and what there is to be found about it.
If there is nothing, the attempt does not depend on what is known. -/
structure Fitting.FindsOut (fitting : Fitting Conversion) (parameter? : Option String)
    (found? : Option ValueType) : Prop where
  named : found?.isSome = true → parameter?.isSome = true
  nothing : found? = none → ∃ c, ∀ known, fitting known = (c, known)
  fresh : ∀ name found, parameter? = some name → found? = some found →
    ∀ known, known.lookup name = none → (fitting known).2 = Keyed.set name found known
  decided : ∀ name type, parameter? = some name →
    ∀ known, known.lookup name = some type → (fitting known).2 = known

theorem fitGeneric_of_lookup_none {name : String} {known : TypeArguments}
    (h : known.lookup name = none) (type : ValueType) :
    fitGeneric name type known = (some .keep, Keyed.set name type known) := by
  unfold fitGeneric
  rw [h]

namespace Fitting.FindsOut

/-- An attempt that finds out nothing. -/
theorem const {fitting : Fitting Conversion} {c : Option Conversion}
    (h : ∀ known, fitting known = (c, known)) (parameter? : Option String) :
    fitting.FindsOut parameter? none :=
  ⟨nofun, fun _ => ⟨c, h⟩, nofun, fun _ _ _ known _ => by rw [h known]⟩

theorem generic (name : String) (type : ValueType) :
    (fitGeneric name type).FindsOut (some name) (some type) where
  named _ := rfl
  nothing := nofun
  fresh := by
    rintro _ _ ⟨⟩ ⟨⟩ known hnone
    rw [fitGeneric_of_lookup_none hnone]
  decided := by
    rintro _ other ⟨⟩ known hother
    unfold fitGeneric
    rw [hother]

/-- What is kept is kept whether or not a conversion is put up with. -/
theorem unconverted {fitting : Fitting Conversion} {parameter? : Option String}
    {found? : Option ValueType} (h : fitting.FindsOut parameter? found?) :
    fitting.unconverted.FindsOut parameter? found? := by
  have hsnd (known : TypeArguments) : (fitting.unconverted known).2 = (fitting known).2 := by
    unfold Fitting.unconverted
    split <;> next hfit => rw [hfit]
  refine ⟨h.named, ?_, ?_, ?_⟩
  · intro hnone
    obtain ⟨c, hc⟩ := h.nothing hnone
    cases c with
    | none => exact ⟨none, fun known => by rw [Fitting.unconverted, hc known]⟩
    | some c =>
      exact ⟨if c.isKeep then some .keep else none, fun known => by
        rw [Fitting.unconverted, hc known]⟩
  · intro name found hname hfound known hknown
    rw [hsnd, h.fresh name found hname hfound known hknown]
  · intro name type hname known hknown
    rw [hsnd, h.decided name type hname known hknown]

end Fitting.FindsOut

section Elements

variable {fit : Value → Fitting Conversion} {finds : Value → Option ValueType}
  {parameter? : Option String}

/-- What is known after the first element stays if the others leave it alone, however they fit. -/
theorem fitEach_snd_of_first {v : Value} {items : List Value} {widest : Conversion}
    {known between : TypeArguments} (hknown : (fit v known).2 = between)
    (hothers : ∀ widest, (fitEach fit items widest between).2 = between) :
    (fitEach fit (v :: items) widest known).2 = between := by
  simp only [fitEach]
  split
  · next hfit => rw [← hknown, hfit]
  · next c known' hfit =>
    obtain rfl : known' = between := by rw [← hknown, hfit]
    exact hothers _

/-- The first element that has something to say is the only one that is heard. -/
theorem fitEach_findsOut (h : ∀ v, (fit v).FindsOut parameter? (finds v)) (items : List Value)
    (widest : Conversion) :
    (fitEach fit items widest).FindsOut parameter?
      (firstFinding finds (fun v => (fit v []).1.isSome) items) := by
  induction items generalizing widest with
  | nil => exact .const (fun _ => rfl) parameter?
  | cons v items ih =>
    have hv := h v
    cases hfound : finds v with
    | none =>
      obtain ⟨c, hc⟩ := hv.nothing hfound
      cases c with
      | none =>
        -- Nothing is tried after an element that does not fit.
        have hstops : firstFinding finds (fun v => (fit v []).1.isSome) (v :: items) = none := by
          simp [firstFinding, hfound, hc]
        rw [hstops]
        exact .const (c := none) (fun known => by simp only [fitEach, hc known]) parameter?
      | some c =>
        have hgoes : firstFinding finds (fun v => (fit v []).1.isSome) (v :: items) =
            firstFinding finds (fun v => (fit v []).1.isSome) items := by
          simp [firstFinding, hfound, hc]
        have hfit : fitEach fit (v :: items) widest =
            fitEach fit items (if widest.cost < c.cost then c else widest) := by
          funext known
          simp only [fitEach, hc known]
        rw [hgoes, hfit]
        exact ih _
    | some found =>
      rw [hfound] at hv
      have hfirst : firstFinding finds (fun v => (fit v []).1.isSome) (v :: items) =
          some found := by
        simp [firstFinding, hfound]
      have hstays : ∀ name type between, parameter? = some name →
          between.lookup name = some type → ∀ known, (fit v known).2 = between →
            (fitEach fit (v :: items) widest known).2 = between :=
        fun name type between hname hbetween known hknown => fitEach_snd_of_first hknown
          fun widest => (ih widest).decided name type hname between hbetween
      rw [hfirst]
      refine ⟨hv.named, fun hnone => (by cases hnone), ?_, ?_⟩
      · rintro name _ hname ⟨⟩ known hnone
        refine hstays name found _ hname ?_ known (hv.fresh name found hname rfl known hnone)
        rw [Keyed.lookup_set, if_pos (beq_self_eq_true name)]
      · intro name type hname known hknown
        exact hstays name type known hname hknown known (hv.decided name type hname known hknown)

/-- The elements of a collection, whether they are tried one by one or have a type in common. -/
theorem fitElements_findsOut {element : ParamType}
    (ih : ∀ v, (element.fit v).FindsOut element.parameter? (element.finds v))
    (items : List Value) :
    (fitElements element element.fit items).FindsOut element.parameter?
      (element.findsAmong element.finds items) := by
  by_cases hgeneric : ∃ name, element = .generic name
  · obtain ⟨name, rfl⟩ := hgeneric
    show Fitting.FindsOut _ (some name) (Value.commonType items)
    cases hcommon : Value.commonType items with
    | some type =>
      rw [funext (fitElements_generic hcommon)]
      exact .generic name type
    | none =>
      cases items with
      | nil => exact .const (fun _ => rfl) _
      | cons v items => exact .const (c := none) (fun _ => by simp only [fitElements, hcommon]) _
  · have hplain : ∀ name, element ≠ .generic name := fun name hname => hgeneric ⟨name, hname⟩
    have hamong : element.findsAmong element.finds items =
        firstFinding element.finds (fun v => (element.fit v []).1.isSome) items := by
      cases element with
      | generic name => exact absurd rfl (hplain name)
      | _ => rfl
    rw [hamong, funext (fitElements_plain hplain _ items)]
    exact fitEach_findsOut ih items .keep

end Elements

/-- An attempt leaves behind just what there is to be found in the value. -/
theorem fit_findsOut (type : ParamType) (v : Value) :
    (type.fit v).FindsOut type.parameter? (type.finds v) := by
  induction type generalizing v with
  | generic name => exact .generic name v.type
  | array element ih =>
    cases v with
    | array items => exact fitElements_findsOut ih items
    | _ => exact .const (fun _ => rfl) _
  | object element ih =>
    cases v with
    | object members => exact (fitElements_findsOut ih (members.map Prod.snd)).unconverted
    | _ => exact .const (fun _ => rfl) _
  | _ => cases v <;> exact .const (fun _ => rfl) _

/-! ## Traces of attempts -/

section Traces

variable {type : ParamType} {v : Value} {known : TypeArguments}

/-- What is revealed is kept. -/
theorem fit_snd_of_reveals {name : String} {found : ValueType} (hname : type.parameter? = some name)
    (hnone : known.lookup name = none) (hfound : type.finds v = some found) :
    (type.fit v known).2 = Keyed.set name found known :=
  (fit_findsOut type v).fresh name found hname hfound known hnone

/-- What is revealed is all that is kept. -/
theorem fit_snd_of_not_reveals (h : ¬ type.Reveals v known) : (type.fit v known).2 = known := by
  have hfinds := fit_findsOut type v
  cases hfound : type.finds v with
  | none =>
    obtain ⟨c, hc⟩ := hfinds.nothing hfound
    rw [hc known]
  | some found =>
    have hsome : (type.finds v).isSome = true := by rw [hfound]; rfl
    obtain ⟨name, hname⟩ := Option.isSome_iff_exists.mp (hfinds.named hsome)
    cases hlookup : known.lookup name with
    | none => exact absurd ⟨name, found, hname, hlookup, hfound⟩ h
    | some type => exact hfinds.decided name type hname known hlookup

/-- An attempt leaves no trace just if the value reveals nothing. -/
theorem fit_snd_eq_iff : (type.fit v known).2 = known ↔ ¬ type.Reveals v known := by
  refine ⟨?_, fit_snd_of_not_reveals⟩
  rintro hsame ⟨name, found, hname, hnone, hfound⟩
  have hnow : (type.fit v known).2.lookup name = some found := by
    rw [fit_snd_of_reveals hname hnone hfound, Keyed.lookup_set, if_pos (beq_self_eq_true name)]
  rw [hsame, hnone] at hnow
  cases hnow

/-- A type that has a type parameter is the parameter itself or a collection. -/
theorem ParamType.eq_generic_or_nested {name : String} (h : type.parameter? = some name) :
    type = .generic name ∨ ∃ inner, type = .array inner ∨ type = .object inner := by
  cases type with
  | generic other =>
    obtain rfl := Option.some.inj h
    exact .inl rfl
  | array inner => exact .inr ⟨inner, .inl rfl⟩
  | object inner => exact .inr ⟨inner, .inr rfl⟩
  | _ => cases h

/-- An attempt that fails reveals something only in a collection of collections: a type parameter
about which nothing is known takes any type. -/
theorem exists_nested_of_reveals (h : type.Reveals v known)
    (hmisfit : (type.fit v known).1 = none) :
    ∃ element inner, (type = .array element ∨ type = .object element) ∧
      (element = .array inner ∨ element = .object inner) := by
  obtain ⟨name, found, hname, hnone, hfound⟩ := h
  cases type with
  | generic other =>
    obtain rfl := Option.some.inj hname
    rw [ParamType.fit, fitGeneric_of_lookup_none hnone] at hmisfit
    cases hmisfit
  | array element =>
    have hinside : element.parameter? = some name := hname
    rcases ParamType.eq_generic_or_nested hinside with rfl | ⟨inner, hinner⟩
    · cases v with
      | array items =>
        rw [ParamType.fit, fitElements_generic hfound, fitGeneric_of_lookup_none hnone] at hmisfit
        cases hmisfit
      | _ => cases hfound
    · exact ⟨element, inner, .inl rfl, hinner⟩
  | object element =>
    have hinside : element.parameter? = some name := hname
    rcases ParamType.eq_generic_or_nested hinside with rfl | ⟨inner, hinner⟩
    · cases v with
      | object members =>
        rw [ParamType.fit, Fitting.unconverted, fitElements_generic hfound,
          fitGeneric_of_lookup_none hnone] at hmisfit
        cases hmisfit
      | _ => cases hfound
    · exact ⟨element, inner, .inr rfl, hinner⟩
  | _ => cases hname

end Traces

/-! ## Demands of a call -/

/-- A value for which a type is declared. -/
structure Demand where
  type : ParamType
  value : Value

/-- Accepts a value, given what is known, and gives what is known then. -/
def Demand.meet (converters : List Converter) (known : TypeArguments) (d : Demand) :
    Option TypeArguments :=
  match accept converters d.type d.value known with
  | (some _, known) => some known
  | (none, _) => none

/-- Accepts values one after the other. -/
def meetAll (converters : List Converter) (known : TypeArguments) (demands : List Demand) :
    Option TypeArguments :=
  demands.foldlM (Demand.meet converters) known

/-- The demands of a parameter: of the argument in its slot, or of all that is left. There is no way
to meet those of a parameter that is needed and has no argument. -/
def Param.demands? (surplus : List Placed) (p : Param) (slot : Option Placed) :
    Option (List Demand) :=
  match p.kind, slot with
  | .rest, _ => some (surplus.map fun a => ⟨p.type, a.value⟩)
  | _, some a => some [⟨p.type, a.value⟩]
  | .optional _, none => some []
  | .required, none => none

def paramDemands? (surplus : List Placed) : List Param → List (Option Placed) →
    Option (List Demand)
  | p :: params, slot :: slots => do
    let demands ← p.demands? surplus slot
    let others ← paramDemands? surplus params slots
    return demands ++ others
  | _, _ => some []

/-- What a call demands of an overload, its value first, once its arguments were placed. There is
nothing to be demanded if they cannot be placed. -/
def Signature.demands? (s : Signature) (matching : NameMatching) (v : Value)
    (arguments : List Supplied) : Option (List Demand) := do
  let placed := placedFrom 0 arguments
  let claimed ← claimByName matching s.params placed (s.params.map fun _ => none)
  let (slots, surplus) := fillInOrder s.params claimed (queueOf placed)
  if !surplus.isEmpty && !s.hasRest then none
  else
    let demands ← paramDemands? surplus s.params slots
    return ⟨s.valueType, v⟩ :: demands

section Demands

variable (converters : List Converter)

theorem meetAll_cons (known : TypeArguments) (d : Demand) (demands : List Demand) :
    meetAll converters known (d :: demands) =
      (d.meet converters known).bind fun known => meetAll converters known demands :=
  List.foldlM_cons ..

theorem meetAll_append (known : TypeArguments) (demands others : List Demand) :
    meetAll converters known (demands ++ others) =
      (meetAll converters known demands).bind fun known => meetAll converters known others :=
  List.foldlM_append ..

theorem acceptAll_types (type : ParamType) (queue : List Placed) (known : TypeArguments) :
    (acceptAll converters type queue known).map Prod.snd =
      meetAll converters known (queue.map fun a => ⟨type, a.value⟩) := by
  induction queue generalizing known with
  | nil => rfl
  | cons a queue ih =>
    rw [List.map_cons, meetAll_cons, acceptAll, Demand.meet]
    split
    · next c known' haccept =>
      simp only [haccept, Option.bind_eq_bind, Option.bind_some, ← ih, Option.map_bind]
      cases acceptAll converters type queue known' <;> rfl
    · next haccept =>
      simp only [haccept]
      rfl

theorem Param.bind_types (p : Param) (surplus : List Placed) (slot : Option Placed)
    (known : TypeArguments) :
    (p.bind converters surplus slot known).map Prod.snd =
      (p.demands? surplus slot).bind (meetAll converters known) := by
  -- One argument is accepted as the only demand of its parameter.
  have hsingle (a : Placed) :
      Option.map Prod.snd (match accept converters p.type a.value known with
        | (some c, known) => some (Binding.argument a.position c, known)
        | (none, _) => none) = meetAll converters known [⟨p.type, a.value⟩] := by
    rw [meetAll_cons, Demand.meet]
    split <;> next haccept => simp only [haccept]; rfl
  unfold Param.bind Param.demands?
  cases hkind : p.kind with
  | rest =>
    simp only [Option.bind_eq_bind, Option.bind_some, ← acceptAll_types, Option.map_bind]
    cases acceptAll converters p.type surplus known <;> rfl
  | required =>
    cases slot with
    | none => rfl
    | some a => exact hsingle a
  | optional value =>
    cases slot with
    | none => rfl
    | some a => exact hsingle a

theorem bindParams_types (surplus : List Placed) (params : List Param)
    (slots : List (Option Placed)) (known : TypeArguments) :
    (bindParams converters surplus params slots known).map Prod.snd =
      (paramDemands? surplus params slots).bind (meetAll converters known) := by
  induction params generalizing slots known with
  | nil => rfl
  | cons p params ih =>
    cases slots with
    | nil => rfl
    | cons slot slots =>
      have hfirst := p.bind_types converters surplus slot known
      simp only [bindParams, paramDemands?, Option.bind_eq_bind, Option.map_bind]
      cases hdemands : p.demands? surplus slot with
      | none =>
        rw [hdemands] at hfirst
        rw [Option.map_eq_none_iff.mp hfirst]
        rfl
      | some demands =>
        rw [hdemands] at hfirst
        have hmet : (p.bind converters surplus slot known).map Prod.snd =
            meetAll converters known demands := hfirst
        have hothers (known : TypeArguments) := ih slots known
        cases hrest : paramDemands? surplus params slots with
        | none =>
          simp only [hrest, Option.bind_none, Option.map_eq_none_iff] at hothers
          cases p.bind converters surplus slot known with
          | none => rfl
          | some bound => simp [hothers]
        | some others =>
          simp only [hrest, Option.bind_some] at hothers
          simp only [Option.bind_some, Option.pure_def, meetAll_append, ← hmet, ← hothers]
          cases p.bind converters surplus slot known with
          | none => rfl
          | some bound =>
            simp only [Option.bind_some, Option.map_some, Function.comp_apply]
            cases bindParams converters surplus params slots bound.2 <;> rfl

/-- An overload is bound just if all demands are met, and its type arguments are what is known
then. -/
theorem Signature.bindCall_types (s : Signature) (shape : CallShape) (v : Value)
    (arguments : List Supplied) :
    (s.bindCall converters shape v arguments).map Resolution.types =
      (s.demands? shape.matching v arguments).bind (meetAll converters []) := by
  unfold Signature.bindCall Signature.demands?
  cases haccept : accept converters s.valueType v [] with
  | mk conversion known =>
    -- The value is accepted as the first demand.
    have hfirst (demands : List Demand) :
        meetAll converters [] (⟨s.valueType, v⟩ :: demands) =
          conversion.bind fun _ => meetAll converters known demands := by
      rw [meetAll_cons, Demand.meet]
      simp only [haccept]
      cases conversion <;> rfl
    simp only [Option.bind_eq_bind, Option.pure_def]
    cases claimByName shape.matching s.params (placedFrom 0 arguments) (s.params.map fun _ => none)
      with
    | none => cases conversion <;> rfl
    | some claimed =>
      simp only [Option.bind_some]
      generalize fillInOrder s.params claimed (queueOf (placedFrom 0 arguments)) = filled
      obtain ⟨slots, surplus⟩ := filled
      by_cases hleft : (!surplus.isEmpty && !s.hasRest) = true
      · simp only [if_pos hleft]
        cases conversion <;> rfl
      · simp only [if_neg hleft, Option.bind_assoc, Option.bind_some, hfirst]
        cases conversion with
        | none => exact (Option.bind_fun_none _).symm
        | some conversion =>
          have hparams := bindParams_types converters surplus s.params slots known
          simp only [Option.map_bind, Function.comp_def, Option.map_some]
          refine Eq.trans ?_ hparams
          cases bindParams converters surplus s.params slots known <;> rfl

end Demands

/-! ## Demands at their turn -/

/-- A demand at its turn, when those before it were met and `known` was found out. -/
def AtTurn (converters : List Converter) (demands : List Demand) (d : Demand)
    (known : TypeArguments) : Prop :=
  ∃ before after, demands = before ++ d :: after ∧ meetAll converters [] before = some known

/-- A demand is met by its value as it is. -/
def Demand.IsMetNatively (d : Demand) (known : TypeArguments) : Prop :=
  (d.type.fit d.value known).1.isSome = true

/-- A demand is met by what a converter makes of its value. -/
def Demand.IsMetByConversion (converters : List Converter) (d : Demand) (known : TypeArguments) :
    Prop :=
  (d.type.fit d.value known).1 = none ∧ (d.meet converters known).isSome = true

/-- A demand is where a type parameter gets its type. -/
structure Demand.Decides (d : Demand) (known : TypeArguments) (name : String) (found : ValueType) :
    Prop where
  parameter : d.type.parameter? = some name
  undecided : known.lookup name = none
  finds : d.type.finds d.value = some found

section Turns

variable {converters : List Converter} {known known' : TypeArguments} {d : Demand}

theorem known_of_meet (h : d.meet converters known = some known') :
    known' = (d.type.fit d.value known).2 := by
  unfold Demand.meet at h
  split at h
  · next c between haccept =>
    obtain rfl := Option.some.inj h
    rw [← accept_snd converters, haccept]
  · cases h

theorem lookup_of_decides {name : String} {found : ValueType} (h : d.Decides known name found)
    (hmeet : d.meet converters known = some known') : known'.lookup name = some found := by
  rw [known_of_meet hmeet, fit_snd_of_reveals h.parameter h.undecided h.finds, Keyed.lookup_set,
    if_pos (beq_self_eq_true name)]

/-- What is known after a demand was known before it, or the demand has decided it. -/
theorem lookup_of_meet (hmeet : d.meet converters known = some known') {name : String}
    {found : ValueType} (h : known'.lookup name = some found) :
    known.lookup name = some found ∨ d.Decides known name found := by
  obtain rfl := known_of_meet hmeet
  by_cases hreveals : d.type.Reveals d.value known
  · obtain ⟨other, found', hother, hnone, hfound⟩ := hreveals
    rw [fit_snd_of_reveals hother hnone hfound, Keyed.lookup_set] at h
    split at h
    · next hname =>
      obtain rfl := eq_of_beq hname
      obtain rfl := Option.some.inj h
      exact .inr ⟨hother, hnone, hfound⟩
    · exact .inl h
  · rw [fit_snd_of_not_reveals hreveals] at h
    exact .inl h

theorem stillKnown_of_meet (hmeet : d.meet converters known = some known') :
    StillKnown known known' := by
  obtain rfl := known_of_meet hmeet
  exact stillKnown_fit d.type d.value known

theorem stillKnown_of_meetAll {demands : List Demand}
    (h : meetAll converters known demands = some known') : StillKnown known known' := by
  induction demands generalizing known with
  | nil =>
    obtain rfl := Option.some.inj h
    exact .refl known
  | cons d demands ih =>
    rw [meetAll_cons] at h
    obtain ⟨between, hfirst, hrest⟩ := Option.bind_eq_some_iff.mp h
    exact (stillKnown_of_meet hfirst).trans (ih hrest)

/-- What is known in the end was known at the beginning, or was decided on the way. -/
theorem lookup_of_meetAll {demands : List Demand}
    (h : meetAll converters known demands = some known') {name : String} {found : ValueType}
    (hfound : known'.lookup name = some found) :
    known.lookup name = some found ∨ ∃ before d after between, demands = before ++ d :: after ∧
      meetAll converters known before = some between ∧ d.Decides between name found := by
  induction demands generalizing known with
  | nil =>
    obtain rfl := Option.some.inj h
    exact .inl hfound
  | cons d demands ih =>
    rw [meetAll_cons] at h
    obtain ⟨next, hfirst, hrest⟩ := Option.bind_eq_some_iff.mp h
    rcases ih hrest with hnext | ⟨before, e, after, between, rfl, hbefore, hdecides⟩
    · rcases lookup_of_meet hfirst hnext with hknown | hdecides
      · exact .inl hknown
      · exact .inr ⟨[], d, demands, known, rfl, rfl, hdecides⟩
    · refine .inr ⟨d :: before, e, after, between, rfl, ?_, hdecides⟩
      rw [meetAll_cons, hfirst]
      exact hbefore

/-- Where all demands are met each is met at its turn. -/
theorem exists_meet_of_atTurn {demands : List Demand} {types : TypeArguments}
    (h : meetAll converters [] demands = some types) (hturn : AtTurn converters demands d known) :
    ∃ next, d.meet converters known = some next ∧ StillKnown next types := by
  obtain ⟨before, after, rfl, hbefore⟩ := hturn
  rw [meetAll_append, hbefore, Option.bind_some, meetAll_cons] at h
  obtain ⟨next, hmeet, hrest⟩ := Option.bind_eq_some_iff.mp h
  exact ⟨next, hmeet, stillKnown_of_meetAll hrest⟩

/-- The type arguments are what the demands have decided at their turns. -/
theorem lookup_iff_of_meetAll {demands : List Demand} {types : TypeArguments}
    (h : meetAll converters [] demands = some types) (name : String) (found : ValueType) :
    types.lookup name = some found ↔
      ∃ d known, AtTurn converters demands d known ∧ d.Decides known name found := by
  constructor
  · intro hfound
    rcases lookup_of_meetAll h hfound with hknown | ⟨before, d, after, between, rfl, hbefore, hd⟩
    · cases hknown
    · exact ⟨d, between, ⟨before, after, rfl, hbefore⟩, hd⟩
  · rintro ⟨d, known, hturn, hdecides⟩
    obtain ⟨next, hmeet, hlater⟩ := exists_meet_of_atTurn h hturn
    exact hlater name found (lookup_of_decides hdecides hmeet)

/-- A demand that is met by conversion and reveals nothing could as well not be there. -/
theorem meetAll_without {before after : List Demand}
    (hbefore : meetAll converters [] before = some known)
    (hd : d.IsMetByConversion converters known) (hnothing : ¬ d.type.Reveals d.value known) :
    meetAll converters [] (before ++ d :: after) = meetAll converters [] (before ++ after) := by
  obtain ⟨next, hmeet⟩ := Option.isSome_iff_exists.mp hd.2
  have hsame : next = known := (known_of_meet hmeet).trans (fit_snd_of_not_reveals hnothing)
  rw [meetAll_append, meetAll_append, hbefore, Option.bind_some, Option.bind_some, meetAll_cons,
    hmeet, hsame]
  rfl

end Turns

/-! ## Calls -/

/-- What attempts that fail leave behind.

A value that does not fit as it is leaves what was known as it was, converted or not, just if it
reveals nothing, and only in collections of collections it can reveal something and not fit.

The type arguments of a chosen overload are what its demands have decided, each at its turn. If no
attempt that failed at its turn had something to reveal, values that fit as they are have decided
all of them.

A value that is converted and reveals nothing has no influence on whether the overload can be bound,
nor on its type arguments. -/
theorem failed_fits_traceless_iff (r : Registry) (matching : NameMatching) (name : String)
    (v : Value) (arguments : List Supplied) :
    (∀ (type : ParamType) (known : TypeArguments), (type.fit v known).1 = none →
      ((accept r.converters type v known).2 = known ↔ ¬ type.Reveals v known) ∧
      (type.Reveals v known → ∃ element inner, (type = .array element ∨ type = .object element) ∧
        (element = .array inner ∨ element = .object inner))) ∧
    (∀ made : Resolution, r.resolve matching name v arguments = some made →
      ∃ demands, made.signature.demands? matching v arguments = some demands ∧
        (∀ name found, made.types.lookup name = some found ↔
          ∃ d known, AtTurn r.converters demands d known ∧ d.Decides known name found) ∧
        ((∀ d known, AtTurn r.converters demands d known → d.IsMetByConversion r.converters known →
            ¬ d.type.Reveals d.value known) →
          ∀ name found, made.types.lookup name = some found →
            ∃ d known, AtTurn r.converters demands d known ∧ d.IsMetNatively known ∧
              d.Decides known name found)) ∧
    ∀ (s : Signature) (shape : CallShape) (before after : List Demand) (d : Demand)
      (known : TypeArguments), s.demands? shape.matching v arguments = some (before ++ d :: after) →
      meetAll r.converters [] before = some known → d.IsMetByConversion r.converters known →
      ¬ d.type.Reveals d.value known →
      (s.bindCall r.converters shape v arguments).map Resolution.types =
        meetAll r.converters [] (before ++ after) := by
  refine ⟨fun type known hmisfit => ⟨?_, fun hreveals =>
    exists_nested_of_reveals hreveals hmisfit⟩, ?_, ?_⟩
  · rw [accept_snd]
    exact fit_snd_eq_iff
  · intro made hmade
    obtain ⟨s, -, hbound⟩ := Registry.exists_of_resolve hmade
    have htypes := s.bindCall_types r.converters (.ofCall r matching v arguments) v arguments
    rw [hbound, Option.map_some] at htypes
    obtain ⟨demands, hdemands, hmet⟩ := Option.bind_eq_some_iff.mp htypes.symm
    obtain ⟨_, _, _, _, _, _, -, -, rfl⟩ := Signature.bindCall_eq_some hbound
    refine ⟨demands, hdemands, lookup_iff_of_meetAll hmet, fun hnothing name found hfound => ?_⟩
    obtain ⟨d, known, hturn, hdecides⟩ := (lookup_iff_of_meetAll hmet name found).mp hfound
    refine ⟨d, known, hturn, ?_, hdecides⟩
    by_contra hmisfit
    obtain ⟨next, hmeet, -⟩ := exists_meet_of_atTurn hmet hturn
    have hconverted : d.IsMetByConversion r.converters known :=
      ⟨by simpa [Demand.IsMetNatively] using hmisfit, by rw [hmeet]; rfl⟩
    exact hnothing d known hturn hconverted ⟨name, found, hdecides.parameter, hdecides.undecided,
      hdecides.finds⟩
  · intro s shape before after d known hdemands hbefore hd hnothing
    rw [s.bindCall_types, hdemands, Option.bind_some]
    exact meetAll_without hbefore hd hnothing

/-- Makes arrays fit grids. -/
def gridConverter : Converter where
  accepts source target := source == .array && target == .array (.array (.generic "T"))
  convert _ _ := .string "grid"

/-- A grid that does not fit, in which nothing is found before the element that is no row. The type
parameter is left to the argument after it, as if the grid were not there. -/
theorem failed_fits_traceless_iff_word_first :
    let r := ((Registry.empty 1).addConverter 1 gridConverter).registerAll 1
      [.computing "F" .any
        [.needed "grid" (.array (.array (.generic "T"))), .needed "fill" (.generic "T")] Call.value]
    let arguments : List Supplied :=
      [⟨none, .array [.string "x", .array [.int 1]]⟩, ⟨none, .string "y"⟩]
    let fill : Demand := ⟨.generic "T", .string "y"⟩
    ∃ made, r.resolve .ignoreCase "F" .null arguments = some made ∧
      (∃ demands d known, AtTurn r.converters demands d known ∧ d.IsMetNatively known ∧
        d.Decides known "T" .string) ∧
      (made.signature.bindCall r.converters made.shape .null arguments).map Resolution.types =
        meetAll r.converters [] [⟨.any, .null⟩, fill] := by
  intro r arguments fill
  let grid : Demand := ⟨.array (.array (.generic "T")), .array [.string "x", .array [.int 1]]⟩
  have hfacts : (r.resolve .ignoreCase "F" .null arguments).map (fun made =>
      (made.types, made.signature.demands? made.shape.matching .null arguments)) =
      some ([("T", .string)], some [⟨.any, .null⟩, grid, fill]) := rfl
  obtain ⟨made, hmade, hfacts⟩ := Option.map_eq_some_iff.mp hfacts
  obtain ⟨htypes, hdemands⟩ := Prod.mk.inj hfacts
  have hnothing (known : TypeArguments) : ¬ grid.type.Reveals grid.value known := by
    rintro ⟨name, found, -, -, hfound⟩
    cases hfound
  obtain ⟨-, hcalls, hwithout⟩ := failed_fits_traceless_iff r .ignoreCase "F" .null arguments
  refine ⟨made, hmade, ?_, ?_⟩
  · obtain ⟨demands, hsame, -, hnative⟩ := hcalls made hmade
    have hmatching : made.shape.matching = .ignoreCase :=
      congrArg CallShape.matching (Registry.shape_of_resolve hmade)
    rw [hmatching, hsame] at hdemands
    obtain rfl := Option.some.inj hdemands
    refine ⟨_, hnative ?_ "T" .string (by rw [htypes]; rfl)⟩
    rintro d known ⟨before, after, hsplit, -⟩ hconverted hreveals
    -- Only the grid could be converted and have something to reveal.
    obtain ⟨element, inner, htype, -⟩ := exists_nested_of_reveals hreveals hconverted.1
    have hd : d ∈ [⟨.any, .null⟩, grid, fill] := by
      rw [hsplit]
      simp
    simp only [List.mem_cons, List.not_mem_nil, or_false] at hd
    rcases hd with rfl | rfl | rfl
    · rcases htype with h | h <;> cases h
    · exact hnothing known hreveals
    · rcases htype with h | h <;> cases h
  · exact hwithout made.signature made.shape [⟨.any, .null⟩] [fill] grid [] hdemands rfl ⟨rfl, rfl⟩
      (hnothing [])

/-- A grid that does not fit, in which a row comes before the element that is none. -/
theorem failed_fit_decides_parameter :
    let grid : ParamType := .array (.array (.generic "T"))
    let rowFirst := Value.array [.array [.int 1], .string "x"]
    let wordFirst := Value.array [.string "x", .array [.int 1]]
    let alone := ((Registry.empty 1).addConverter 1 gridConverter).registerAll 1
      [.computing "F" .any [.needed "grid" grid] Call.value]
    let filled := ((Registry.empty 1).addConverter 1 gridConverter).registerAll 1
      [.computing "F" .any [.needed "grid" grid, .needed "fill" (.generic "T")] Call.value]
    grid.fit rowFirst [] = (none, [("T", .integer)]) ∧
      (∃ made, alone.resolve .ignoreCase "F" .null [⟨none, rowFirst⟩] = some made ∧
        made.bindings.all Binding.usesConverter = true ∧ made.types = [("T", .integer)]) ∧
      filled.resolve .ignoreCase "F" .null [⟨none, rowFirst⟩, ⟨none, .string "y"⟩] = none ∧
      ∃ made, filled.resolve .ignoreCase "F" .null [⟨none, wordFirst⟩, ⟨none, .string "y"⟩] =
        some made ∧ made.types = [("T", .string)] := by
  intro grid rowFirst wordFirst alone filled
  refine ⟨rfl, ?_, rfl, ?_⟩
  · exact ⟨_, rfl, rfl, rfl⟩
  · exact ⟨_, rfl, rfl⟩

end Stencil
