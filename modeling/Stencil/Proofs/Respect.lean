import Stencil.Proofs.Choice
import Stencil.Proofs.Likeness

/-!
# Formatters that respect a likeness

A formatter can have a lambda invoked, but what the body of the lambda looks like is not for it to
see. `Signature.Respects` says so for a likeness: calls that are alike have results that are alike,
and routines that are alike take the same steps on the way. Converters and what options
bring along respect a likeness in the same sense.

Calls that are alike then mean the same overload, bound in the same way (`Registry.resolve_alike`),
and what is chosen from a registry respects what the registry respects
(`Registry.resolve_respects`).
-/

namespace Stencil

open Likeness

variable {L : Likeness}

/-! ## Calls and routines that are alike -/

/-- The calls are the same but for bodies of lambdas. -/
structure Likeness.AlikeCall (L : Likeness) (c d : Call) : Prop where
  value : L.Alike c.value d.value
  arguments : List.Forall₂ L.Alike c.arguments d.arguments
  types : c.types = d.types
  culture : c.culture = d.culture
  depth : c.depth = d.depth
  isFalsey : ∀ v w, L.Alike v w → c.isFalsey v = d.isFalsey w

/-- The routines take the same steps, go on in the same way whatever invocations come to, and have
related results. -/
inductive Likeness.AlikeRoutine (L : Likeness) {α β : Type} (R : α → β → Prop) :
    Routine α → Routine β → Prop
  | done {a : α} {b : β} (h : R a b) : AlikeRoutine L R (.done a) (.done b)
  | fail (e : EvalError) : AlikeRoutine L R (.fail e) (.fail e)
  | ask {l k : Lambda} {vs ws : List Value} {next : Value → Routine α} {next' : Value → Routine β}
    {rescue : EvalError → Routine α} {rescue' : EvalError → Routine β} (hl : L.AlikeLambda l k)
    (hvs : List.Forall₂ L.Alike vs ws)
    (hnext : ∀ v w, L.Alike v w → AlikeRoutine L R (next v) (next' w))
    (hrescue : ∀ e, AlikeRoutine L R (rescue e) (rescue' e)) :
    AlikeRoutine L R (.ask l vs next rescue) (.ask k ws next' rescue')
  | cancel {next : Routine α} {next' : Routine β} (h : AlikeRoutine L R next next') :
    AlikeRoutine L R (.cancel next) (.cancel next')
  | pause {next : Routine α} {next' : Routine β} (h : AlikeRoutine L R next next') :
    AlikeRoutine L R (.pause next) (.pause next')

theorem Likeness.AlikeRoutine.invoke {α β : Type} {R : α → β → Prop} {l k : Lambda}
    {vs ws : List Value} {next : Value → Routine α} {next' : Value → Routine β}
    (hl : L.AlikeLambda l k) (hvs : List.Forall₂ L.Alike vs ws)
    (hnext : ∀ v w, L.Alike v w → L.AlikeRoutine R (next v) (next' w)) :
    L.AlikeRoutine R (.invoke l vs next) (.invoke k ws next') :=
  .ask hl hvs hnext .fail

/-! ## Respecting a likeness -/

def Action.Respects (L : Likeness) : Action → Prop
  | .compute f => ∀ c d, L.AlikeCall c d → L.Alike (f c) (f d)
  | .wait f => ∀ c d, L.AlikeCall c d → L.AlikeRoutine L.Alike (f c) (f d)

/-- An overload that does not tell calls that are alike. It may give an evaluation up. -/
structure Signature.Respects (L : Likeness) (s : Signature) : Prop where
  defaults : ∀ p ∈ s.params, ∀ v, p.kind = .optional v → L.Alike v v
  action : s.action.Respects L
  cancels : ∀ c d, L.AlikeCall c d → s.cancels c = s.cancels d

def Converter.Respects (L : Likeness) (c : Converter) : Prop :=
  ∀ v w target, L.Alike v w → L.Alike (c.convert v target) (c.convert w target)

structure Registry.Respects (L : Likeness) (r : Registry) : Prop where
  signatures : ∀ s ∈ r.signatures, s.Respects L
  converters : ∀ c ∈ r.converters, c.Respects L

/-- Options under which nothing but invocations shows the bodies of lambdas. -/
structure Options.Respects (L : Likeness) (o : Options) : Prop where
  registry : o.registry.Respects L
  lookup : ∀ v w key, L.Alike v w → Option.Rel L.Alike (o.lookup v key) (o.lookup w key)
  isFalsey : ∀ v w, L.Alike v w → o.isFalsey v = o.isFalsey w

/-! ## Fitting -/

theorem fitElements_alike {element : ParamType}
    (ih : ∀ v w : Value, L.Alike v w → ∀ known, element.fit v known = element.fit w known)
    {items items' : List Value} (h : List.Forall₂ L.Alike items items')
    (known : TypeArguments) :
    fitElements element element.fit items known = fitElements element element.fit items' known := by
  have heach := fitEach_congr (h.imp fun v w => ih v w)
  unfold fitElements
  -- A type parameter is held against the common type, other types against each element.
  cases element with
  | generic name =>
    cases h with
    | nil => rfl
    | cons hvw hrest => simp only [commonType_eq (.cons hvw hrest)]
  | _ => exact heach .keep known

/-- Values that are alike fit in the same way. -/
theorem ParamType.fit_alike (type : ParamType) : ∀ v w : Value, L.Alike v w →
    ∀ known, type.fit v known = type.fit w known := by
  induction type with
  | generic name =>
    intro v w h known
    simp only [ParamType.fit, h.type_eq]
  | array element ih =>
    intro v w h known
    cases h.view with
    | array hitems => exact fitElements_alike ih hitems known
    | _ => rfl
  | object element ih =>
    intro v w h known
    cases h.view with
    | object hmembers =>
      simp only [ParamType.fit, Fitting.unconverted, fitElements_alike ih (alike_values hmembers)]
    | _ => rfl
  | _ =>
    intro v w h known
    cases h.view <;> rfl

theorem fitAlike_of_alike {converters : List Converter} {types : ParamType → Prop} {v w : Value}
    (h : L.Alike v w) : FitAlike converters types v w :=
  fun type _ known => accept_congr h.type_eq (type.fit_alike v w h) known

/-- Arguments of the same name that are alike. -/
def Likeness.AlikeSupplied (L : Likeness) (a b : Supplied) : Prop :=
  a.name = b.name ∧ L.Alike a.value b.value

theorem CallShape.ofCall_alike (r : Registry) (matching : NameMatching) {v w : Value}
    (h : L.Alike v w) {as bs : List Supplied}
    (hs : List.Forall₂ L.AlikeSupplied as bs) :
    CallShape.ofCall r matching v as = CallShape.ofCall r matching w bs := by
  have hshapes : as.map (fun a => (a.name, a.value.shape)) =
      bs.map fun b => (b.name, b.value.shape) := by
    induction hs with
    | nil => rfl
    | cons hab _ ih => rw [List.map_cons, List.map_cons, hab.1, hab.2.shape_eq, ih]
  simp only [CallShape.ofCall, h.shape_eq, hshapes]

/-- Calls that are alike mean the same. -/
theorem Registry.resolve_alike (r : Registry) (matching : NameMatching) (name : String)
    {v w : Value} (h : L.Alike v w) {as bs : List Supplied}
    (hs : List.Forall₂ L.AlikeSupplied as bs) :
    r.resolve matching name v as = r.resolve matching name w bs :=
  resolve_congr name (CallShape.ofCall_alike r matching h hs) fun _ _ =>
    ⟨fitAlike_of_alike h, hs.imp fun _ _ hab => ⟨hab.1, fitAlike_of_alike hab.2⟩⟩

/-- Calls that are alike get the same answer, and the same is remembered after them. -/
theorem Registry.consult_alike (r : Registry) (m : Memory) (matching : NameMatching) (name : String)
    {v w : Value} (h : L.Alike v w) {as bs : List Supplied}
    (hs : List.Forall₂ L.AlikeSupplied as bs) :
    r.consult m matching name v as = r.consult m matching name w bs := by
  simp only [Registry.consult, CallShape.ofCall_alike r matching h hs,
    r.resolve_alike matching name h hs]

/-! ## Conversions and bindings -/

def Conversion.Respects (L : Likeness) : Conversion → Prop
  | .keep | .widen | .stringify => True
  | .convert c _ => c.Respects L
  | .elements each => each.Respects L

theorem Conversion.apply_alike {c : Conversion} (hc : c.Respects L) {v w : Value}
    (h : L.Alike v w) : L.Alike (c.apply v) (c.apply w) := by
  induction c generalizing v w with
  | keep => exact h
  | widen =>
    cases h.view with
    | int n => exact alike_float _
    | _ => exact h
  | stringify =>
    simp only [Conversion.apply, h.text_eq]
    exact alike_string _
  | convert c target => exact hc v w target h
  | elements each ih =>
    cases h.view with
    | array hitems =>
      refine alike_array (List.forall₂_map_left_iff.mpr (List.forall₂_map_right_iff.mpr ?_))
      exact hitems.imp fun _ _ hvw => ih hc hvw
    | _ => exact ih hc h

/-- What fits without converters is made to fit without them. -/
theorem fitEach_respects {fit : Value → Fitting Conversion}
    (hfit : ∀ v known, ∀ c ∈ (fit v known).1, c.Respects L) (items : List Value)
    {widest : Conversion} (hwidest : widest.Respects L) (known : TypeArguments) :
    ∀ c ∈ (fitEach fit items widest known).1, c.Respects L := by
  induction items generalizing widest known with
  | nil =>
    intro c hc
    obtain rfl := Option.some.inj hc
    split
    · trivial
    · exact hwidest
  | cons v rest ih =>
    simp only [fitEach]
    split
    · simp
    · next c known' hv =>
      refine ih ?_ known'
      split
      · exact hfit v known c (by rw [hv]; rfl)
      · exact hwidest

theorem fitGeneric_respects (name : String) (type : ValueType) (known : TypeArguments) :
    ∀ c ∈ (fitGeneric name type known).1, c.Respects L := by
  unfold fitGeneric
  intro c hc
  split at hc
  · split at hc
    · obtain rfl := Option.some.inj hc
      trivial
    · cases hc
  · obtain rfl := Option.some.inj hc
    trivial

theorem fitElements_respects {element : ParamType}
    (hfit : ∀ v known, ∀ c ∈ (element.fit v known).1, c.Respects L) (items : List Value)
    (known : TypeArguments) :
    ∀ c ∈ (fitElements element element.fit items known).1, c.Respects L := by
  unfold fitElements
  split
  · intro c hc
    obtain rfl := Option.some.inj hc
    trivial
  · split
    · exact fitGeneric_respects _ _ known
    · simp
  · have hkeep : Conversion.keep.Respects L := trivial
    exact fitEach_respects hfit items hkeep known

theorem ParamType.fit_respects (type : ParamType) : ∀ v known,
    ∀ c ∈ (type.fit v known).1, c.Respects L := by
  induction type with
  | generic name => exact fun v known => fitGeneric_respects name v.type known
  | array element ih =>
    intro v known
    cases v with
    | array items => exact fitElements_respects ih items known
    | _ => simp [ParamType.fit, Fitting.plain]
  | object element ih =>
    intro v known c hc
    cases v with
    | object members =>
      simp only [ParamType.fit, Fitting.unconverted] at hc
      split at hc
      · split at hc
        · obtain rfl := Option.some.inj hc
          trivial
        · cases hc
      · cases hc
    | _ => cases hc
  | host name =>
    intro v known c hc
    cases v with
    | host h =>
      simp only [ParamType.fit, Fitting.plain] at hc
      split at hc
      · obtain rfl := Option.some.inj hc
        trivial
      · cases hc
    | _ => cases hc
  | _ =>
    intro v known c hc
    cases v <;> cases hc <;> trivial

theorem accept_respects {converters : List Converter} (h : ∀ c ∈ converters, c.Respects L)
    (type : ParamType) (v : Value) (known : TypeArguments) :
    ∀ c ∈ (accept converters type v known).1, c.Respects L := by
  intro c hc
  unfold accept at hc
  -- A value fits without converters, or else by one of those registered.
  split at hc
  · next c' known' hfit =>
    obtain rfl := Option.some.inj hc
    exact type.fit_respects v known c' (by rw [hfit]; rfl)
  · obtain ⟨converter, hfound, rfl⟩ := Option.map_eq_some_iff.mp hc
    exact h converter (List.mem_of_find?_eq_some hfound)

def Binding.Respects (L : Likeness) : Binding → Prop
  | .argument _ c => c.Respects L
  | .default v => L.Alike v v
  | .rest items => ∀ item ∈ items, item.2.Respects L

theorem Binding.valueAt_alike {as bs : List Supplied}
    (h : List.Forall₂ L.AlikeSupplied as bs) (position : Nat) :
    L.Alike (Binding.valueAt as position) (Binding.valueAt bs position) := by
  induction h generalizing position with
  | nil => exact alike_null
  | cons hab _ ih =>
    cases position with
    | zero => exact hab.2
    | succ position => exact ih position

theorem Binding.value_alike {b : Binding} (hb : b.Respects L) {as bs : List Supplied}
    (h : List.Forall₂ L.AlikeSupplied as bs) :
    L.Alike (b.value as) (b.value bs) := by
  cases b with
  | argument position c => exact Conversion.apply_alike hb (valueAt_alike h position)
  | default v => exact hb
  | rest items =>
    refine alike_array (List.forall₂_map_left_iff.mpr (List.forall₂_map_right_iff.mpr ?_))
    exact List.forall₂_same.mpr fun item hitem =>
      Conversion.apply_alike (hb item hitem) (valueAt_alike h item.1)

/-- What was chosen converts and runs without a look into lambdas. -/
structure Resolution.Respects (L : Likeness) (r : Resolution) : Prop where
  signature : r.signature.Respects L
  valueConversion : r.valueConversion.Respects L
  bindings : ∀ b ∈ r.bindings, b.Respects L

theorem acceptAll_respects {converters : List Converter} (h : ∀ c ∈ converters, c.Respects L)
    {type : ParamType} {arguments : List Placed} {known known' : TypeArguments}
    {items : List (Nat × Conversion)}
    (hitems : acceptAll converters type arguments known = some (items, known')) :
    ∀ item ∈ items, item.2.Respects L := by
  induction arguments generalizing known items known' with
  | nil =>
    obtain ⟨rfl, rfl⟩ := Prod.mk.inj (Option.some.inj hitems)
    simp
  | cons a rest ih =>
    obtain ⟨c, between, items', haccept, hrest, rfl⟩ := exists_of_acceptAll_cons hitems
    exact List.forall_mem_cons.mpr
      ⟨accept_respects h type a.value known c (by rw [haccept]; rfl), ih hrest⟩

theorem Param.bind_respects {converters : List Converter} (h : ∀ c ∈ converters, c.Respects L)
    {p : Param} (hp : ∀ v, p.kind = .optional v → L.Alike v v) {surplus : List Placed}
    {slot : Option Placed} {known known' : TypeArguments} {b : Binding}
    (hb : p.bind converters surplus slot known = some (b, known')) : b.Respects L := by
  rcases Param.bind_cases hb with ⟨-, items, rfl, hitems⟩ | ⟨-, a, c, -, rfl, haccept⟩ |
    ⟨v, hkind, -, rfl, -⟩
  · exact acceptAll_respects h hitems
  · exact accept_respects h p.type a.value known c (by rw [haccept]; rfl)
  · exact hp v hkind

theorem bindParams_respects {converters : List Converter} (h : ∀ c ∈ converters, c.Respects L)
    {params : List Param} (hparams : ∀ p ∈ params, ∀ v, p.kind = .optional v → L.Alike v v)
    {surplus : List Placed} {slots : List (Option Placed)} {known known' : TypeArguments}
    {bindings : List Binding}
    (hb : bindParams converters surplus params slots known = some (bindings, known')) :
    ∀ b ∈ bindings, b.Respects L := by
  induction params generalizing slots known known' bindings with
  | nil =>
    obtain ⟨rfl, rfl⟩ := Prod.mk.inj (Option.some.inj hb)
    simp
  | cons p params ih =>
    cases slots with
    | nil =>
      obtain ⟨rfl, rfl⟩ := Prod.mk.inj (Option.some.inj hb)
      simp
    | cons slot slots =>
      obtain ⟨b, between, bindings', hfirst, hrest, rfl⟩ := exists_of_bindParams_cons hb
      exact List.forall_mem_cons.mpr
        ⟨Param.bind_respects h (hparams p List.mem_cons_self) hfirst,
          ih (fun q hq => hparams q (List.mem_cons_of_mem p hq)) hrest⟩

/-- What is chosen from a registry respects what the registry respects. -/
theorem Registry.resolve_respects {r : Registry} (hr : r.Respects L) {matching : NameMatching}
    {name : String} {v : Value} {arguments : List Supplied} {made : Resolution}
    (h : r.resolve matching name v arguments = some made) : made.Respects L := by
  obtain ⟨s, hs, hbound⟩ := exists_of_resolve h
  obtain ⟨conversion, known, _, _, bindings, _, haccept, hbindings, rfl⟩ :=
    Signature.bindCall_eq_some hbound
  exact ⟨hr.signatures s hs,
    accept_respects hr.converters s.valueType v [] conversion (by rw [haccept]; rfl),
    bindParams_respects hr.converters (hr.signatures s hs).defaults hbindings⟩

end Stencil
