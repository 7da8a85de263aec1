import Stencil.Formatter.Builtin
import Stencil.Proofs.Respect

/-!
# The formatters that are always there respect every likeness

None of them looks into a lambda: lambdas are passed on, compared by their numbers, or invoked.

Main statement: `Registry.standard_respects`.
-/

namespace Stencil

open Likeness

variable {L : Likeness}

namespace Likeness.AlikeCall

variable {c d : Call}

theorem argument (h : L.AlikeCall c d) (index : Nat) :
    L.Alike (c.argument index) (d.argument index) := by
  have hfound := alike_getElem? h.arguments index
  unfold Call.argument
  rw [List.getD_eq_getElem?_getD, List.getD_eq_getElem?_getD]
  generalize c.arguments[index]? = x at hfound
  generalize d.arguments[index]? = y at hfound
  cases hfound with
  | none => exact alike_null
  | some hv => exact hv

theorem isTruthy (h : L.AlikeCall c d) {v w : Value} (hv : L.Alike v w) :
    c.isTruthy v = d.isTruthy w :=
  congrArg (!·) (h.isFalsey v w hv)

end Likeness.AlikeCall

/-! ## Ways to make overloads -/

/-- Every default is alike to itself. -/
def DefaultsAlike (L : Likeness) (params : List Param) : Prop :=
  ∀ p ∈ params, ∀ v, p.kind = .optional v → L.Alike v v

theorem defaultsAlike_nil : DefaultsAlike L [] := by
  simp [DefaultsAlike]

theorem defaultsAlike_needed (name : String) (type : ParamType) :
    DefaultsAlike L [.needed name type] := by
  simp [DefaultsAlike, Param.needed]

theorem defaultsAlike_default (name : String) (type : ParamType) {v : Value} (h : L.Alike v v) :
    DefaultsAlike L [.default name type v] := by
  simpa [DefaultsAlike, Param.default] using h

theorem defaultsAlike_remaining (name : String) (type : ParamType) :
    DefaultsAlike L [.remaining name type] := by
  simp [DefaultsAlike, Param.remaining]

theorem Signature.computing_respects {name : String} {type : ParamType} {params : List Param}
    {f : Call → Value} (hparams : DefaultsAlike L params)
    (hf : ∀ c d, L.AlikeCall c d → L.Alike (f c) (f d)) :
    (Signature.computing name type params f).Respects L :=
  ⟨hparams, hf, fun _ _ _ => rfl⟩

namespace Builtin

/-! ## Operators -/

theorem binary_respects (op : Operator) (type : ParamType) {f : Call → Value → Value → Value}
    (hf : ∀ c d, L.AlikeCall c d → ∀ a a' b b', L.Alike a a' → L.Alike b b' →
      L.Alike (f c a b) (f d a' b')) : (binary op type f).Respects L :=
  Signature.computing_respects (defaultsAlike_needed _ _)
    fun c d h => hf c d h _ _ _ _ h.value (h.argument 0)

theorem arithmetic_respects (op : Operator) (a : Arithmetic) :
    (arithmetic op a).Respects L :=
  binary_respects op .number fun _ _ _ _ _ _ _ ha hb => ha.arithmetic a hb

theorem comparison_respects (op : Operator) (type : ParamType) (holds : Ordering → Bool) :
    (comparison op type holds).Respects L := by
  refine binary_respects op type fun _ _ _ a a' b b' ha hb => ?_
  rw [ha.compare?_eq hb]
  cases a'.compare? b' with
  | none => exact alike_null
  | some o => exact alike_bool _

theorem selection_respects (op : Operator) (type : ParamType) (keepsLeft : Ordering → Bool) :
    (selection op type keepsLeft).Respects L := by
  refine binary_respects op type fun _ _ _ a a' b b' ha hb => ?_
  rw [ha.compare?_eq hb]
  cases a'.compare? b' with
  | none => exact alike_null
  | some o =>
    show L.Alike (if keepsLeft o then a else b) (if keepsLeft o then a' else b')
    split
    · exact ha
    · exact hb

theorem shift_respects (op : Operator) (toLeft : Bool) : (shift op toLeft).Respects L := by
  refine binary_respects op .integer fun _ _ _ a a' b b' ha hb => ?_
  rw [ha.asInt?_eq, hb.asInt?_eq]
  unfold shiftBits
  split <;> simp

theorem elements_alike {v w : Value} (h : L.Alike v w) :
    List.Forall₂ L.Alike (elements v) (elements w) := by
  cases h.view with
  | array hitems => exact hitems
  | _ => exact .nil

theorem operators_respects : ∀ s ∈ operators, s.Respects L := by
  simp only [operators, List.forall_mem_cons, List.not_mem_nil, false_imp_iff, implies_true,
    and_true, arithmetic_respects, comparison_respects, selection_respects, shift_respects,
    true_and]
  -- What is left are the operators that are not one of a family.
  refine ⟨?concat, ?append, ?equal, ?notEqual, ?and, ?or, ?not, ?coalesce⟩
  case concat =>
    refine binary_respects _ _ fun _ _ _ _ _ _ _ ha hb => ?_
    rw [ha.text_eq, hb.text_eq]
    exact alike_string _
  case append =>
    exact binary_respects _ _ fun _ _ _ _ _ _ _ ha hb =>
      alike_array (List.rel_append (elements_alike ha) (elements_alike hb))
  case equal =>
    refine binary_respects _ _ fun _ _ _ _ _ _ _ ha hb => ?_
    rw [ha.looselySame_eq hb]
    exact alike_bool _
  case notEqual =>
    refine binary_respects _ _ fun _ _ _ _ _ _ _ ha hb => ?_
    rw [ha.looselySame_eq hb]
    exact alike_bool _
  case and =>
    refine binary_respects _ _ fun _ _ h _ _ _ _ ha hb => ?_
    rw [h.isTruthy ha, h.isTruthy hb]
    exact alike_bool _
  case or =>
    refine binary_respects _ _ fun _ _ h _ _ _ _ ha hb => ?_
    rw [h.isTruthy ha, h.isTruthy hb]
    exact alike_bool _
  case not =>
    refine Signature.computing_respects defaultsAlike_nil fun _ _ h => ?_
    rw [h.isTruthy h.value]
    exact alike_bool _
  case coalesce =>
    refine binary_respects _ _ fun _ _ _ a a' b b' ha hb => ?_
    rw [ha.isNull_eq]
    split
    · exact hb
    · exact ha

/-! ## Groups, texts and numbers -/

theorem groups_respects : ∀ s ∈ groups, s.Respects L := by
  simp only [groups, List.forall_mem_cons, List.not_mem_nil, false_imp_iff, implies_true, and_true]
  exact ⟨⟨defaultsAlike_nil, fun _ _ h => h.value, fun _ _ _ => rfl⟩,
    ⟨defaultsAlike_needed _ _, fun _ _ h => h.argument 0, fun _ _ _ => rfl⟩⟩

theorem onText_respects (name : String) (f : List Char → List Char) :
    (onText name f).Respects L := by
  refine Signature.computing_respects defaultsAlike_nil fun _ _ h => ?_
  rw [h.value.text_eq]
  exact alike_string _

theorem splitText_alike (separator text : String) :
    L.Alike (splitText separator text) (splitText separator text) := by
  refine alike_array (List.forall₂_same.mpr fun v hv => ?_)
  obtain ⟨cs, -, rfl⟩ := List.mem_map.mp hv
  exact alike_string _

theorem texts_respects : ∀ s ∈ texts, s.Respects L := by
  simp only [texts, List.forall_mem_cons, List.not_mem_nil, false_imp_iff, implies_true, and_true,
    onText_respects, true_and]
  refine ⟨?toString, ?length, ?contains, ?concat, ?split⟩
  case toString =>
    refine Signature.computing_respects defaultsAlike_nil fun _ _ h => ?_
    rw [h.value.text_eq]
    exact alike_string _
  case length =>
    refine Signature.computing_respects defaultsAlike_nil fun _ _ h => ?_
    rw [h.value.asString?_eq]
    exact alike_int _
  case contains =>
    refine Signature.computing_respects (defaultsAlike_needed _ _) fun _ _ h => ?_
    rw [h.value.asString?_eq, (h.argument 0).text_eq]
    exact alike_bool _
  case concat =>
    refine Signature.computing_respects (defaultsAlike_remaining _ _) fun c d h => ?_
    have hparts := h.argument 0
    rw [h.value.text_eq]
    generalize c.argument 0 = v at hparts
    generalize d.argument 0 = w at hparts
    cases hparts.view with
    | array hitems =>
      simp only [texts_map_eq hitems]
      exact alike_string _
    | _ => exact alike_string _
  case split =>
    refine Signature.computing_respects (defaultsAlike_needed _ _) fun _ _ h => ?_
    rw [h.value.text_eq, (h.argument 0).text_eq]
    exact splitText_alike _ _

theorem roundFloat_alike (x : Float) (digits : Int) :
    L.Alike (roundFloat x digits) (roundFloat x digits) := by
  unfold roundFloat
  split
  · simp
  · dsimp only
    split <;> simp

theorem absolute_alike (v : Value) : L.Alike (absolute v) (absolute v) := by
  unfold absolute
  split
  · cases int64? _ <;> simp
  · simp

theorem numbers_respects : ∀ s ∈ numbers, s.Respects L := by
  have hdigits : DefaultsAlike L [digits] := defaultsAlike_default _ _ (by simp)
  simp only [numbers, List.forall_mem_cons, List.not_mem_nil, false_imp_iff, implies_true, and_true]
  refine ⟨?wholeRound, ?round, ?wholeAbs, ?abs⟩
  case wholeRound => exact Signature.computing_respects hdigits fun _ _ h => h.value
  case round =>
    refine Signature.computing_respects hdigits fun _ _ h => ?_
    rw [h.value.asFloat?_eq, (h.argument 0).asInt?_eq]
    exact roundFloat_alike _ _
  case wholeAbs =>
    refine Signature.computing_respects defaultsAlike_nil fun c d h => ?_
    have habsolute : absolute c.value = absolute d.value := by
      unfold absolute
      rw [h.value.asInt?_eq]
    rw [habsolute]
    exact absolute_alike _
  case abs =>
    refine Signature.computing_respects defaultsAlike_nil fun _ _ h => ?_
    rw [h.value.asFloat?_eq]
    exact alike_float _

/-! ## Arrays and objects -/

theorem count_alike {v w : Value} (h : L.Alike v w) : L.Alike (count v) (count w) := by
  cases h.view with
  | array hitems =>
    simp only [count, hitems.length_eq]
    exact alike_int _
  | object hmembers =>
    simp only [count, hmembers.length_eq]
    exact alike_int _
  | _ => exact alike_int _

theorem onArray_respects {name : String} {element : ParamType} {params : List Param}
    {otherwise : Value} {f : Call → List Value → Value} (hparams : DefaultsAlike L params)
    (hotherwise : L.Alike otherwise otherwise)
    (hf : ∀ c d, L.AlikeCall c d → ∀ items items',
      List.Forall₂ L.Alike items items' → L.Alike (f c items) (f d items')) :
    (onArray name element params otherwise f).Respects L := by
  refine Signature.computing_respects hparams fun c d h => ?_
  have hvalue := h.value
  revert hvalue
  generalize hv : c.value = v
  generalize hw : d.value = w
  intro hvalue
  cases hvalue.view with
  | array hitems => exact hf c d h _ _ hitems
  | _ => exact hotherwise

theorem map_alike {α β α' β' : Type} {R : α → β → Prop} {R' : α' → β' → Prop} {x : Routine α}
    {y : Routine β} (h : L.AlikeRoutine R x y) {f : α → α'} {g : β → β'}
    (hfg : ∀ a b, R a b → R' (f a) (g b)) : L.AlikeRoutine R' (x.map f) (y.map g) := by
  induction h with
  | done h => exact .done (hfg _ _ h)
  | fail e => exact .fail e
  | ask hl hvs _ _ ih ihrescue => exact .ask hl hvs ih ihrescue
  | cancel _ ih => exact .cancel ih
  | pause _ ih => exact .pause ih

theorem callEach_alike {l k : Lambda} (hl : L.AlikeLambda l k) {items items' : List Value}
    (h : List.Forall₂ L.Alike items items') :
    L.AlikeRoutine (List.Forall₂ L.Alike) (Routine.callEach l items)
      (Routine.callEach k items') := by
  induction h with
  | nil => exact .done .nil
  | cons hvw _ ih =>
    exact .invoke hl (.cons hvw .nil) fun _ _ hresult => map_alike ih fun _ _ hrest =>
      .cons hresult hrest

theorem keepEach_alike {l k : Lambda} (hl : L.AlikeLambda l k) {keeps keeps' : Value → Bool}
    (hkeeps : ∀ v w, L.Alike v w → keeps v = keeps' w) {items items' : List Value}
    (h : List.Forall₂ L.Alike items items') :
    L.AlikeRoutine (List.Forall₂ L.Alike) (Routine.keepEach l keeps items)
      (Routine.keepEach k keeps' items') := by
  induction h with
  | nil => exact .done .nil
  | cons hvw _ ih =>
    refine .invoke hl (.cons hvw .nil) fun v w hresult => map_alike ih fun _ _ hrest => ?_
    rw [hkeeps v w hresult]
    split
    · exact .cons hvw hrest
    · exact hrest

theorem onEach_respects {name parameter : String}
    {f : Call → Lambda → List Value → Routine (List Value)}
    (hf : ∀ c d, L.AlikeCall c d → ∀ l k, L.AlikeLambda l k → ∀ items items',
      List.Forall₂ L.Alike items items' →
        L.AlikeRoutine (List.Forall₂ L.Alike) (f c l items) (f d k items')) :
    (onEach name parameter f).Respects L := by
  refine ⟨defaultsAlike_needed _ _, fun c d h => ?_, fun _ _ _ => rfl⟩
  have hvalue := h.value
  have hargument := h.argument 0
  dsimp only
  generalize c.value = v at hvalue
  generalize d.value = w at hvalue
  generalize c.argument 0 = a at hargument
  generalize d.argument 0 = b at hargument
  cases hvalue.view with
  | array hitems =>
    cases hargument.view with
    | lambda hl => exact map_alike (hf c d h _ _ hl _ _ hitems) fun _ _ => alike_array
    | _ => exact .done alike_null
  | _ => exact .done alike_null

theorem head?_alike {items items' : List Value}
    (h : List.Forall₂ L.Alike items items') :
    L.Alike (items.head?.getD .null) (items'.head?.getD .null) := by
  cases h with
  | nil => exact alike_null
  | cons hvw _ => exact hvw

theorem getLast?_alike {items items' : List Value}
    (h : List.Forall₂ L.Alike items items') :
    L.Alike (items.getLast?.getD .null) (items'.getLast?.getD .null) := by
  rw [← List.head?_reverse, ← List.head?_reverse]
  exact head?_alike (List.rel_reverse h)

theorem sum_alike {items items' : List Value} (h : List.Forall₂ L.Alike items items')
    {v w : Value} (hv : L.Alike v w) :
    L.Alike (items.foldl Arithmetic.add.apply v) (items'.foldl Arithmetic.add.apply w) := by
  induction h generalizing v w with
  | nil => exact hv
  | cons hab _ ih => exact ih (hv.arithmetic .add hab)

theorem contains_alike {items items' : List Value}
    (h : List.Forall₂ L.Alike items items') {v w : Value} (hv : L.Alike v w) :
    items.any (fun item => item.looselySame v) = items'.any fun item => item.looselySame w := by
  induction h with
  | nil => rfl
  | cons hab _ ih => rw [List.any_cons, List.any_cons, hab.looselySame_eq hv, ih]

theorem collections_respects : ∀ s ∈ collections, s.Respects L := by
  have hcount : ∀ c d, L.AlikeCall c d → L.Alike (count c.value) (count d.value) :=
    fun _ _ h => count_alike h.value
  simp only [collections, List.forall_mem_cons, List.not_mem_nil, false_imp_iff, implies_true,
    and_true]
  refine ⟨?length, ?count, ?countMembers, ?contains, ?join, ?first, ?last, ?sum, ?select, ?keep⟩
  case length => exact Signature.computing_respects defaultsAlike_nil hcount
  case count => exact Signature.computing_respects defaultsAlike_nil hcount
  case countMembers => exact Signature.computing_respects defaultsAlike_nil hcount
  case contains =>
    refine onArray_respects (defaultsAlike_needed _ _) (by simp) fun _ _ h _ _ hitems => ?_
    rw [contains_alike hitems (h.argument 0)]
    exact alike_bool _
  case join =>
    refine onArray_respects (defaultsAlike_default _ _ (by simp)) (by simp)
      fun _ _ h _ _ hitems => ?_
    rw [(h.argument 0).text_eq, texts_map_eq hitems]
    exact alike_string _
  case first =>
    exact onArray_respects defaultsAlike_nil (by simp) fun _ _ _ _ _ hitems => head?_alike hitems
  case last =>
    exact onArray_respects defaultsAlike_nil (by simp) fun _ _ _ _ _ hitems => getLast?_alike hitems
  case sum =>
    exact onArray_respects defaultsAlike_nil (by simp) fun _ _ _ _ _ hitems =>
      sum_alike hitems (alike_int 0)
  case select => exact onEach_respects fun _ _ _ _ _ hl _ _ hitems => callEach_alike hl hitems
  case keep =>
    exact onEach_respects fun _ _ h _ _ hl _ _ hitems =>
      keepEach_alike hl (fun _ _ hvw => h.isTruthy hvw) hitems

theorem all_respects : ∀ s ∈ all, s.Respects L := by
  simp only [all, List.forall_mem_append]
  exact ⟨⟨⟨⟨operators_respects, groups_respects⟩, texts_respects⟩, collections_respects⟩,
    numbers_respects⟩

end Builtin

namespace Registry

theorem mem_of_file {r : Registry} {generation : Nat} {s t : Signature}
    (h : t ∈ (r.file generation s).signatures) : t ∈ r.signatures ∨ t = s := by
  refine Array.mem_push.mp ?_
  unfold Registry.file at h
  split at h <;> exact h

/-- Registering overloads adds no others and no converters. -/
theorem of_registerAll (generation : Nat) (r : Registry) (signatures : List Signature) :
    (∀ t ∈ (r.registerAll generation signatures).signatures, t ∈ r.signatures ∨ t ∈ signatures) ∧
      (r.registerAll generation signatures).converters = r.converters := by
  induction signatures generalizing r with
  | nil => exact ⟨fun _ ht => .inl ht, rfl⟩
  | cons s rest ih =>
    obtain ⟨hrest, hconverters⟩ := ih ((r.register generation s).toOption.getD r)
    have hfirst : (∀ t ∈ ((r.register generation s).toOption.getD r).signatures,
          t ∈ r.signatures ∨ t = s) ∧
        ((r.register generation s).toOption.getD r).converters = r.converters := by
      unfold Registry.register
      split
      · exact ⟨fun _ ht => .inl ht, rfl⟩
      · refine ⟨fun _ => mem_of_file, ?_⟩
        show (r.file generation s).converters = _
        unfold Registry.file
        split <;> rfl
    refine ⟨fun t ht => ?_, hconverters.trans hfirst.2⟩
    rcases hrest t ht with ht | ht
    · exact (hfirst.1 t ht).imp_right fun heq : t = s => heq ▸ List.mem_cons_self
    · exact .inr (List.mem_cons_of_mem s ht)

theorem mem_of_standard {s : Signature} (h : s ∈ Registry.standard.signatures) :
    s ∈ Builtin.all :=
  ((of_registerAll 0 (Registry.empty 0) Builtin.all).1 s h).resolve_left (by simp [Registry.empty])

theorem converters_standard : Registry.standard.converters = [] :=
  (of_registerAll 0 (Registry.empty 0) Builtin.all).2

/-- The formatters that are always there do not look into lambdas. -/
theorem standard_respects : Registry.standard.Respects L :=
  ⟨fun s hs => Builtin.all_respects s (mem_of_standard hs), by simp [converters_standard]⟩

end Registry

/-- The options of a configuration do not look into lambdas. -/
theorem Options.ofConfig_respects (config : Config) : (Options.ofConfig config).Respects L :=
  ⟨Registry.standard_respects, fun _ _ _ _ => .none, fun _ _ h => h.isFalsey_eq⟩

end Stencil
