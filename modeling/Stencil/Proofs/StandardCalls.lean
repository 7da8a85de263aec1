import Stencil.Proofs.BoundTypes
import Stencil.Proofs.Outcome
import Stencil.Proofs.Ranking
import Stencil.Proofs.Remembering

/-!
# Calls of the formatters that are always there

What a call of one of these formatters comes to is a matter of two steps: which of the overloads the
call means, and what this one makes of the value and the argument. `Gives` states the result of both
for a call with one argument, wherever the call is made and whatever was called there before.

Most names have one overload only. A call with a value and an argument of the declared types is
bound to it as it is (`Signature.bindCall_asIs`), and so were all calls of this shape, of which one
may be remembered (`Registry.consult_of_shape`). So what such a call gives is what the overload
computes of the value and the argument (`gives_of_only`).
-/

namespace Stencil

/-- Whether a call comes to a result: made in any scope with the formatters that are always there,
at any site, on any context with the value, it gives the result and misses nothing. All that the site
remembers was chosen for calls by the same name of the same formatters. -/
def Gives (name : String) (v argument result : Value) : Prop :=
  ∀ (invoke : Invoke) (scope : Scope) (site : Nat) (c : Context) (s : RunState)
    (calls : List Inquiry), scope.options.registry = .standard →
    (∀ q ∈ calls, q.registry = .standard) → (s.memories.at site).Honest name calls →
    c.value = v →
    ∃ s', (EvalM.callFormatter invoke scope site name c [⟨none, argument⟩]).outcome s =
      (.ok (c.synthetic result), s') ∧ s'.unresolved = s.unresolved

/-! ## What is registered -/

namespace Registry

theorem signatures_standard : Registry.standard.signatures = Builtin.all.toArray := rfl

/-- Overloads of which all have the name that is asked for are all that is meant by it, if no others
are filed under it. -/
theorem named_standard {name : String} {candidates : List (Nat × Signature)}
    (hpositions : Registry.standard.positions name = candidates.map Prod.fst)
    (hall : ∀ c ∈ candidates, Builtin.all[c.1]? = some c.2 ∧ c.2.name = some name)
    (matching : NameMatching) : Registry.standard.named name matching = candidates := by
  have hat : ∀ c ∈ candidates, (Registry.standard.at? ∘ Prod.fst) c = some c := by
    intro c hc
    unfold Function.comp Registry.at?
    rw [signatures_standard, List.getElem?_toArray, (hall c hc).1]
    rfl
  have hadmits : matching.admits name name = true := by
    cases matching <;> exact beq_self_eq_true _
  unfold Registry.named
  rw [hpositions, List.filterMap_map, List.filterMap_congr hat, List.filterMap_some,
    List.filter_eq_self]
  intro c hc
  simp only [(hall c hc).2, Option.any_some, hadmits]

/-- A call means the best of the overloads with its name. -/
theorem resolve_standard {name : String} (hname : name ≠ "") {candidates : List (Nat × Signature)}
    (hpositions : Registry.standard.positions name = candidates.map Prod.fst)
    (hall : ∀ c ∈ candidates, Builtin.all[c.1]? = some c.2 ∧ c.2.name = some name)
    (matching : NameMatching) (v : Value) (arguments : List Supplied) :
    Registry.standard.resolve matching name v arguments =
      Registry.standard.choose (.ofCall .standard matching v arguments) v arguments candidates := by
  have hunnamed : Registry.standard.unnamed = [] := rfl
  have hnone (shape : CallShape) : Registry.standard.choose shape v arguments [] = none := rfl
  unfold Registry.resolve
  simp only [beq_eq_false_iff_ne.mpr hname, Bool.false_eq_true, if_false,
    named_standard hpositions hall, hunnamed, hnone, Option.or_none]

end Registry

/-- A value and an argument of the declared types are bound as they are. -/
theorem Signature.bindCall_asIs {s : Signature} {p : Param} (hparams : s.params = [p])
    (hrest : p.isRest = false) {v argument : Value} (hv : s.valueType.IsTypeOf [] v)
    (hargument : p.type.IsTypeOf [] argument) (converters : List Converter) (shape : CallShape) :
    s.bindCall converters shape v [⟨none, argument⟩] =
      some ⟨s, .keep, [.argument 0 .keep], [], shape⟩ := by
  have haccept {type : ParamType} {w : Value} (hw : type.IsTypeOf [] w) :
      accept converters type w [] = (some .keep, []) := by
    rw [accept, fit_of_isTypeOf type hw]
  have hbind : p.bind converters [] (some ⟨0, argument⟩) [] = some (.argument 0 .keep, []) := by
    obtain ⟨name, alternative, type, kind⟩ := p
    cases kind with
    | rest => cases hrest
    | required | optional => simp only [Param.bind, haccept hargument]
  have hfill : fillInOrder [p] [none] [⟨0, argument⟩] = ([some ⟨0, argument⟩], []) := by
    simp [fillInOrder, hrest]
  unfold Signature.bindCall
  simp only [haccept hv, hparams, placedFrom, claimByName, List.map_cons, List.map_nil,
    List.filter_cons, List.filter_nil, Option.isNone_none, if_true, Option.bind_eq_bind,
    Option.bind_some, hfill, List.isEmpty_nil, Bool.not_true, Bool.false_and, Bool.false_eq_true,
    if_false, bindParams, hbind]
  rfl

/-! ## What calls give -/

/-- What is remembered was chosen for a call of the same shape. So it is as expected if this can be
told from the shape. -/
theorem Registry.consult_of_shape {name : String} {calls : List Inquiry}
    (hcalls : ∀ q ∈ calls, q.registry = .standard) {m : Memory} (hm : m.Honest name calls)
    (asked : Inquiry) (hasked : asked.registry = .standard) {expected : Resolution → Prop}
    (h : ∀ q : Inquiry, q.registry = .standard → q.shape = asked.shape →
      ∃ r, q.choice name = some r ∧ expected r) :
    ∃ r, (asked.registry.consult m asked.matching name asked.value asked.arguments).resolution =
      some r ∧ expected r := by
  unfold consult
  split
  · next r hfound =>
    obtain ⟨hr, hshape⟩ := Option.filter_eq_some_iff.mp hfound
    obtain ⟨-, q, hq, hchoice⟩ := hm r hr
    have hsame : q.shape = asked.shape :=
      (Inquiry.shape_of_choice hchoice).symm.trans (of_decide_eq_true hshape)
    obtain ⟨r', hchoice', hexpected⟩ := h q (hcalls q hq) hsame
    obtain rfl := Option.some.inj (hchoice.symm.trans hchoice')
    exact ⟨r, rfl, hexpected⟩
  · obtain ⟨r, hchoice, hexpected⟩ := h asked hasked rfl
    have hchoice : asked.registry.resolve asked.matching name asked.value asked.arguments =
        some r := hchoice
    rw [hchoice]
    exact ⟨r, rfl, hexpected⟩

section Gives

variable {name : String} {v argument result : Value} {f : Call → Value}
  (hf : ∀ c : Call, c.value = v → c.arguments = [argument] → f c = result)

include hf

/-- What a call gives if all calls of its shape are bound as they are to an overload that computes
its result. -/
theorem gives_of_resolve {other : String} {valueType : ParamType} {params : List Param}
    (hresolve : ∀ matching (w x : Value), w.shape = v.shape → x.shape = argument.shape →
      ∃ shape, Registry.standard.resolve matching name w [⟨none, x⟩] =
        some ⟨.computing other valueType params f, .keep, [.argument 0 .keep], [], shape⟩) :
    Gives name v argument result := by
  rintro invoke scope site c s calls hregistry hcalls hmemory rfl
  have hconsult : ∃ r, (Registry.standard.consult (s.memories.at site) scope.options.matching name
        c.value [⟨none, argument⟩]).resolution = some r ∧
      ∃ shape, r =
        ⟨.computing other valueType params f, .keep, [.argument 0 .keep], [], shape⟩ := by
    refine Registry.consult_of_shape hcalls hmemory
      ⟨.standard, scope.options.matching, c.value, [⟨none, argument⟩]⟩ rfl ?_
    rintro ⟨registry, matching, w, arguments⟩ rfl hshape
    obtain ⟨-, rfl, hw, harguments⟩ := CallShape.mk.inj hshape
    obtain ⟨⟨given, x⟩, rfl, hx⟩ := List.map_eq_singleton_iff.mp harguments
    obtain ⟨rfl, hx⟩ := Prod.mk.inj hx
    obtain ⟨shape, hchoice⟩ := hresolve scope.options.matching w x hw hx
    exact ⟨_, hchoice, shape, rfl⟩
  obtain ⟨_, hconsult, shape, rfl⟩ := hconsult
  have hrun (t : RunState) : (EvalM.execute invoke scope
        ⟨.computing other valueType params f, .keep, [.argument 0 .keep], [], shape⟩ c.value
        [⟨none, argument⟩]).outcome t =
      (.ok result, { t with
        events :=
          .invoked (.computing other valueType params f) c.value [argument] :: t.events }) := by
    rw [← hf ⟨c.value, [argument], [], scope.options.culture, scope.depth,
      scope.options.isFalsey⟩ rfl rfl]
    rfl
  unfold EvalM.callFormatter
  simp only [EvalM.outcome_bind, EvalM.outcome_resolveAt, hregistry, hconsult, hrun,
    EvalM.outcome_pure]
  refine ⟨_, rfl, ?_⟩
  -- The event says what was run, not that something was missed.
  simp only [RunState.unresolved, List.reverse_cons, List.filterMap_append, List.filterMap_cons,
    List.filterMap_nil, List.append_nil]

/-- What a call gives by a name with a single overload, if all values and arguments of these shapes
are of the declared types. -/
theorem gives_of_only {i : Nat} {valueType : ParamType} {p : Param}
    (hposition : Registry.standard.positions name = [i])
    (hsignature : Builtin.all[i]? = some (.computing name valueType [p] f)) (hname : name ≠ "")
    (hrest : p.isRest = false) (hv : ∀ w : Value, w.shape = v.shape → valueType.IsTypeOf [] w)
    (hargument : ∀ x : Value, x.shape = argument.shape → p.type.IsTypeOf [] x) :
    Gives name v argument result := by
  have hcandidates : Registry.standard.positions name =
      [(i, Signature.computing name valueType [p] f)].map Prod.fst := hposition
  have hresolve (matching : NameMatching) (w x : Value) (hw : w.shape = v.shape)
      (hx : x.shape = argument.shape) :
      Registry.standard.resolve matching name w [⟨none, x⟩] =
        some ⟨.computing name valueType [p] f, .keep, [.argument 0 .keep], [],
          .ofCall .standard matching w [⟨none, x⟩]⟩ := by
    rw [Registry.resolve_standard hname hcandidates
      (List.forall_mem_singleton.mpr ⟨hsignature, rfl⟩)]
    have hbound := Signature.bindCall_asIs (s := .computing name valueType [p] f) rfl hrest
      (hv w hw) (hargument x hx)
    unfold Registry.choose
    simp only [List.filterMap_cons, List.filterMap_nil, Option.map_some, hbound]
    rfl
  exact gives_of_resolve hf fun matching w x hw hx => ⟨_, hresolve matching w x hw hx⟩

end Gives

end Stencil
