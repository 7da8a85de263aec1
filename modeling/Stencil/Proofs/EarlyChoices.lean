import Stencil.Proofs.Agreement
import Stencil.Proofs.GivingUp
import Stencil.Proofs.Scopes
import Stencil.Proofs.Shapes

/-!
# Choices made in advance

Two evaluations are compared of which one may start with choices made in advance, when code was
made. Such a choice was made for an operator between two literals, and these are of types without
elements, for which the shape of a call says all (`Setting.early_serves`). So a choice made in
advance is the one that would be made, and calls that agree get the same answer at a site
(`Setting.consult_agree`).
-/

namespace Stencil

/-- A call forgets nothing. -/
theorem Registry.eq_none_of_memory {r : Registry} {m : Memory} {matching : NameMatching}
    {name : String} {v : Value} {arguments : List Supplied}
    (h : (r.consult m matching name v arguments).memory = none) : m = none := by
  unfold Registry.consult at h
  split at h
  · exact h
  · split at h
    · have h : m.keep _ = none := h
      unfold Memory.keep at h
      split at h
      · cases h
      · exact h
    · exact h

/-- What is fixed while two evaluations are compared. -/
structure Setting where
  /-- The formatter that each site belongs to. -/
  names : Nat → String
  /-- The options with which choices may have been made in advance. -/
  early : Options
  options : Options
  respects : options.Respects (agreement names)
  /-- Another registry has another generation. -/
  apart : early.registry.generation = options.registry.generation →
    early.registry = options.registry
  /-- Who learns from a lambda that the evaluation was given up passes it on, or nobody gives up. -/
  orderly : options.PassOn ∨ options.Steady

/-- What is known of a choice: it was made from the registry of the options, and nothing in it looks
into lambdas. -/
structure Setting.Chosen (S : Setting) (r : Resolution) : Prop where
  respects : r.Respects (agreement S.names)
  registered : r.signature ∈ S.options.registry.signatures

theorem Setting.chosen_of_resolve {S : Setting} {matching : NameMatching} {name : String}
    {v : Value} {arguments : List Supplied} {r : Resolution}
    (h : S.options.registry.resolve matching name v arguments = some r) : S.Chosen r :=
  ⟨Registry.resolve_respects S.respects.registry h, Registry.signature_of_resolve h⟩

namespace Setting

variable (S : Setting)

/-- The choice may have been made in advance at the site, for two literals. -/
def IsEarly (site : Nat) (r : Resolution) : Prop :=
  ∃ a b : Literal, S.early.registry.resolve S.early.matching (S.names site) a.toValue
    [⟨none, b.toValue⟩] = some r

/-- What a site remembers in two evaluations: the same, or at most choices made in advance. -/
def MemoryAgree (site : Nat) (m m' : Memory) : Prop :=
  (m = m' ∧ ∀ r ∈ m, S.Chosen r) ∨
    (∀ r ∈ m, S.IsEarly site r) ∧ ∀ r ∈ m', S.IsEarly site r

variable {S}

/-- A literal has no elements. -/
theorem literal_isFlat (l : Literal) (type : ParamType) :
    type.isSettledByType l.toValue.type = true ∧ l.toValue.shape.isConclusive = true := by
  rcases l with _ | b | (n | x) | s <;> cases type <;> exact ⟨rfl, rfl⟩

theorem fitAlike_of_literal {converters : List Converter} {types : ParamType → Prop} {l : Literal}
    {v : Value} (h : l.toValue.shape = v.shape) : FitAlike converters types l.toValue v :=
  fun type _ known =>
    have htype : l.toValue.type = v.type := congrArg Shape.type h
    accept_congr htype (fit_congr_of_type htype (literal_isFlat l type).1) known

/-- A choice made in advance that answers a call is the choice for this call, and was free to be
remembered. -/
theorem early_serves {site : Nat} {r : Resolution} (hr : S.IsEarly site r) {v : Value}
    {arguments : List Supplied}
    (hshape : r.shape = .ofCall S.options.registry S.options.matching v arguments) :
    S.options.registry.resolve S.options.matching (S.names site) v arguments = some r ∧
      r.shape.isReusable = true := by
  obtain ⟨a, b, hr⟩ := hr
  have hearly := Registry.shape_of_resolve hr
  obtain ⟨hgeneration, hmatching, hvalue, harguments⟩ :=
    CallShape.mk.inj (hearly.symm.trans hshape)
  -- The same generation: the choice was made among the formatters that the call has.
  have hregistry := S.apart hgeneration
  refine ⟨?_, ?_⟩
  · rw [← hr, hregistry, hmatching]
    symm
    refine Registry.resolve_congr _ ?_ fun s _ => ⟨fitAlike_of_literal hvalue, ?_⟩
    · rw [← hshape, hearly, hregistry, hmatching]
    -- The shape is that of a call with two literals, so there is one argument.
    · cases arguments with
      | nil => cases harguments
      | cons x rest =>
        obtain ⟨hx, hrest⟩ := List.cons.inj harguments
        obtain ⟨hname, hx⟩ := Prod.mk.inj hx
        obtain rfl : rest = [] := List.map_eq_nil_iff.mp hrest.symm
        exact .cons ⟨hname, fitAlike_of_literal hx⟩ .nil
  · rw [hearly]
    simp only [CallShape.isReusable, CallShape.ofCall, List.map_cons, List.map_nil, List.all_cons,
      List.all_nil, (literal_isFlat a .any).2, (literal_isFlat b .any).2, Bool.and_self]

/-- With choices made in advance the answer is the choice made afresh, and it is remembered if it
may be. -/
theorem consult_of_early {site : Nat} {m : Memory} (hm : ∀ r ∈ m, S.IsEarly site r) (v : Value)
    (arguments : List Supplied) :
    let fresh := S.options.registry.resolve S.options.matching (S.names site) v arguments
    let c := S.options.registry.consult m S.options.matching (S.names site) v arguments
    c.resolution = fresh ∧ c.memory = fresh.elim m m.keep := by
  simp only [Registry.consult]
  cases hfind : m.find? (.ofCall S.options.registry S.options.matching v arguments) with
  | some found =>
    obtain ⟨hfound, hdecide⟩ := Option.filter_eq_some_iff.mp hfind
    obtain ⟨hfresh, hreusable⟩ := early_serves (hm found hfound) (of_decide_eq_true hdecide)
    obtain rfl : m = some found := hfound
    simp only [hfresh, Option.elim_some, Memory.keep, hreusable, if_true, and_self]
  | none =>
    cases S.options.registry.resolve S.options.matching (S.names site) v arguments with
    | none => exact ⟨rfl, rfl⟩
    | some made => exact ⟨rfl, rfl⟩

theorem consult_chosen {site : Nat} {m : Memory} (hm : ∀ r ∈ m, S.Chosen r) (v : Value)
    (arguments : List Supplied) :
    let c := S.options.registry.consult m S.options.matching (S.names site) v arguments
    (∀ r ∈ c.resolution, S.Chosen r) ∧ ∀ r ∈ c.memory, S.Chosen r :=
  Registry.consult_forall _ _ _ _ hm fun _ => chosen_of_resolve

/-- Calls that agree get the same answer at a site, and leave memories that agree. -/
theorem consult_agree {site : Nat} {m m' : Memory} (hm : S.MemoryAgree site m m') {v w : Value}
    (hv : (agreement S.names).Alike v w) {as bs : List Supplied}
    (hs : List.Forall₂ (agreement S.names).AlikeSupplied as bs) :
    let c := S.options.registry.consult m S.options.matching (S.names site) v as
    let c' := S.options.registry.consult m' S.options.matching (S.names site) w bs
    c.resolution = c'.resolution ∧ (∀ made ∈ c.resolution, S.Chosen made) ∧
      S.MemoryAgree site c.memory c'.memory := by
  have hresolve := S.options.registry.resolve_alike S.options.matching (S.names site) hv hs
  rcases hm with ⟨rfl, hm⟩ | ⟨hm, hm'⟩
  · have hsame := S.options.registry.consult_alike m S.options.matching (S.names site) hv hs
    obtain ⟨hresolution, hmemory⟩ := consult_chosen hm v as
    exact ⟨congrArg Consultation.resolution hsame, hresolution,
      .inl ⟨congrArg Consultation.memory hsame, hmemory⟩⟩
  -- Both answers are the choice made afresh, which then is all that may be remembered.
  · obtain ⟨hresolution, hmemory⟩ := consult_of_early hm v as
    obtain ⟨hresolution', hmemory'⟩ := consult_of_early hm' w bs
    refine ⟨by rw [hresolution, hresolution', hresolve], ?_, ?_⟩
    · rw [hresolution]
      exact fun made hmade => chosen_of_resolve hmade
    · rw [hmemory, hmemory', ← hresolve]
      cases hmade : S.options.registry.resolve S.options.matching (S.names site) v as with
      | none => exact .inr ⟨hm, hm'⟩
      | some made =>
        show S.MemoryAgree site (m.keep made) (m'.keep made)
        unfold Memory.keep
        split
        · exact .inl ⟨rfl, fun r hr =>
            Option.some.inj hr ▸ chosen_of_resolve hmade⟩
        · exact .inr ⟨hm, hm'⟩

end Setting

end Stencil
