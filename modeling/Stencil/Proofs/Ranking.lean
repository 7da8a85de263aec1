import Stencil.Proofs.Choice
import Stencil.Proofs.Registration

/-!
# Which overload wins

A call takes the best of the overloads that can be bound to it. Where two are equally good it takes
the one registered first, and one without a name only where no named one can be bound.

Nothing else decides. Which overloads contend for a call is known from what the registry holds
(`Registry.Contends`), how each is bound does not depend on the others, and what is chosen precedes
all of them (`Registry.wins_of_resolve`). Choices of one registry that precede each other are one
(`Resolution.Precedes.antisymm`). So it is enough to follow the contenders from one registry to
another (`Registry.Contends.transfer`). One more overload adds a contender at most, or is the first
that is meant, and another order of registration moves them.

Main statement: `overload_choice_stable`.
-/

namespace Stencil

namespace Resolution

/-! ## The order of choices -/

/-- The first choice is better: closer to an argument for each parameter, or as close with less
conversion, or with as much conversion and types that say more. -/
def Outranks (a b : Resolution) : Prop :=
  a.slack < b.slack ∨ a.slack = b.slack ∧ (a.cost < b.cost ∨ a.cost = b.cost ∧
    b.signature.specificity < a.signature.specificity)

/-- The choices are equally good. -/
def Ties (a b : Resolution) : Prop :=
  a.slack = b.slack ∧ a.cost = b.cost ∧ a.signature.specificity = b.signature.specificity

/-- The first choice, of the overload at `i`, is better than the second, of the one at `j`, or as
good and not registered later. -/
def Precedes (i : Nat) (a : Resolution) (j : Nat) (b : Resolution) : Prop :=
  a.Outranks b ∨ a.Ties b ∧ i ≤ j

theorem better_eq_false_iff {i j : Nat} {a b : Resolution} :
    (b.rank j).better (a.rank i) = false ↔ Precedes i a j b := by
  unfold Precedes Outranks Ties Rank.better rank
  dsimp only
  split_ifs <;> rw [decide_eq_false_iff_not] <;> omega

theorem Precedes.refl (i : Nat) (a : Resolution) : Precedes i a i a :=
  .inr ⟨⟨rfl, rfl, rfl⟩, Nat.le_refl i⟩

theorem Precedes.trans {i j k : Nat} {a b c : Resolution} (h : Precedes i a j b)
    (h' : Precedes j b k c) : Precedes i a k c := by
  unfold Precedes Outranks Ties at *
  omega

theorem Precedes.total (i : Nat) (a : Resolution) (j : Nat) (b : Resolution) :
    Precedes i a j b ∨ Precedes j b i a := by
  unfold Precedes Outranks Ties
  omega

/-- Choices that precede each other, in whatever registries, are equally good. -/
theorem Precedes.ties {i j k l : Nat} {a b : Resolution} (h : Precedes i a j b)
    (h' : Precedes k b l a) : a.Ties b := by
  unfold Precedes Outranks Ties at *
  omega

/-- Choices of one registry that precede each other are of the same overload. -/
theorem Precedes.antisymm {i j : Nat} {a b : Resolution} (h : Precedes i a j b)
    (h' : Precedes j b i a) : i = j := by
  unfold Precedes Outranks Ties at *
  omega

/-- What precedes an overload registered earlier is better. -/
theorem Precedes.outranks {i j : Nat} {a b : Resolution} (h : Precedes i a j b) (hlt : j < i) :
    a.Outranks b :=
  h.resolve_right fun htie => absurd htie.2 (Nat.not_le_of_lt hlt)

end Resolution

theorem bestOf_eq_none_iff {candidates : List (Nat × Resolution)} :
    bestOf candidates = none ↔ candidates = [] := by
  cases candidates with
  | nil => exact ⟨fun _ => rfl, fun _ => rfl⟩
  | cons head rest =>
    refine ⟨fun h => ?_, fun h => nomatch h⟩
    unfold bestOf at h
    split at h
    · cases h
    · split at h <;> cases h

/-- The best of several overloads precedes all. -/
theorem precedes_of_bestOf {candidates : List (Nat × Resolution)} {best : Nat × Resolution}
    (h : bestOf candidates = some best) :
    ∀ c ∈ candidates, Resolution.Precedes best.1 best.2 c.1 c.2 := by
  induction candidates generalizing best with
  | nil => cases h
  | cons head rest ih =>
    obtain ⟨i, r⟩ := head
    unfold bestOf at h
    split at h
    · next hrest =>
      obtain rfl := Option.some.inj h
      rw [bestOf_eq_none_iff.mp hrest]
      exact List.forall_mem_singleton.mpr (.refl i r)
    · next j found hrest =>
      -- The best of the rest is compared with the first.
      have hfound := ih hrest
      split at h <;> obtain rfl := Option.some.inj h
      · next hbetter =>
        have hnot : ¬ Resolution.Precedes i r j found := by
          rw [← Resolution.better_eq_false_iff, hbetter]
          exact Bool.noConfusion
        exact List.forall_mem_cons.mpr
          ⟨(Resolution.Precedes.total j found i r).resolve_right hnot, hfound⟩
      · next hbetter =>
        have hahead : Resolution.Precedes i r j found :=
          Resolution.better_eq_false_iff.mp (Bool.eq_false_iff.mpr hbetter)
        exact List.forall_mem_cons.mpr ⟨.refl i r, fun c hc => hahead.trans (hfound c hc)⟩

/-! ## Contenders -/

/-- The choice as it is made for a call of another shape. -/
def Resolution.forShape (made : Resolution) (shape : CallShape) : Resolution :=
  { made with shape }

/-- Of the shape of a call only the matching matters for how an overload is bound. -/
theorem Signature.bindCall_forShape (s : Signature) (converters : List Converter)
    {shape shape' : CallShape} (hmatching : shape.matching = shape'.matching) (v : Value)
    (arguments : List Supplied) :
    s.bindCall converters shape' v arguments =
      (s.bindCall converters shape v arguments).map (Resolution.forShape · shape') :=
  bindCall_map rfl rfl hmatching.symm (fun _ _ _ => rfl) converters v arguments

/-- A call by the name can mean the overload. -/
def Signature.IsMeant (matching : NameMatching) (name : String) (s : Signature) : Prop :=
  name ≠ "" ∧ s.name.any (fun registered => matching.admits registered name) = true

theorem Signature.IsMeant.isSome_name {matching : NameMatching} {name : String} {s : Signature}
    (h : s.IsMeant matching name) : s.name.isSome = true := by
  cases hname : s.name with
  | some registered => rfl
  | none =>
    rw [IsMeant, hname] at h
    cases h.2

theorem Signature.signature_of_bindCall {s : Signature} {converters : List Converter}
    {shape : CallShape} {v : Value} {arguments : List Supplied} {made : Resolution}
    (h : s.bindCall converters shape v arguments = some made) : made.signature = s := by
  obtain ⟨_, _, _, _, _, _, -, -, rfl⟩ := bindCall_eq_some h
  rfl

namespace Registry

section Contenders

variable (r : Registry) (matching : NameMatching) (name : String) (v : Value)
  (arguments : List Supplied)

/-- The overload registered at a position can be bound to a call. -/
def Binds (i : Nat) (made : Resolution) : Prop :=
  r.signatures[i]? = some made.signature ∧
    made.signature.bindCall r.converters (.ofCall r matching v arguments) v arguments = some made

/-- An overload that a call by the name can mean can be bound to it. -/
def BindsMeant : Prop :=
  ∃ i made, r.Binds matching v arguments i made ∧ made.signature.IsMeant matching name

/-- The overload registered at a position contends for a call: it can be bound, and either a call by
the name can mean it, or it has no name and no overload that is meant can be bound. -/
def Contends (i : Nat) (made : Resolution) : Prop :=
  r.Binds matching v arguments i made ∧ (made.signature.IsMeant matching name ∨
    made.signature.name = none ∧ ¬ r.BindsMeant matching name v arguments)

/-- The overload registered at a position is the best of those that contend for a call, and of
several that are equally good the one registered first. -/
def Wins (i : Nat) (made : Resolution) : Prop :=
  r.Contends matching name v arguments i made ∧
    ∀ j other, r.Contends matching name v arguments j other →
      Resolution.Precedes i made j other

end Contenders

variable {r r' : Registry} {matching : NameMatching} {name : String} {v : Value}
  {arguments : List Supplied} {i j : Nat} {made made' : Resolution}

/-- An overload can be bound in one way only. -/
theorem Binds.unique (h : r.Binds matching v arguments i made)
    (h' : r.Binds matching v arguments i made') : made = made' := by
  have hsignature : made.signature = made'.signature := Option.some.inj (h.1.symm.trans h'.1)
  have hbound := h.2
  rw [hsignature, h'.2] at hbound
  exact (Option.some.inj hbound).symm

/-- What can be bound can be bound in another registry that holds the overload, with the same
converters, and in the same way. -/
theorem Binds.transfer (h : r.Binds matching v arguments i made)
    (hsignature : r'.signatures[j]? = r.signatures[i]?)
    (hconverters : r'.converters = r.converters) :
    r'.Binds matching v arguments j (made.forShape (.ofCall r' matching v arguments)) := by
  have hmatching : (CallShape.ofCall r matching v arguments).matching =
      (CallShape.ofCall r' matching v arguments).matching := rfl
  refine ⟨hsignature.trans h.1, ?_⟩
  show made.signature.bindCall r'.converters _ v arguments = _
  rw [hconverters, Signature.bindCall_forShape _ _ hmatching, h.2]
  rfl

/-- What contends contends in another registry too, unless an overload is meant there and none is
here. -/
theorem Contends.transfer (h : r.Contends matching name v arguments i made)
    (hsignature : r'.signatures[j]? = r.signatures[i]?)
    (hconverters : r'.converters = r.converters)
    (hmeant : r'.BindsMeant matching name v arguments → r.BindsMeant matching name v arguments) :
    r'.Contends matching name v arguments j
      (made.forShape (.ofCall r' matching v arguments)) :=
  ⟨h.1.transfer hsignature hconverters,
    h.2.imp id fun hunnamed => ⟨hunnamed.1, fun hb => hunnamed.2 (hmeant hb)⟩⟩

/-- Where something can be bound that is meant or has no name, something contends. -/
theorem exists_contends (h : r.Binds matching v arguments i made)
    (hname : made.signature.IsMeant matching name ∨ made.signature.name = none) :
    ∃ j other, r.Contends matching name v arguments j other := by
  by_cases hmeant : r.BindsMeant matching name v arguments
  · obtain ⟨j, other, hbinds, hother⟩ := hmeant
    exact ⟨j, other, hbinds, .inl hother⟩
  · exact ⟨i, made, h, hname.imp id fun hnone => ⟨hnone, hmeant⟩⟩

/-! ## The winner -/

theorem mem_named (hr : r.IsFaithful) {s : Signature} :
    (i, s) ∈ (if name == "" then [] else r.named name matching) ↔
      r.signatures[i]? = some s ∧ s.IsMeant matching name := by
  unfold Signature.IsMeant
  by_cases hname : name = ""
  · simp [hname]
  · simp [hname, hr.named, mem_numbered]

theorem mem_unnamed (hr : r.IsFaithful) {s : Signature} :
    (i, s) ∈ r.unnamed ↔ r.signatures[i]? = some s ∧ s.name = none := by
  simp [hr.unnamed, mem_numbered]

/-- The choice among candidates precedes what the other ones come to. -/
theorem precedes_of_choose {shape : CallShape} {candidates : List (Nat × Signature)}
    (h : r.choose shape v arguments candidates = some made) :
    ∃ i, (i, made.signature) ∈ candidates ∧
      made.signature.bindCall r.converters shape v arguments = some made ∧
      ∀ j other, (j, other.signature) ∈ candidates →
        other.signature.bindCall r.converters shape v arguments = some other →
          Resolution.Precedes i made j other := by
  obtain ⟨⟨i, best⟩, hbest, rfl⟩ := Option.map_eq_some_iff.mp h
  obtain ⟨⟨i', s⟩, hc, hmade⟩ := List.mem_filterMap.mp (mem_of_bestOf hbest)
  obtain ⟨bound, hbound, heq⟩ := Option.map_eq_some_iff.mp hmade
  obtain ⟨rfl, rfl⟩ := Prod.mk.inj heq
  obtain rfl := Signature.signature_of_bindCall hbound
  refine ⟨i', hc, hbound, fun j other hother hbinds => ?_⟩
  refine precedes_of_bestOf hbest (j, other) (List.mem_filterMap.mpr ⟨_, hother, ?_⟩)
  exact congrArg (Option.map (j, ·)) hbinds

theorem choose_eq_none {shape : CallShape} {candidates : List (Nat × Signature)}
    (h : r.choose shape v arguments candidates = none) {s : Signature}
    (hs : (i, s) ∈ candidates) : s.bindCall r.converters shape v arguments = none := by
  have hnil := bestOf_eq_none_iff.mp (Option.map_eq_none_iff.mp h)
  exact Option.map_eq_none_iff.mp (List.filterMap_eq_nil_iff.mp hnil (i, s) hs)

/-- What is chosen for a call wins. -/
theorem wins_of_resolve (hr : r.IsFaithful)
    (h : r.resolve matching name v arguments = some made) :
    ∃ i, r.Wins matching name v arguments i made := by
  rcases Option.or_eq_some_iff.mp h with h | ⟨hnone, h⟩
  · obtain ⟨i, hc, hbinds, hbest⟩ := precedes_of_choose h
    obtain ⟨hi, hmeant⟩ := (mem_named hr).mp hc
    refine ⟨i, ⟨⟨hi, hbinds⟩, .inl hmeant⟩, fun j other hother => ?_⟩
    rcases hother.2 with hmeant' | ⟨-, hnot⟩
    · exact hbest j other ((mem_named hr).mpr ⟨hother.1.1, hmeant'⟩) hother.1.2
    · exact absurd ⟨i, made, ⟨hi, hbinds⟩, hmeant⟩ hnot
  · obtain ⟨i, hc, hbinds, hbest⟩ := precedes_of_choose h
    obtain ⟨hi, hunnamed⟩ := (mem_unnamed hr).mp hc
    have hnot : ¬ r.BindsMeant matching name v arguments := by
      rintro ⟨j, other, hother, hmeant⟩
      have := choose_eq_none hnone ((mem_named hr).mpr ⟨hother.1, hmeant⟩)
      rw [hother.2] at this
      cases this
    refine ⟨i, ⟨⟨hi, hbinds⟩, .inr ⟨hunnamed, hnot⟩⟩, fun j other hother => ?_⟩
    rcases hother.2 with hmeant | ⟨hunnamed', -⟩
    · exact absurd ⟨j, other, hother.1, hmeant⟩ hnot
    · exact hbest j other ((mem_unnamed hr).mpr ⟨hother.1.1, hunnamed'⟩) hother.1.2

/-- A call finds nothing where nothing contends for it. -/
theorem resolve_eq_none_iff (hr : r.IsFaithful) :
    r.resolve matching name v arguments = none ↔
      ∀ i made, ¬ r.Contends matching name v arguments i made := by
  constructor
  · intro h i made hcontends
    obtain ⟨hnamed, hunnamed⟩ := Option.or_eq_none_iff.mp h
    have hbound := hcontends.1.2
    rcases hcontends.2 with hmeant | ⟨hname, -⟩
    · have := choose_eq_none hnamed ((mem_named hr).mpr ⟨hcontends.1.1, hmeant⟩)
      cases hbound.symm.trans this
    · have := choose_eq_none hunnamed ((mem_unnamed hr).mpr ⟨hcontends.1.1, hname⟩)
      cases hbound.symm.trans this
  · intro h
    cases hmade : r.resolve matching name v arguments with
    | none => rfl
    | some made =>
      obtain ⟨i, hwins⟩ := wins_of_resolve hr hmade
      exact absurd hwins.1 (h i made)

end Registry

/-! ## One more overload -/

/-- The first choice takes the place of the second: it has a name where the other has none, or it is
of the same kind and better. -/
def Resolution.Ousts (a b : Resolution) : Prop :=
  a.signature.name.isSome = true ∧ b.signature.name = none ∨
    a.signature.name.isSome = b.signature.name.isSome ∧ a.Outranks b

namespace Registry

section Registered

variable {r r' : Registry} {s : Signature} {matching : NameMatching} {name : String} {v : Value}
  {arguments : List Supplied}

theorem getElem?_registered (hsignatures : r'.signatures = r.signatures.push s) {i : Nat}
    (hi : i < r.signatures.size) : r'.signatures[i]? = r.signatures[i]? := by
  rw [hsignatures, Array.getElem?_push, if_neg (Nat.ne_of_lt hi)]

/-- An overload that can be bound was there before or is the new one. -/
theorem Binds.before_or_new (hsignatures : r'.signatures = r.signatures.push s) {i : Nat}
    {made : Resolution} (h : r'.Binds matching v arguments i made) :
    i < r.signatures.size ∨ i = r.signatures.size ∧ made.signature = s := by
  have hi := h.1
  rw [hsignatures, Array.getElem?_push] at hi
  split at hi
  · next heq => exact .inr ⟨heq, (Option.some.inj hi).symm⟩
  · exact .inl (Array.getElem?_eq_some_iff.mp hi).1

theorem Binds.lt_size {i : Nat} {made : Resolution} (h : r.Binds matching v arguments i made) :
    i < r.signatures.size :=
  (Array.getElem?_eq_some_iff.mp h.1).1

theorem BindsMeant.registered (hsignatures : r'.signatures = r.signatures.push s)
    (hconverters : r'.converters = r.converters)
    (h : r.BindsMeant matching name v arguments) : r'.BindsMeant matching name v arguments := by
  obtain ⟨i, made, hbinds, hmeant⟩ := h
  exact ⟨i, _, hbinds.transfer (getElem?_registered hsignatures hbinds.lt_size) hconverters, hmeant⟩

/-- With one more overload the choice of a call stays, or it is the new one. -/
theorem Wins.registered (hsignatures : r'.signatures = r.signatures.push s)
    (hconverters : r'.converters = r.converters) {i j : Nat} {made made' : Resolution}
    (h : r.Wins matching name v arguments i made)
    (h' : r'.Wins matching name v arguments j made') :
    made' = made.forShape (.ofCall r' matching v arguments) ∨
      made'.signature = s ∧ made'.Ousts made := by
  have hi : i < r.signatures.size := h.1.1.lt_size
  have hsame : r'.signatures[i]? = r.signatures[i]? := getElem?_registered hsignatures hi
  rcases h'.1.1.before_or_new hsignatures with hj | ⟨rfl, hnew⟩
  · -- Both overloads contend in both registries, so each precedes the other.
    have hsame' : r.signatures[j]? = r'.signatures[j]? := (getElem?_registered hsignatures hj).symm
    have hmeant : r'.BindsMeant matching name v arguments →
        r.BindsMeant matching name v arguments := by
      intro hmeant
      rcases h'.1.2 with hname | ⟨-, hnot⟩
      · exact ⟨j, _, h'.1.1.transfer hsame' hconverters.symm, hname⟩
      · exact absurd hmeant hnot
    have hmade := h.1.transfer hsame hconverters hmeant
    have hmade' := h'.1.transfer hsame' hconverters.symm (.registered hsignatures hconverters)
    have hahead := h.2 j _ hmade'
    have hahead' := h'.2 i _ hmade
    obtain rfl : i = j := hahead.antisymm hahead'
    exact .inl (h'.1.1.unique hmade.1)
  · refine .inr ⟨hnew, ?_⟩
    -- If the earlier choice still contends, the new one came later and has to be better.
    have hbetter : r'.Contends matching name v arguments i
        (made.forShape (.ofCall r' matching v arguments)) → made'.Outranks made :=
      fun hcontends => (h'.2 i _ hcontends).outranks hi
    have hbinds := h.1.1.transfer hsame hconverters
    rcases h'.1.2 with hname' | ⟨hnone', hnot'⟩
    · rcases h.1.2 with hname | ⟨hnone, -⟩
      · refine .inr ⟨?_, hbetter ⟨hbinds, .inl hname⟩⟩
        rw [hname'.isSome_name, hname.isSome_name]
      · exact .inl ⟨hname'.isSome_name, hnone⟩
    · rcases h.1.2 with hname | ⟨hnone, -⟩
      · exact absurd ⟨i, _, hbinds, hname⟩ hnot'
      · exact .inr ⟨by rw [hnone', hnone], hbetter ⟨hbinds, .inr ⟨hnone, hnot'⟩⟩⟩

/-- With one more overload something still contends where something did. -/
theorem exists_contends_registered (hsignatures : r'.signatures = r.signatures.push s)
    (hconverters : r'.converters = r.converters) {i : Nat} {made : Resolution}
    (h : r.Contends matching name v arguments i made) :
    ∃ j other, r'.Contends matching name v arguments j other :=
  exists_contends (h.1.transfer (getElem?_registered hsignatures h.1.lt_size) hconverters)
    (h.2.imp id And.left)

/-- Where nothing contended only the new overload can. -/
theorem signature_of_none_before (hsignatures : r'.signatures = r.signatures.push s)
    (hconverters : r'.converters = r.converters)
    (hnone : ∀ i made, ¬ r.Contends matching name v arguments i made) {j : Nat}
    {made' : Resolution} (h : r'.Contends matching name v arguments j made') :
    made'.signature = s := by
  rcases h.1.before_or_new hsignatures with hj | ⟨-, hnew⟩
  · obtain ⟨i, other, hother⟩ := exists_contends
      (h.1.transfer (getElem?_registered hsignatures hj).symm hconverters.symm)
      (h.2.imp id And.left)
    exact absurd hother (hnone i other)
  · exact hnew

end Registered

/-! ## Another order -/

section Reordered

variable {r r' : Registry} {matching : NameMatching} {name : String} {v : Value}
  {arguments : List Supplied}

theorem exists_position (hperm : r'.signatures.toList.Perm r.signatures.toList) {i : Nat}
    {s : Signature} (hs : r.signatures[i]? = some s) :
    ∃ j : Nat, r'.signatures[j]? = r.signatures[i]? := by
  have hmem : s ∈ r'.signatures.toList :=
    hperm.mem_iff.mpr (Array.mem_toList_iff.mpr (Array.mem_of_getElem? hs))
  obtain ⟨j, hj⟩ := List.mem_iff_getElem?.mp hmem
  rw [Array.getElem?_toList] at hj
  exact ⟨j, hj.trans hs.symm⟩

/-- What contends contends in a registry of another order too. -/
theorem Contends.reordered (hperm : r'.signatures.toList.Perm r.signatures.toList)
    (hconverters : r'.converters = r.converters) {i : Nat} {made : Resolution}
    (h : r.Contends matching name v arguments i made) :
    ∃ j : Nat, r'.signatures[j]? = r.signatures[i]? ∧ r'.Contends matching name v arguments j
      (made.forShape (.ofCall r' matching v arguments)) := by
  obtain ⟨j, hj⟩ := exists_position hperm h.1.1
  refine ⟨j, hj, h.transfer hj hconverters ?_⟩
  rintro ⟨k, other, hbinds, hmeant⟩
  obtain ⟨l, hl⟩ := exists_position hperm.symm hbinds.1
  exact ⟨l, _, hbinds.transfer hl hconverters.symm, hmeant⟩

/-- In another order a call makes the same choice, or one of several that are equally good. -/
theorem Wins.reordered (hperm : r'.signatures.toList.Perm r.signatures.toList)
    (hconverters : r'.converters = r.converters) {i i' : Nat} {made made' : Resolution}
    (h : r.Wins matching name v arguments i made)
    (h' : r'.Wins matching name v arguments i' made') :
    made' = made.forShape (.ofCall r' matching v arguments) ∨ made'.Ties made ∧
      ∃ j other, j ≠ i ∧ r.Contends matching name v arguments j other ∧ other.Ties made := by
  obtain ⟨k, hk, hmade⟩ := h.1.reordered hperm hconverters
  obtain ⟨j, hj, hmade'⟩ := h'.1.reordered hperm.symm hconverters.symm
  have hahead := h.2 j _ hmade'
  have hahead' := h'.2 k _ hmade
  have hties : made'.Ties made := hahead'.ties hahead
  by_cases hij : j = i
  · -- It is the same overload, and it can be bound in one way only.
    subst hij
    exact .inl (h'.1.1.unique (h.1.1.transfer hj.symm hconverters))
  · exact .inr ⟨hties, j, _, hij, hmade', hties⟩

end Reordered

end Registry

/-- In every registry that changes lead to, one more overload leaves the choice of a call as it is
or is chosen itself. It is chosen in place of another one only with a name where that has none, or
as one of the same kind that is better. In another order of registration a call makes the same
choice, unless several overloads are best and equally good, of which each registry chooses the one
that was registered first. -/
theorem overload_choice_stable {changes : List RegistryChange} {r : Registry}
    (hr : RegistryChange.Shows changes r) (matching : NameMatching) (name : String) (v : Value)
    (arguments : List Supplied) :
    (∀ generation s r', r.register generation s = .ok r' →
      (∀ made, r.resolve matching name v arguments = some made →
        ∃ made', r'.resolve matching name v arguments = some made' ∧
          (made' = made.forShape (.ofCall r' matching v arguments) ∨
            made'.signature = s ∧ made'.Ousts made)) ∧
      (r.resolve matching name v arguments = none →
        ∀ made', r'.resolve matching name v arguments = some made' → made'.signature = s)) ∧
    ∀ changes' r', RegistryChange.Shows changes' r' →
      r'.signatures.toList.Perm r.signatures.toList → r'.converters = r.converters →
      Option.Rel
        (fun made made' => made' = made.forShape (.ofCall r' matching v arguments) ∨
          ∃ i i', r.Wins matching name v arguments i made ∧
            r'.Wins matching name v arguments i' made' ∧ made'.Ties made ∧
            ∃ j other, j ≠ i ∧ r.Contends matching name v arguments j other ∧ other.Ties made)
        (r.resolve matching name v arguments) (r'.resolve matching name v arguments) := by
  have hfaithful := hr.isFaithful
  constructor
  · intro generation s r' hregister
    have hfaithful' := (hr.wellFiled.register hregister).isFaithful
    obtain ⟨-, rfl⟩ := Registry.register_eq_ok_iff.mp hregister
    have hsignatures := Registry.signatures_file generation s r
    have hconverters := Registry.converters_file generation s r
    refine ⟨fun made hmade => ?_, fun hnone made' hmade' => ?_⟩
    · obtain ⟨i, hwins⟩ := Registry.wins_of_resolve hfaithful hmade
      cases hmade' : (r.file generation s).resolve matching name v arguments with
      | none =>
        obtain ⟨j, other, hother⟩ :=
          Registry.exists_contends_registered hsignatures hconverters hwins.1
        exact absurd hother ((Registry.resolve_eq_none_iff hfaithful').mp hmade' j other)
      | some made' =>
        obtain ⟨j, hwins'⟩ := Registry.wins_of_resolve hfaithful' hmade'
        exact ⟨made', rfl, hwins.registered hsignatures hconverters hwins'⟩
    · obtain ⟨j, hwins'⟩ := Registry.wins_of_resolve hfaithful' hmade'
      exact Registry.signature_of_none_before hsignatures hconverters
        ((Registry.resolve_eq_none_iff hfaithful).mp hnone) hwins'.1
  · intro changes' r' hr' hperm hconverters
    have hfaithful' := hr'.isFaithful
    cases hmade : r.resolve matching name v arguments with
    | none =>
      cases hmade' : r'.resolve matching name v arguments with
      | none => exact .none
      | some made' =>
        obtain ⟨i', hwins'⟩ := Registry.wins_of_resolve hfaithful' hmade'
        obtain ⟨j, -, hcontends⟩ := hwins'.1.reordered hperm.symm hconverters.symm
        exact absurd hcontends ((Registry.resolve_eq_none_iff hfaithful).mp hmade j _)
    | some made =>
      obtain ⟨i, hwins⟩ := Registry.wins_of_resolve hfaithful hmade
      cases hmade' : r'.resolve matching name v arguments with
      | none =>
        obtain ⟨j, -, hcontends⟩ := hwins.1.reordered hperm hconverters
        exact absurd hcontends ((Registry.resolve_eq_none_iff hfaithful').mp hmade' j _)
      | some made' =>
        obtain ⟨i', hwins'⟩ := Registry.wins_of_resolve hfaithful' hmade'
        exact .some ((hwins.reordered hperm hconverters hwins').imp id
          fun htied => ⟨i, i', hwins, hwins', htied⟩)

/-- Two overloads that differ in the name of their parameter only are equally good for a call that
does not give it. The one registered first is chosen, and stays chosen. -/
theorem overload_choice_stable_tie :
    let width := Signature.computing "Show" .integer [.needed "width" .integer] Call.value
    let digits := Signature.computing "Show" .integer [.needed "digits" .integer] Call.value
    let filed := fun signatures : List Signature =>
      { (Registry.empty 0).registerAll 0 signatures with generation := 1 }
    let call := fun r : Registry => r.resolve .ignoreCase "show" (.int 1) [⟨none, .int 2⟩]
    let params := fun made : Resolution => made.signature.params.map Param.name
    (∃ r', (filed [width]).register 2 digits = .ok r' ∧
      ∃ made, call (filed [width]) = some made ∧
        call r' = some (made.forShape (.ofCall r' .ignoreCase (.int 1) [⟨none, .int 2⟩]))) ∧
    ∃ made made', call (filed [width, digits]) = some made ∧
      call (filed [digits, width]) = some made' ∧ made'.Ties made ∧
      params made = ["width"] ∧ params made' = ["digits"] := by
  intro width digits filed call params
  have hshows : ∀ signatures, RegistryChange.Shows [.new "numbers" signatures]
      (filed signatures) := fun signatures => .inr (.inr ⟨"numbers", rfl⟩)
  constructor
  · have hobjection : Registry.objection? digits = none := by decide +kernel
    have hregister : (filed [width]).register 2 digits = .ok ((filed [width]).file 2 digits) :=
      Registry.register_eq_ok_iff.mpr ⟨Signature.objection?_eq_none_iff.mp hobjection, rfl⟩
    obtain ⟨hstays, -⟩ := (overload_choice_stable (hshows [width]) .ignoreCase "show" (.int 1)
      [⟨none, .int 2⟩]).1 2 digits _ hregister
    have hfound : (call (filed [width])).isSome = true := by decide +kernel
    have hparams : (call ((filed [width]).file 2 digits)).map params = some ["width"] := by
      decide +kernel
    obtain ⟨made, hmade⟩ := Option.isSome_iff_exists.mp hfound
    obtain ⟨made', hmade', hcases⟩ := hstays made hmade
    refine ⟨_, hregister, made, hmade, ?_⟩
    rcases hcases with rfl | ⟨hnew, -⟩
    · exact hmade'
    · -- The new overload has another parameter.
      rw [show call _ = some made' from hmade'] at hparams
      have hdigits : params made' = ["digits"] := congrArg (·.params.map Param.name) hnew
      rw [Option.map_some, hdigits] at hparams
      exact absurd hparams (by decide)
  · have hperm : (filed [digits, width]).signatures.toList.Perm
        (filed [width, digits]).signatures.toList := .swap width digits []
    have hrel := (overload_choice_stable (hshows [width, digits]) .ignoreCase "show" (.int 1)
      [⟨none, .int 2⟩]).2 _ _ (hshows [digits, width]) hperm rfl
    have hwidth : (call (filed [width, digits])).map params = some ["width"] := by
      decide +kernel
    have hdigits : (call (filed [digits, width])).map params = some ["digits"] := by
      decide +kernel
    obtain ⟨made, hmade, hwidth⟩ := Option.map_eq_some_iff.mp hwidth
    obtain ⟨made', hmade', hdigits⟩ := Option.map_eq_some_iff.mp hdigits
    rw [show Registry.resolve _ _ _ _ _ = some made from hmade,
      show Registry.resolve _ _ _ _ _ = some made' from hmade'] at hrel
    refine ⟨made, made', hmade, hmade', ?_, hwidth, hdigits⟩
    cases hrel with
    | some hcases =>
      rcases hcases with rfl | ⟨-, -, -, -, hties, -⟩
      · exact absurd (hwidth.symm.trans hdigits) (by decide)
      · exact hties

end Stencil
