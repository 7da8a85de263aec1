import Stencil.Proofs.Placing

/-!
# Which parameter gets which argument

That each argument of a call ends up in one place does not say that it is the right one. The rule is
short: an argument with a name is for the first parameter that answers to the name, the arguments
without one take the parameters that are open, one after the other, and what is left over goes to
the parameter for what is left.

The rule speaks of the call as a whole, and the choice of an overload works on slots. After the
arguments with a name have made their claims the open parameters are those whose slots refuse
nothing (`openSlots_eq_openParams`). Filling in order brings the queue to these, the first to the
first (`fillInOrder_open`), and leaves the other slots alone. In the end a slot is empty where
nobody claimed it and the queue did not reach (`slot_eq_none_iff`), which is where a default is
taken.

Main statement: `arguments_placed`.
-/

namespace Stencil

/-- The parameter that an argument with a name is for, the first that answers to it. -/
def Supplied.target? (matching : NameMatching) (params : List Param) (a : Supplied) : Option Nat :=
  a.name.bind fun name => params.findIdx? (Param.answersTo matching name)

/-- The positions of the arguments without a name, in order. -/
def unnamedPositions (arguments : List Supplied) : List Nat :=
  arguments.findIdxs fun a => a.name.isNone

/-- The parameters for arguments without a name, in order. A parameter for what is left is not one
of them, nor is one that an argument with a name is for. -/
def openParams (matching : NameMatching) (params : List Param) (arguments : List Supplied) :
    List Nat :=
  (List.range params.length).filter fun j =>
    !params[j]?.any Param.isRest && !arguments.any fun a => a.target? matching params == some j

namespace Resolution

/-- The parameter is bound to the argument at a position. -/
def Gives (made : Resolution) (param position : Nat) : Prop :=
  ∃ c, made.bindings[param]? = some (.argument position c)

/-- Each argument of a call is where it belongs. -/
structure Places (matching : NameMatching) (arguments : List Supplied) (made : Resolution) :
    Prop where
  length : made.bindings.length = made.signature.params.length
  /-- No argument is lost or used twice. -/
  once : (made.bindings.flatMap Binding.positions).Perm (List.range arguments.length)
  /-- An argument with a name goes to the first parameter that answers to it, which is not one for
  what is left. -/
  named : ∀ (i : Nat) a, arguments[i]? = some a → a.name.isSome = true →
    ∃ j p, a.target? matching made.signature.params = some j ∧
      made.signature.params[j]? = some p ∧ p.isRest = false ∧ made.Gives j i
  /-- The arguments without a name go to the open parameters, the first to the first. -/
  inOrder : ∀ (k : Nat) i j, (unnamedPositions arguments)[k]? = some i →
    (openParams matching made.signature.params arguments)[k]? = some j → made.Gives j i
  /-- A parameter for what is left gets the others, in order. -/
  surplus : ∀ (j : Nat) p, made.signature.params[j]? = some p → p.isRest = true →
    ∃ items, made.bindings[j]? = some (.rest items) ∧ items.map Prod.fst =
      (unnamedPositions arguments).drop
        (openParams matching made.signature.params arguments).length
  /-- There are others only if there is such a parameter. -/
  room : (unnamedPositions arguments).length ≤
      (openParams matching made.signature.params arguments).length ∨
    made.signature.hasRest = true
  required : ∀ (j : Nat) p, made.signature.params[j]? = some p → p.isRequired = true →
    ∃ i, made.Gives j i
  /-- A default is taken where no argument with a name claims the parameter and the arguments
  without one do not reach it, and nowhere else. -/
  optional : ∀ (j : Nat) p v, made.signature.params[j]? = some p → p.kind = .optional v →
    ∀ w, made.bindings[j]? = some (.default w) ↔ w = v ∧
      (∀ a ∈ arguments, a.target? matching made.signature.params ≠ some j) ∧
      ∀ k, (openParams matching made.signature.params arguments)[k]? = some j →
        (unnamedPositions arguments).length ≤ k

end Resolution

/-- The queue holds the arguments without a name. -/
theorem positionsOf_queueOf (start : Nat) (arguments : List Supplied) :
    positionsOf (queueOf (placedFrom start arguments)) =
      arguments.findIdxs (fun a => a.name.isNone) start := by
  induction arguments generalizing start with
  | nil => rfl
  | cons a arguments ih =>
    rw [List.findIdxs_cons, ← ih]
    simp only [placedFrom, queueOf, List.filter_cons]
    split <;> rfl

/-! ## Claims -/

section Claims

variable {matching : NameMatching} {params : List Param}

/-- What the slots hold after claims: what they held before, and the arguments with a name, each
where its name leads. -/
structure Claimed (matching : NameMatching) (params : List Param)
    (placed : List (Option String × Placed)) (slots claimed : List (Option Placed)) : Prop where
  stays : ∀ (j : Nat) x, slots[j]? = some (some x) → claimed[j]? = some (some x)
  named : ∀ name x, (some name, x) ∈ placed →
    ∃ j p, params.findIdx? (Param.answersTo matching name) = some j ∧
      params[j]? = some p ∧ p.isRest = false ∧ claimed[j]? = some (some x)
  origin : ∀ (j : Nat) x, claimed[j]? = some (some x) → slots[j]? = some (some x) ∨
    ∃ name, (some name, x) ∈ placed ∧ params.findIdx? (Param.answersTo matching name) = some j

theorem claimed_claim {slots claimed : List (Option Placed)} (hslots : Slotted params slots)
    {a : Option String × Placed} (h : claim matching params a slots = some claimed) :
    Claimed matching params [a] slots claimed := by
  obtain ⟨name, a⟩ := a
  cases name with
  | none =>
    obtain rfl := Option.some.inj h
    refine ⟨fun j x hx => hx, fun name x hx => ?_, fun j x hx => .inl hx⟩
    cases List.mem_singleton.mp hx
  | some name =>
    obtain ⟨target, p, htarget, hp, hrest, hfree, rfl⟩ := claim_eq_some hslots h
    have hset : (slots.set target (some a))[target]? = some (some a) :=
      List.getElem?_set_self (List.getElem?_eq_some_iff.mp hfree).1
    refine ⟨fun j x hx => ?_, fun other x hx => ?_, fun j x hx => ?_⟩
    · -- The slot was free, so it is not the one of an argument that was there.
      rw [List.getElem?_set_ne, hx]
      rintro rfl
      rw [hfree] at hx
      cases hx
    · cases List.mem_singleton.mp hx
      exact ⟨target, p, htarget, hp, hrest, hset⟩
    · by_cases hj : target = j
      · subst hj
        rw [hset] at hx
        obtain rfl := Option.some.inj (Option.some.inj hx)
        exact .inr ⟨name, List.mem_singleton_self _, htarget⟩
      · rw [List.getElem?_set_ne hj] at hx
        exact .inl hx

theorem Claimed.cons {a : Option String × Placed} {placed : List (Option String × Placed)}
    {slots next claimed : List (Option Placed)} (h : Claimed matching params [a] slots next)
    (hrest : Claimed matching params placed next claimed) :
    Claimed matching params (a :: placed) slots claimed where
  stays j x hx := hrest.stays j x (h.stays j x hx)
  named name x hx := by
    rcases List.mem_cons.mp hx with rfl | hx
    · obtain ⟨j, p, htarget, hp, hisRest, hj⟩ := h.named name x (List.mem_singleton_self _)
      exact ⟨j, p, htarget, hp, hisRest, hrest.stays j x hj⟩
    · exact hrest.named name x hx
  origin j x hx := by
    rcases hrest.origin j x hx with hx | ⟨name, hmem, htarget⟩
    · rcases h.origin j x hx with hx | ⟨name, hmem, htarget⟩
      · exact .inl hx
      · obtain rfl := List.mem_singleton.mp hmem
        exact .inr ⟨name, List.mem_cons_self, htarget⟩
    · exact .inr ⟨name, List.mem_cons_of_mem a hmem, htarget⟩

theorem claimed_claimByName {placed : List (Option String × Placed)}
    {slots claimed : List (Option Placed)} (hslots : Slotted params slots)
    (h : claimByName matching params placed slots = some claimed) :
    Claimed matching params placed slots claimed := by
  induction placed generalizing slots with
  | nil =>
    obtain rfl := Option.some.inj h
    exact ⟨fun j x hx => hx, fun name x hx => (nomatch hx), fun j x hx => .inl hx⟩
  | cons a placed ih =>
    rw [claimByName_cons] at h
    obtain ⟨next, hclaim, h⟩ := Option.bind_eq_some_iff.mp h
    exact (claimed_claim hslots hclaim).cons (ih (hslots.claim hclaim) h)

/-- A slot is taken when all claims were made if an argument with a name is for its parameter. -/
theorem exists_claimed_iff {arguments : List Supplied} {claimed : List (Option Placed)}
    (h : claimByName matching params (placedFrom 0 arguments) (params.map fun _ => none) =
      some claimed) (j : Nat) :
    (∃ x, claimed[j]? = some (some x)) ↔
      ∃ a ∈ arguments, a.target? matching params = some j := by
  have hclaimed := claimed_claimByName (slotted_nothing params) h
  constructor
  · rintro ⟨x, hx⟩
    rcases hclaimed.origin j x hx with hx | ⟨name, hmem, htarget⟩
    · obtain ⟨-, hp, hnone⟩ := List.mem_map.mp (List.mem_of_getElem? hx)
      cases hnone
    · obtain ⟨a, ha, hname, -⟩ := mem_placedFrom.mp hmem
      refine ⟨a, List.mem_of_getElem? ha, ?_⟩
      unfold Supplied.target?
      rw [hname]
      exact htarget
  · rintro ⟨a, ha, htarget⟩
    obtain ⟨name, hname, htarget⟩ := Option.bind_eq_some_iff.mp htarget
    obtain ⟨i, hi⟩ := List.mem_iff_getElem?.mp ha
    have hmem : (some name, (⟨i, a.value⟩ : Placed)) ∈ placedFrom 0 arguments :=
      mem_placedFrom.mpr ⟨a, hi, hname, rfl⟩
    obtain ⟨j', -, htarget', -, -, hj'⟩ := hclaimed.named name _ hmem
    obtain rfl : j = j' := Option.some.inj (htarget.symm.trans htarget')
    exact ⟨_, hj'⟩

end Claims

/-! ## Open slots -/

/-- The slots that wait for an argument without a name, in order. -/
def openSlots (params : List Param) (slots : List (Option Placed)) : List Nat :=
  (List.range params.length).filter fun j => !isRefused params slots j

theorem openSlots_cons (p : Param) (params : List Param) (slot : Option Placed)
    (slots : List (Option Placed)) :
    openSlots (p :: params) (slot :: slots) =
      if slot.isSome || p.isRest then (openSlots params slots).map Nat.succ
      else 0 :: (openSlots params slots).map Nat.succ := by
  unfold openSlots
  rw [List.length_cons, List.range_succ_eq_map, List.filter_cons, List.filter_map]
  have hzero : isRefused (p :: params) (slot :: slots) 0 = (slot.isSome || p.isRest) := by
    simp [isRefused]
  have hsucc : ((fun j => !isRefused (p :: params) (slot :: slots) j) ∘ Nat.succ) =
      fun j => !isRefused params slots j := rfl
  rw [hzero, hsucc]
  cases slot.isSome || p.isRest <;> rfl

theorem openSlots_eq_openParams {matching : NameMatching} {params : List Param}
    {arguments : List Supplied} {claimed : List (Option Placed)}
    (h : claimByName matching params (placedFrom 0 arguments) (params.map fun _ => none) =
      some claimed) : openSlots params claimed = openParams matching params arguments := by
  apply List.filter_congr
  intro j _
  have htaken : claimed[j]?.any Option.isSome =
      arguments.any fun a => a.target? matching params == some j := by
    rw [Bool.eq_iff_iff, List.any_eq_true]
    simp only [beq_iff_eq, ← exists_claimed_iff h j]
    simp [Option.any_eq_true, Option.isSome_iff_exists]
  rw [isRefused, htaken, Bool.not_or, Bool.and_comm]

/-- Without arguments in the queue nothing changes. -/
theorem fillInOrder_nil (params : List Param) (slots : List (Option Placed)) :
    fillInOrder params slots [] = (slots, []) := by
  induction params generalizing slots with
  | nil => rfl
  | cons p params ih =>
    cases slots with
    | nil => rfl
    | cons slot slots =>
      unfold fillInOrder
      split
      · rw [ih]
      · next hopen => simp_all

/-- An open slot gets what is first in the queue, if anything is. -/
theorem fillInOrder_cons_open {p : Param} (hp : p.isRest = false) (params : List Param)
    (slots : List (Option Placed)) (queue : List Placed) :
    fillInOrder (p :: params) (none :: slots) queue =
      (queue.head? :: (fillInOrder params slots queue.tail).1,
        (fillInOrder params slots queue.tail).2) := by
  cases queue with
  | nil => simp [fillInOrder, hp, fillInOrder_nil]
  | cons a queue => simp [fillInOrder, hp]

/-- Filling in order gives the open slots what is in the queue, the first to the first. It leaves
the other slots alone and keeps what is left. -/
theorem fillInOrder_open {params : List Param} {slots : List (Option Placed)}
    (hslots : Slotted params slots) (queue : List Placed) :
    (∀ (k j : Nat), (openSlots params slots)[k]? = some j →
      (fillInOrder params slots queue).1[j]? = some queue[k]?) ∧
    (∀ (j : Nat), j ∉ openSlots params slots →
      (fillInOrder params slots queue).1[j]? = slots[j]?) ∧
    (fillInOrder params slots queue).2 = queue.drop (openSlots params slots).length := by
  induction hslots generalizing queue with
  | nil => exact ⟨fun k j hj => (nomatch hj), fun j _ => rfl, rfl⟩
  | @cons p slot params slots hp hrest ih =>
    rw [openSlots_cons]
    by_cases hrefused : (slot.isSome || p.isRest) = true
    · -- The slot stays as it is, and the others are open as without it.
      rw [if_pos hrefused]
      unfold fillInOrder
      rw [if_pos hrefused]
      obtain ⟨hopen, hother, hsurplus⟩ := ih queue
      refine ⟨fun k j hj => ?_, fun j hj => ?_, by rw [hsurplus, List.length_map]⟩
      · rw [List.getElem?_map] at hj
        obtain ⟨i, hi, rfl⟩ := Option.map_eq_some_iff.mp hj
        exact hopen k i hi
      · cases j with
        | zero => rfl
        | succ j => exact hother j fun hmem => hj (List.mem_map_of_mem hmem)
    · rw [if_neg hrefused]
      simp only [Bool.or_eq_true, not_or, Bool.not_eq_true] at hrefused
      obtain rfl : slot = none := by simpa using hrefused.1
      rw [fillInOrder_cons_open hrefused.2]
      obtain ⟨hopen, hother, hsurplus⟩ := ih queue.tail
      refine ⟨fun k j hj => ?_, fun j hj => ?_, ?_⟩
      · cases k with
        | zero =>
          obtain rfl : 0 = j := Option.some.inj hj
          exact congrArg some List.head?_eq_getElem?
        | succ k =>
          rw [List.getElem?_cons_succ, List.getElem?_map] at hj
          obtain ⟨i, hi, rfl⟩ := Option.map_eq_some_iff.mp hj
          exact (hopen k i hi).trans (congrArg some List.getElem?_tail)
      · cases j with
        | zero => exact absurd List.mem_cons_self hj
        | succ j =>
          exact hother j fun hmem => hj (List.mem_cons_of_mem 0 (List.mem_map_of_mem hmem))
      · rw [hsurplus, List.length_cons, List.length_map, ← List.drop_one, List.drop_drop,
          Nat.add_comm]

/-- A slot is open if nothing is there. -/
theorem mem_openSlots_iff {params : List Param} {slots : List (Option Placed)}
    (hslots : Slotted params slots) {j : Nat} {p : Param} (hp : params[j]? = some p)
    (hrest : p.isRest = false) :
    j ∈ openSlots params slots ↔ ¬ ∃ x, slots[j]? = some (some x) := by
  have hlt : j < params.length := (List.getElem?_eq_some_iff.mp hp).1
  have hlt' : j < slots.length := hslots.length_eq ▸ hlt
  unfold openSlots
  rw [List.mem_filter, Bool.not_eq_true', isRefused_eq_false_iff hslots hp,
    List.getElem?_eq_getElem hlt']
  simp [hlt, hrest, ← Option.ne_none_iff_exists']

/-- A slot is empty in the end if nothing was there and the queue did not reach it. -/
theorem slot_eq_none_iff {params : List Param} {slots : List (Option Placed)}
    (hslots : Slotted params slots) (queue : List Placed) (j : Nat) (p : Param)
    (hp : params[j]? = some p) (hrest : p.isRest = false) :
    (fillInOrder params slots queue).1[j]? = some none ↔
      (¬ ∃ x, slots[j]? = some (some x)) ∧
        ∀ (k : Nat), (openSlots params slots)[k]? = some j → queue.length ≤ k := by
  obtain ⟨hopen, hother, -⟩ := fillInOrder_open hslots queue
  have hmem := mem_openSlots_iff hslots hp hrest
  constructor
  · intro hnone
    have hfree : ¬ ∃ x, slots[j]? = some (some x) := by
      rintro ⟨x, hx⟩
      rw [hother j fun h => hmem.mp h ⟨x, hx⟩, hx] at hnone
      cases hnone
    refine ⟨hfree, fun k hk => ?_⟩
    rw [hopen k j hk] at hnone
    exact List.getElem?_eq_none_iff.mp (Option.some.inj hnone)
  · rintro ⟨hfree, hlate⟩
    obtain ⟨k, hk⟩ := List.mem_iff_getElem?.mp (hmem.mpr hfree)
    rw [hopen k j hk, List.getElem?_eq_none (hlate k hk)]

/-- What the slots hold, and what is left over, when all arguments of a call were placed. -/
structure Filled (matching : NameMatching) (params : List Param) (arguments : List Supplied)
    (slots : List (Option Placed)) (surplus : List Placed) : Prop where
  slotted : Slotted params slots
  named : ∀ (i : Nat) a, arguments[i]? = some a → a.name.isSome = true →
    ∃ j p, a.target? matching params = some j ∧ params[j]? = some p ∧ p.isRest = false ∧
      slots[j]? = some (some ⟨i, a.value⟩)
  inOrder : ∀ (k : Nat) i j, (unnamedPositions arguments)[k]? = some i →
    (openParams matching params arguments)[k]? = some j →
      ∃ x, slots[j]? = some (some x) ∧ x.position = i
  empty : ∀ (j : Nat) p, params[j]? = some p → p.isRest = false →
    (slots[j]? = some none ↔ (∀ a ∈ arguments, a.target? matching params ≠ some j) ∧
      ∀ k, (openParams matching params arguments)[k]? = some j →
        (unnamedPositions arguments).length ≤ k)
  surplus : positionsOf surplus =
    (unnamedPositions arguments).drop (openParams matching params arguments).length

theorem filled_of_fillInOrder {matching : NameMatching} {params : List Param}
    {arguments : List Supplied} {claimed slots : List (Option Placed)} {surplus : List Placed}
    (hclaim : claimByName matching params (placedFrom 0 arguments) (params.map fun _ => none) =
      some claimed)
    (hfill : fillInOrder params claimed (queueOf (placedFrom 0 arguments)) = (slots, surplus)) :
    Filled matching params arguments slots surplus := by
  have hclaimed := claimed_claimByName (slotted_nothing params) hclaim
  have hslotted := (held_claimByName (slotted_nothing params) hclaim).1
  obtain ⟨hopen, hother, hleft⟩ := fillInOrder_open hslotted (queueOf (placedFrom 0 arguments))
  have hempty := slot_eq_none_iff hslotted (queueOf (placedFrom 0 arguments))
  -- The queue holds the arguments without a name, in order.
  have hqueue : positionsOf (queueOf (placedFrom 0 arguments)) = unnamedPositions arguments :=
    positionsOf_queueOf 0 arguments
  generalize queueOf (placedFrom 0 arguments) = queue at *
  rw [hfill] at hopen hother hleft hempty
  rw [openSlots_eq_openParams hclaim] at hopen hother hleft hempty
  refine ⟨slotted_of_fillInOrder hclaim hfill, ?_, ?_, ?_, ?_⟩
  · intro i a ha hname
    obtain ⟨name, hname⟩ := Option.isSome_iff_exists.mp hname
    obtain ⟨j, p, htarget, hp, hrest, hj⟩ :=
      hclaimed.named name ⟨i, a.value⟩ (mem_placedFrom.mpr ⟨a, ha, hname, rfl⟩)
    refine ⟨j, p, ?_, hp, hrest, ?_⟩
    · unfold Supplied.target?
      rw [hname]
      exact htarget
    · -- What was claimed by name is not open, so it stays.
      rw [hother j, hj]
      rw [← openSlots_eq_openParams hclaim, mem_openSlots_iff hslotted hp hrest]
      exact fun hfree => hfree ⟨_, hj⟩
  · intro k i j hi hj
    rw [← hqueue, List.getElem?_map] at hi
    obtain ⟨x, hx, rfl⟩ := Option.map_eq_some_iff.mp hi
    exact ⟨x, by rw [hopen k j hj, hx], rfl⟩
  · intro j p hp hrest
    rw [hempty j p hp hrest, exists_claimed_iff hclaim, ← hqueue, List.length_map]
    simp only [not_exists, not_and, ne_eq]
  · rw [← hqueue, ← List.map_drop, ← hleft]

/-! ## Bindings -/

theorem Param.isRest_of_isRequired {p : Param} (h : p.isRequired = true) : p.isRest = false := by
  unfold isRequired at h
  unfold isRest
  split at h
  · next hkind => rw [hkind]
  · cases h

/-- Each parameter is bound to what is in its slot, or to what is left. -/
theorem bindParams_cases {converters : List Converter} {surplus : List Placed}
    {params : List Param} {slots : List (Option Placed)} (hslots : Slotted params slots)
    {types types' : TypeArguments} {bindings : List Binding}
    (h : bindParams converters surplus params slots types = some (bindings, types')) (j : Nat)
    (p : Param) (hp : params[j]? = some p) :
    (p.isRest = true ∧ ∃ items, bindings[j]? = some (.rest items) ∧
      items.map Prod.fst = positionsOf surplus) ∨
    (p.isRest = false ∧ ∃ a c, slots[j]? = some (some a) ∧
      bindings[j]? = some (.argument a.position c)) ∨
    ∃ v, p.kind = .optional v ∧ slots[j]? = some none ∧ bindings[j]? = some (.default v) := by
  induction hslots generalizing types bindings j with
  | nil => cases hp
  | @cons q slot params slots _ _ ih =>
    obtain ⟨binding, between, rest, hbinding, hbindings, rfl⟩ := exists_of_bindParams_cons h
    cases j with
    | zero =>
      obtain rfl := Option.some.inj hp
      rcases Param.bind_cases hbinding with ⟨hrest, items, rfl, hitems⟩ |
        ⟨hrest, a, c, rfl, rfl, -⟩ | ⟨v, hkind, rfl, rfl, -⟩
      · exact .inl ⟨hrest, items, rfl, positions_acceptAll hitems⟩
      · exact .inr (.inl ⟨hrest, a, c, rfl, rfl⟩)
      · exact .inr (.inr ⟨v, hkind, rfl, rfl⟩)
    | succ j => exact ih hbindings j hp

/-- An overload that was bound to a call gives each argument to its parameter. -/
theorem Signature.places_of_bindCall {s : Signature} (hs : s.IsAdmissible)
    {converters : List Converter} {shape : CallShape} {v : Value} {arguments : List Supplied}
    {made : Resolution} (h : s.bindCall converters shape v arguments = some made) :
    made.Places shape.matching arguments := by
  obtain ⟨-, hlength, honce⟩ := positions_bindCall hs h
  obtain ⟨conversion, known, claimed, slots, surplus, bindings, types, -, hclaim, hfill, hsurplus,
    hbind, rfl⟩ := stations_of_bindCall h
  have hfilled := filled_of_fillInOrder hclaim hfill
  have hcases := bindParams_cases hfilled.slotted hbind
  -- What is in a slot goes to its parameter.
  have hgives : ∀ (j : Nat) x, slots[j]? = some (some x) →
      ∃ c, bindings[j]? = some (.argument x.position c) := by
    intro j x hx
    obtain ⟨p, hp, hrest⟩ := hfilled.slotted.exists_param hx
    rcases hcases j p hp with ⟨hrest', -⟩ | ⟨-, a, c, ha, hbinding⟩ | ⟨v, -, hnone, -⟩
    · exact absurd hrest' (Bool.eq_false_iff.mp hrest)
    · obtain rfl : x = a := Option.some.inj (Option.some.inj (hx.symm.trans ha))
      exact ⟨c, hbinding⟩
    · cases hx.symm.trans hnone
  exact {
    length := hlength
    once := honce
    named := fun i a ha hname => by
      obtain ⟨j, p, htarget, hp, hrest, hj⟩ := hfilled.named i a ha hname
      exact ⟨j, p, htarget, hp, hrest, hgives j _ hj⟩
    inOrder := fun k i j hi hj => by
      obtain ⟨x, hx, rfl⟩ := hfilled.inOrder k i j hi hj
      exact hgives j x hx
    surplus := fun j p hp hrest => by
      rcases hcases j p hp with ⟨-, items, hbinding, hitems⟩ | ⟨hrest', -⟩ | ⟨v, hkind, -⟩
      · exact ⟨items, hbinding, hitems.trans hfilled.surplus⟩
      · exact absurd hrest (Bool.eq_false_iff.mp hrest')
      · simp [Param.isRest, hkind] at hrest
    room := by
      rcases hsurplus with rfl | hrest
      · exact .inl (List.drop_eq_nil_iff.mp hfilled.surplus.symm)
      · exact .inr hrest
    required := fun j p hp hrequired => by
      rcases hcases j p hp with ⟨hrest, -⟩ | ⟨-, a, c, -, hbinding⟩ | ⟨v, hkind, -⟩
      · exact absurd hrest (Bool.eq_false_iff.mp (Param.isRest_of_isRequired hrequired))
      · exact ⟨a.position, c, hbinding⟩
      · simp [Param.isRequired, hkind] at hrequired
    optional := fun j p v hp hkind w => by
      have hrest : p.isRest = false := by simp [Param.isRest, hkind]
      rw [← hfilled.empty j p hp hrest]
      rcases hcases j p hp with ⟨hrest', -⟩ | ⟨-, a, c, ha, hbinding⟩ |
        ⟨v', hkind', hnone, hbinding⟩
      · exact absurd hrest' (Bool.eq_false_iff.mp hrest)
      · simp [hbinding, ha]
      · obtain rfl : v' = v := ParamKind.optional.inj (hkind'.symm.trans hkind)
        simp [hbinding, hnone, eq_comm] }

/-- In every registry that changes lead to, what is chosen for a call gives each argument to its
parameter: those with a name to the first parameter that answers to it, those without one, in order,
to the open parameters, and what is left over to the parameter for it. -/
theorem arguments_placed {changes : List RegistryChange} {r : Registry}
    (hr : RegistryChange.Shows changes r) (matching : NameMatching) (name : String) (v : Value)
    (arguments : List Supplied) {made : Resolution}
    (h : r.resolve matching name v arguments = some made) : made.Places matching arguments := by
  obtain ⟨s, hs, hbound⟩ := Registry.exists_of_resolve h
  exact Signature.places_of_bindCall (hr.isFaithful.admissible s hs) hbound

/-- The second parameter is claimed by its other name, so that the arguments without one go around
it, and what is left over goes to the last. -/
theorem arguments_placed_around_claim :
    let overload := Signature.computing "Join" .any
      [.needed "first" .string, { Param.needed "second" .string with alternative := some "other" },
        .default "between" .string (.string ", "), .remaining "more" .string] Call.value
    let r := { (Registry.empty 0).registerAll 0 [overload] with generation := 1 }
    let arguments : List Supplied :=
      [⟨none, .int 1⟩, ⟨some "OTHER", .int 2⟩, ⟨none, .int 3⟩, ⟨none, .int 4⟩, ⟨none, .int 5⟩]
    RegistryChange.Shows [.new "texts" [overload]] r ∧
    ∃ made, r.resolve .ignoreCase "join" .null arguments = some made ∧
      made.Places .ignoreCase arguments ∧
      made.bindings.map Binding.positions = [[0], [1], [2], [3, 4]] := by
  intro overload r arguments
  have hshows : RegistryChange.Shows [.new "texts" [overload]] r := .inr (.inr ⟨"texts", rfl⟩)
  have hpositions : (r.resolve .ignoreCase "join" .null arguments).map
      (fun made => made.bindings.map Binding.positions) = some [[0], [1], [2], [3, 4]] := by
    decide +kernel
  obtain ⟨made, hmade, hpositions⟩ := Option.map_eq_some_iff.mp hpositions
  exact ⟨hshows, made, hmade,
    arguments_placed hshows .ignoreCase "join" .null arguments hmade, hpositions⟩

end Stencil
