import Mathlib.Data.List.Nodup
import Mathlib.Data.List.Perm.Basic
import Stencil.Proofs.Choice
import Stencil.Proofs.Registration

/-!
# Where the arguments of a call go

To choose an overload, the arguments of a call are first given to parameters by name, then by
position, and what is left goes to a parameter for what is left. The choice keeps the positions of
the arguments only, and is applied later to the arguments of other calls.

An argument with a name goes to one free slot or is refused (`claim_eq_some`), and a queue of the
others fills the slots that stay free. No argument is lost on the way and none is used twice. At
each station the positions that were handed out, together with those still waiting, are a
rearrangement of what there was before (`held_claimByName`, `held_fillInOrder`,
`positions_bindParams`), so in the end each argument has one place (`positions_bindCall`).

Main statement: `Resolution.UsesEach.of_bindCall`. An overload that was bound can be applied by
taking the arguments away one after the other, and takes them all (`Resolution.take_eq`).
-/

namespace Stencil

/-! ## Numbering -/

/-- Arguments are numbered by their positions. -/
theorem getElem?_placedFrom (start : Nat) (arguments : List Supplied) (i : Nat) :
    (placedFrom start arguments)[i]? =
      arguments[i]?.map fun a => (a.name, ⟨start + i, a.value⟩) := by
  induction arguments generalizing start i with
  | nil => rfl
  | cons a arguments ih =>
    cases i with
    | zero => rfl
    | succ i =>
      rw [placedFrom, List.getElem?_cons_succ, List.getElem?_cons_succ, ih,
        Nat.succ_add_eq_add_succ]

theorem mem_placedFrom {arguments : List Supplied} {x : Option String × Placed} :
    x ∈ placedFrom 0 arguments ↔
      ∃ a, arguments[x.2.position]? = some a ∧ a.name = x.1 ∧ a.value = x.2.value := by
  rw [List.mem_iff_getElem?]
  constructor
  · rintro ⟨i, hi⟩
    rw [getElem?_placedFrom, Option.map_eq_some_iff] at hi
    obtain ⟨a, ha, rfl⟩ := hi
    exact ⟨a, by simpa using ha, rfl, rfl⟩
  · obtain ⟨name, i, v⟩ := x
    rintro ⟨a, ha, rfl, rfl⟩
    refine ⟨i, ?_⟩
    rw [getElem?_placedFrom, Option.map_eq_some_iff]
    exact ⟨a, ha, by rw [Nat.zero_add]⟩

/-- An argument of a call at its position. -/
def Placed.IsFrom (arguments : List Supplied) (x : Placed) : Prop :=
  ∃ a, arguments[x.position]? = some a ∧ a.value = x.value

/-- An argument of the call is found at its position. -/
theorem Placed.IsFrom.valueAt {arguments : List Supplied} {x : Placed} (h : x.IsFrom arguments) :
    Binding.valueAt arguments x.position = x.value := by
  obtain ⟨a, ha, hvalue⟩ := h
  unfold Binding.valueAt
  rw [ha]
  exact hvalue

/-- What is put into slots and what is left over are arguments of the call. -/
theorem isFrom_of_fillInOrder {matching : NameMatching} {params : List Param}
    {arguments : List Supplied} {claimed slots : List (Option Placed)} {surplus : List Placed}
    (hclaim : claimByName matching params (placedFrom 0 arguments) (params.map fun _ => none) =
      some claimed)
    (hfill : fillInOrder params claimed (queueOf (placedFrom 0 arguments)) = (slots, surplus)) :
    (∀ x, some x ∈ slots → x.IsFrom arguments) ∧ ∀ x ∈ surplus, x.IsFrom arguments := by
  -- Being an argument of the call is a relation between a call and itself.
  have hplaced : List.Forall₂ (NamedBy fun x y => x = y ∧ x.IsFrom arguments)
      (placedFrom 0 arguments) (placedFrom 0 arguments) := by
    rw [List.forall₂_same]
    intro x hx
    obtain ⟨a, ha, -, hvalue⟩ := mem_placedFrom.mp hx
    exact ⟨rfl, rfl, a, ha, hvalue⟩
  have hclaimed := claimByName_related matching params hplaced (slotsBy_nothing params)
  rw [hclaim] at hclaimed
  cases hclaimed with
  | some hclaimed =>
    have hfilled := fillInOrder_related params hclaimed (queueOf_related hplaced)
    rw [hfill] at hfilled
    obtain ⟨hslots, hsurplus⟩ := hfilled
    refine ⟨fun x hx => ?_, fun x hx => (List.forall₂_same.mp hsurplus x hx).2⟩
    cases List.forall₂_same.mp hslots (some x) hx with
    | some h => exact h.2

/-! ## Slots -/

/-- Positions of the arguments in the slots of the parameters. -/
def held (slots : List (Option Placed)) : List Nat :=
  slots.filterMap (Option.map Placed.position)

/-- Positions of arguments. -/
abbrev positionsOf (queue : List Placed) : List Nat :=
  queue.map Placed.position

/-- A slot for each parameter, and nothing yet in those of parameters for what is left. -/
abbrev Slotted : List Param → List (Option Placed) → Prop :=
  List.Forall₂ fun p slot => p.isRest = true → slot = none

theorem held_nothing (params : List Param) : held (params.map fun _ => none) = [] := by
  induction params with
  | nil => rfl
  | cons p params ih => exact ih

theorem slotted_nothing (params : List Param) : Slotted params (params.map fun _ => none) := by
  induction params with
  | nil => exact .nil
  | cons p params ih => exact .cons (fun _ => rfl) ih

/-- An argument that is put into a free slot is there, and the others stay. -/
theorem held_set {slots : List (Option Placed)} {target : Nat} (a : Placed)
    (hfree : slots[target]? = some none) :
    (held (slots.set target (some a))).Perm (a.position :: held slots) := by
  induction slots generalizing target with
  | nil => cases hfree
  | cons slot slots ih =>
    cases target with
    | zero =>
      obtain rfl : slot = none := Option.some.inj hfree
      exact .refl _
    | succ target =>
      have hrest : (held (slots.set target (some a))).Perm (a.position :: held slots) := ih hfree
      cases slot with
      | none => exact hrest
      | some b => exact (hrest.cons b.position).trans (.swap a.position b.position _)

theorem Slotted.set {params : List Param} {slots : List (Option Placed)}
    (h : Slotted params slots) {target : Nat} {a : Placed}
    (htarget : ¬ params[target]?.any Param.isRest = true) :
    Slotted params (slots.set target (some a)) := by
  induction h generalizing target with
  | nil => exact .nil
  | @cons p slot params slots hp hrest ih =>
    cases target with
    | zero => exact .cons (fun hp' => absurd hp' htarget) hrest
    | succ target => exact .cons hp (ih htarget)

/-- Only slots of parameters that are not for what is left are taken. -/
theorem Slotted.exists_param {params : List Param} {slots : List (Option Placed)}
    (h : Slotted params slots) {j : Nat} {a : Placed} (ha : slots[j]? = some (some a)) :
    ∃ p, params[j]? = some p ∧ p.isRest = false := by
  induction h generalizing j with
  | nil => cases ha
  | @cons p slot params slots hp _ ih =>
    cases j with
    | zero =>
      obtain rfl : slot = some a := Option.some.inj ha
      refine ⟨p, rfl, Bool.eq_false_iff.mpr fun hrest => ?_⟩
      cases hp hrest
    | succ j => exact ih ha

/-! ## By name -/

section Claims

variable (matching : NameMatching) (params : List Param)

/-- Whether a slot refuses an argument with a name: something is there already, or the parameter is
for what is left. -/
def isRefused (slots : List (Option Placed)) (target : Nat) : Bool :=
  slots[target]?.any Option.isSome || params[target]?.any Param.isRest

/-- Puts an argument into a slot. -/
def occupy (target : Nat) (a : Placed) (slots : List (Option Placed)) :
    Option (List (Option Placed)) :=
  if isRefused params slots target then none else some (slots.set target (some a))

/-- One argument claims its parameter, if it has a name. -/
def claim (a : Option String × Placed) (slots : List (Option Placed)) :
    Option (List (Option Placed)) :=
  match a.1 with
  | none => some slots
  | some name =>
    (params.findIdx? (Param.answersTo matching name)).bind fun target =>
      occupy params target a.2 slots

variable {matching params}

theorem claimByName_cons (a : Option String × Placed) (placed : List (Option String × Placed))
    (slots : List (Option Placed)) :
    claimByName matching params (a :: placed) slots =
      (claim matching params a slots).bind (claimByName matching params placed) := by
  obtain ⟨name, a⟩ := a
  cases name with
  | none => rfl
  | some name =>
    simp only [claimByName, claim, Option.bind_eq_bind, Option.bind_assoc]
    congr 1
    funext target
    unfold occupy isRefused
    split <;> rfl

/-- A slot refuses nothing if it is free and its parameter is not for what is left. -/
theorem isRefused_eq_false_iff {slots : List (Option Placed)} (hslots : Slotted params slots)
    {target : Nat} {p : Param} (hp : params[target]? = some p) :
    isRefused params slots target = false ↔ slots[target]? = some none ∧ p.isRest = false := by
  have hbound : target < slots.length :=
    hslots.length_eq ▸ (List.getElem?_eq_some_iff.mp hp).1
  simp [isRefused, hp, List.getElem?_eq_getElem hbound]

/-- An argument that claimed a parameter is in the slot of the first one that answers to its name,
and the slot was free. -/
theorem claim_eq_some {slots claimed : List (Option Placed)} (hslots : Slotted params slots)
    {name : String} {a : Placed} (h : claim matching params (some name, a) slots = some claimed) :
    ∃ target p, params.findIdx? (Param.answersTo matching name) = some target ∧
      params[target]? = some p ∧ p.isRest = false ∧ slots[target]? = some none ∧
      claimed = slots.set target (some a) := by
  obtain ⟨target, htarget, h⟩ := Option.bind_eq_some_iff.mp h
  unfold occupy at h
  split at h
  · cases h
  · next hfits =>
    have hp := List.getElem?_eq_getElem (List.findIdx?_eq_some_iff_getElem.mp htarget).1
    obtain ⟨hfree, hrest⟩ :=
      (isRefused_eq_false_iff hslots hp).mp (Bool.not_eq_true _ ▸ hfits)
    exact ⟨target, _, htarget, hp, hrest, hfree, (Option.some.inj h).symm⟩

/-- A claim leaves the slots of parameters for what is left alone. -/
theorem Slotted.claim {slots claimed : List (Option Placed)} (hslots : Slotted params slots)
    {a : Option String × Placed} (h : claim matching params a slots = some claimed) :
    Slotted params claimed := by
  obtain ⟨name, a⟩ := a
  cases name with
  | none =>
    obtain rfl := Option.some.inj h
    exact hslots
  | some name =>
    obtain ⟨target, p, -, hp, hrest, -, rfl⟩ := claim_eq_some hslots h
    exact hslots.set (by simp [hp, hrest])

end Claims

/-- Arguments given by name, with their positions. -/
def namedPositions (placed : List (Option String × Placed)) : List Nat :=
  positionsOf ((placed.filter fun (name, _) => name.isSome).map Prod.snd)

/-- Claiming by name hands out the arguments that have one. -/
theorem held_claimByName {matching : NameMatching} {params : List Param}
    {placed : List (Option String × Placed)} {slots claimed : List (Option Placed)}
    (hslots : Slotted params slots) (h : claimByName matching params placed slots = some claimed) :
    Slotted params claimed ∧ (held claimed).Perm (namedPositions placed ++ held slots) := by
  induction placed generalizing slots with
  | nil =>
    obtain rfl := Option.some.inj h
    exact ⟨hslots, .refl _⟩
  | cons head placed ih =>
    rw [claimByName_cons] at h
    obtain ⟨next, hclaim, h⟩ := Option.bind_eq_some_iff.mp h
    obtain ⟨hclaimed, hperm⟩ := ih (hslots.claim hclaim) h
    refine ⟨hclaimed, hperm.trans ?_⟩
    obtain ⟨name, a⟩ := head
    cases name with
    | none =>
      obtain rfl := Option.some.inj hclaim
      exact .refl _
    | some name =>
      obtain ⟨target, p, -, -, -, hfree, rfl⟩ := claim_eq_some hslots hclaim
      exact ((held_set a hfree).append_left _).trans List.perm_middle

/-! ## By position -/

/-- Filling in order hands out arguments, and keeps those for which there is no parameter. -/
theorem held_fillInOrder {params : List Param} {slots : List (Option Placed)}
    (hslots : Slotted params slots) (queue : List Placed) :
    Slotted params (fillInOrder params slots queue).1 ∧
    (held (fillInOrder params slots queue).1 ++
        positionsOf (fillInOrder params slots queue).2).Perm (held slots ++ positionsOf queue) := by
  induction hslots generalizing queue with
  | nil => exact ⟨.nil, .refl _⟩
  | @cons p slot params slots hp hrest ih =>
    unfold fillInOrder
    split
    · -- The slot is taken or to be left free, and the queue waits for the next one.
      obtain ⟨hfilled, hperm⟩ := ih queue
      refine ⟨.cons hp hfilled, ?_⟩
      cases slot with
      | none => exact hperm
      | some b => exact hperm.cons b.position
    · next hopen =>
      simp only [Bool.or_eq_true, not_or, Bool.not_eq_true] at hopen
      obtain rfl : slot = none := by simpa using hopen.1
      cases queue with
      | nil => exact ⟨.cons (fun _ => rfl) hrest, .refl _⟩
      | cons a queue =>
        obtain ⟨hfilled, hperm⟩ := ih queue
        refine ⟨.cons ?_ hfilled, ?_⟩
        · intro hp'
          rw [hopen.2] at hp'
          cases hp'
        · exact (hperm.cons a.position).trans List.perm_middle.symm

/-- When all arguments of a call were placed, the slots of parameters for what is left are free. -/
theorem slotted_of_fillInOrder {matching : NameMatching} {params : List Param}
    {placed : List (Option String × Placed)} {claimed slots : List (Option Placed)}
    {queue surplus : List Placed}
    (hclaim : claimByName matching params placed (params.map fun _ => none) = some claimed)
    (hfill : fillInOrder params claimed queue = (slots, surplus)) : Slotted params slots := by
  have hfilled :=
    (held_fillInOrder (held_claimByName (slotted_nothing params) hclaim).1 queue).1
  rwa [hfill] at hfilled

/-! ## Bindings -/

/-- The arguments that a parameter gets, by their positions. -/
def Binding.positions : Binding → List Nat
  | argument position _ => [position]
  | default _ => []
  | rest items => items.map Prod.fst

theorem positions_acceptAll {converters : List Converter} {type : ParamType} {queue : List Placed}
    {types types' : TypeArguments} {items : List (Nat × Conversion)}
    (h : acceptAll converters type queue types = some (items, types')) :
    items.map Prod.fst = positionsOf queue := by
  induction queue generalizing types items with
  | nil =>
    obtain ⟨rfl, -⟩ := Prod.mk.inj (Option.some.inj h)
    rfl
  | cons a queue ih =>
    obtain ⟨c, between, rest, -, hrest, rfl⟩ := exists_of_acceptAll_cons h
    exact congrArg (a.position :: ·) (ih hrest)

/-- A parameter gets what is in its slot, and one for what is left gets the surplus. -/
theorem positions_bind {converters : List Converter} {surplus : List Placed} {p : Param}
    {slot : Option Placed} (hslot : p.isRest = true → slot = none) {types types' : TypeArguments}
    {binding : Binding} (h : p.bind converters surplus slot types = some (binding, types')) :
    binding.positions = held [slot] ++ if p.isRest then positionsOf surplus else [] := by
  rcases Param.bind_cases h with ⟨hrest, items, rfl, hitems⟩ | ⟨hrest, a, c, rfl, rfl, -⟩ |
    ⟨v, hkind, rfl, rfl, -⟩
  · obtain rfl := hslot hrest
    rw [if_pos hrest]
    exact positions_acceptAll hitems
  · simp [hrest, held, Binding.positions]
  · simp [Param.isRest, hkind, held, Binding.positions]

/-- Of parameters the last of which only is for what is left, each gets its argument. -/
theorem positions_bindParams {converters : List Converter} {surplus : List Placed}
    {params : List Param} {slots : List (Option Placed)} (hslots : Slotted params slots)
    (hlast : ∀ i p, params[i]? = some p → p.isRest = true → i + 1 = params.length)
    {types types' : TypeArguments} {bindings : List Binding}
    (h : bindParams converters surplus params slots types = some (bindings, types')) :
    bindings.length = params.length ∧ bindings.flatMap Binding.positions =
      held slots ++ if params.any Param.isRest then positionsOf surplus else [] := by
  induction hslots generalizing types bindings with
  | nil =>
    obtain ⟨rfl, -⟩ := Prod.mk.inj (Option.some.inj h)
    exact ⟨rfl, rfl⟩
  | @cons p slot params slots hp hrest ih =>
    obtain ⟨binding, between, rest, hbinding, hbindings, rfl⟩ := exists_of_bindParams_cons h
    have hlast' : ∀ i q, params[i]? = some q → q.isRest = true → i + 1 = params.length := by
      intro i q hi hq
      exact Nat.succ.inj (hlast (i + 1) q hi hq)
    obtain ⟨hlength, hpositions⟩ := ih hlast' hbindings
    refine ⟨congrArg (· + 1) hlength, ?_⟩
    have hheld : held (slot :: slots) = held [slot] ++ held slots :=
      List.filterMap_append (l := [slot])
    rw [List.flatMap_cons, positions_bind hp hbinding, hpositions, List.any_cons, hheld]
    by_cases hisRest : p.isRest = true
    · -- Nothing comes after a parameter for what is left.
      have hnil : params = [] := by
        have := hlast 0 p rfl hisRest
        exact List.length_eq_zero_iff.mp (Nat.succ.inj this).symm
      subst hnil
      cases hrest
      simp [hisRest, held]
    · simp [hisRest]

/-! ## All stations -/

theorem positions_placedFrom (start : Nat) (arguments : List Supplied) :
    positionsOf ((placedFrom start arguments).map Prod.snd) =
      List.range' start arguments.length := by
  induction arguments generalizing start with
  | nil => rfl
  | cons a arguments ih => exact congrArg (start :: ·) (ih (start + 1))

/-- Arguments with and without a name are all there are. -/
theorem perm_placedFrom (arguments : List Supplied) :
    (namedPositions (placedFrom 0 arguments) ++ positionsOf
        (queueOf (placedFrom 0 arguments))).Perm (List.range arguments.length) := by
  have hsplit := List.filter_append_perm (fun a : Option String × Placed => a.1.isSome)
    (placedFrom 0 arguments)
  have hmapped := (hsplit.map Prod.snd).map Placed.position
  have hpositions : ((placedFrom 0 arguments).map Prod.snd).map Placed.position =
      List.range arguments.length := by
    rw [List.range_eq_range']
    exact positions_placedFrom 0 arguments
  rw [List.map_append, List.map_append, hpositions] at hmapped
  have hnone : (fun a : Option String × Placed => !a.1.isSome) = fun a => a.1.isNone := by
    funext a
    exact Option.not_isSome a.1
  rw [hnone] at hmapped
  exact hmapped

/-- An overload that was bound to a call has a binding for each parameter, and each argument of the
call is at one place in them. -/
theorem positions_bindCall {s : Signature} (hs : s.IsAdmissible) {converters : List Converter}
    {shape : CallShape} {v : Value} {arguments : List Supplied} {made : Resolution}
    (h : s.bindCall converters shape v arguments = some made) :
    made.signature = s ∧ made.bindings.length = s.params.length ∧
    (made.bindings.flatMap Binding.positions).Perm (List.range arguments.length) := by
  obtain ⟨_, _, claimed, slots, surplus, bindings, _, -, hclaim, hfill, hsurplus, hbind, rfl⟩ :=
    Signature.stations_of_bindCall h
  obtain ⟨hclaimed, hnamed⟩ := held_claimByName (slotted_nothing s.params) hclaim
  rw [held_nothing, List.append_nil] at hnamed
  obtain ⟨hfilled, hqueue⟩ := held_fillInOrder hclaimed (queueOf (placedFrom 0 arguments))
  rw [hfill] at hfilled hqueue
  obtain ⟨hlength, hpositions⟩ := positions_bindParams hfilled hs.restLast hbind
  refine ⟨rfl, hlength, ?_⟩
  -- Without a parameter for what is left nothing may be left.
  have hall : (if s.params.any Param.isRest then positionsOf surplus else []) =
      positionsOf surplus := by
    rcases hsurplus with rfl | hrest
    · exact ite_self _
    · exact if_pos hrest
  rw [hpositions, hall]
  exact hqueue.trans ((hnamed.append_right _).trans (perm_placedFrom arguments))

/-! ## Taking -/

/-- What is left of the arguments when some were taken. -/
abbrev Remaining := List (Option Value)

namespace Remaining

/-- Takes the argument at a position. There is no result where nothing is, or is any more. -/
def take (left : Remaining) (position : Nat) : Option (Value × Remaining) :=
  match left[position]? with
  | some (some v) => some (v, left.set position none)
  | _ => none

/-- What is left without some positions. -/
def without (left : Remaining) (positions : List Nat) : Remaining :=
  positions.foldl (fun left position => left.set position none) left

/-- Takes arguments one after the other and converts them. -/
def takeAll : Remaining → List (Nat × Conversion) → Option (List Value × Remaining)
  | left, [] => some ([], left)
  | left, (position, c) :: items => do
    let (v, left) ← left.take position
    let (vs, left) ← takeAll left items
    return (c.apply v :: vs, left)

/-- Takes what one parameter gets. -/
def takeFor (left : Remaining) : Binding → Option (Value × Remaining)
  | .argument position c => do
    let (v, left) ← left.take position
    return (c.apply v, left)
  | .default v => some (v, left)
  | .rest items => do
    let (vs, left) ← left.takeAll items
    return (.array vs, left)

/-- Takes what the parameters get, in order. -/
def takeEach : Remaining → List Binding → Option (List Value × Remaining)
  | left, [] => some ([], left)
  | left, binding :: bindings => do
    let (v, left) ← left.takeFor binding
    let (vs, left) ← takeEach left bindings
    return (v :: vs, left)

theorem getElem?_without_of_notMem {left : Remaining} {positions : List Nat} {i : Nat}
    (h : i ∉ positions) : (left.without positions)[i]? = left[i]? := by
  induction positions generalizing left with
  | nil => rfl
  | cons position positions ih =>
    obtain ⟨hne, hrest⟩ := not_or.mp (mt List.mem_cons.mpr h)
    show (without (left.set position none) positions)[i]? = left[i]?
    rw [ih hrest, List.getElem?_set_ne fun heq => hne heq.symm]

theorem length_without (left : Remaining) (positions : List Nat) :
    (left.without positions).length = left.length := by
  induction positions generalizing left with
  | nil => rfl
  | cons position positions ih =>
    show (without (left.set position none) positions).length = left.length
    rw [ih, List.length_set]

theorem getElem?_without_of_mem {left : Remaining} {positions : List Nat} {i : Nat}
    (h : i ∈ positions) (hi : i < left.length) : (left.without positions)[i]? = some none := by
  induction positions generalizing left with
  | nil => cases h
  | cons position positions ih =>
    show (without (left.set position none) positions)[i]? = some none
    by_cases hrest : i ∈ positions
    · exact ih hrest (by rwa [List.length_set])
    · have hi' : i = position := by
        rcases List.mem_cons.mp h with h | h
        · exact h
        · exact absurd h hrest
      subst hi'
      rw [getElem?_without_of_notMem hrest, List.getElem?_set_self hi]

/-- The arguments at some positions have not been taken. -/
def Has (left : Remaining) (arguments : List Supplied) (positions : List Nat) : Prop :=
  ∀ i ∈ positions, left[i]? = some (some (Binding.valueAt arguments i))

theorem Has.without {left : Remaining} {arguments : List Supplied} {taken positions : List Nat}
    (h : left.Has arguments positions) (hdisjoint : taken.Disjoint positions) :
    (left.without taken).Has arguments positions := by
  intro i hi
  rw [getElem?_without_of_notMem fun htaken => hdisjoint htaken hi]
  exact h i hi

theorem take_eq {left : Remaining} {arguments : List Supplied} {i : Nat}
    (h : left.Has arguments [i]) :
    left.take i = some (Binding.valueAt arguments i, left.without [i]) := by
  unfold take
  rw [h i (List.mem_singleton_self i)]
  rfl

theorem without_append (left : Remaining) (taken positions : List Nat) :
    left.without (taken ++ positions) = (left.without taken).without positions :=
  List.foldl_append

/-- Positions that are all different are there for the first of them, and then for the others. -/
theorem Has.split {left : Remaining} {arguments : List Supplied} {first rest : List Nat}
    (h : left.Has arguments (first ++ rest)) (hnodup : (first ++ rest).Nodup) :
    left.Has arguments first ∧ first.Nodup ∧ (left.without first).Has arguments rest ∧
      rest.Nodup := by
  obtain ⟨hfirst, hrest, hdisjoint⟩ := List.nodup_append'.mp hnodup
  have hleft : left.Has arguments rest := fun i hi => h i (List.mem_append_right first hi)
  exact ⟨fun i hi => h i (List.mem_append_left rest hi), hfirst, hleft.without hdisjoint, hrest⟩

theorem takeAll_eq {left : Remaining} {arguments : List Supplied} {items : List (Nat × Conversion)}
    (h : left.Has arguments (items.map Prod.fst)) (hnodup : (items.map Prod.fst).Nodup) :
    left.takeAll items = some (items.map fun (position, c) =>
      c.apply (Binding.valueAt arguments position), left.without (items.map Prod.fst)) := by
  induction items generalizing left with
  | nil => rfl
  | cons item items ih =>
    obtain ⟨position, c⟩ := item
    have hsplit : left.Has arguments ([position] ++ items.map Prod.fst) := h
    obtain ⟨hfirst, -, hrest, hnodup'⟩ := hsplit.split hnodup
    simp only [takeAll, take_eq hfirst, Option.bind_eq_bind, Option.bind_some, ih hrest hnodup']
    rfl

theorem takeFor_eq {left : Remaining} {arguments : List Supplied} {binding : Binding}
    (h : left.Has arguments binding.positions) (hnodup : binding.positions.Nodup) :
    left.takeFor binding =
      some (binding.value arguments, left.without binding.positions) := by
  cases binding with
  | argument position c =>
    simp only [takeFor, take_eq h, Option.bind_eq_bind, Option.bind_some]
    rfl
  | default v => rfl
  | rest items =>
    simp only [takeFor, takeAll_eq h hnodup, Option.bind_eq_bind, Option.bind_some]
    rfl

theorem takeEach_eq {left : Remaining} {arguments : List Supplied} {bindings : List Binding}
    (h : left.Has arguments (bindings.flatMap Binding.positions))
    (hnodup : (bindings.flatMap Binding.positions).Nodup) :
    left.takeEach bindings = some (bindings.map (Binding.value arguments),
      left.without (bindings.flatMap Binding.positions)) := by
  induction bindings generalizing left with
  | nil => rfl
  | cons binding bindings ih =>
    rw [List.flatMap_cons] at h hnodup
    obtain ⟨hfirst, hnodup', hrest, hnodup''⟩ := h.split hnodup
    simp only [takeEach, takeFor_eq hfirst hnodup', Option.bind_eq_bind, Option.bind_some,
      ih hrest hnodup'']
    rw [List.flatMap_cons, without_append]
    rfl

end Remaining

namespace Resolution

/-- Applies a choice by taking the arguments away as they are used. There is no result if one is
missing or was used before. The second part of the result is what has not been used. -/
def take (r : Resolution) (v : Value) (arguments : List Supplied) :
    Option ((Value × List Value) × Remaining) := do
  let (vs, left) ← Remaining.takeEach (arguments.map fun a => some a.value) r.bindings
  return ((r.valueConversion.apply v, vs), left)

/-- A choice gives each parameter a value and uses each argument of the call once. -/
structure UsesEach (r : Resolution) (v : Value) (arguments : List Supplied) : Prop where
  params : (r.bind v arguments).2.length = r.signature.params.length
  positions : (r.bindings.flatMap Binding.positions).Perm (List.range arguments.length)
  /-- All arguments are there when they are used, and none is left. -/
  take : r.take v arguments = some (r.bind v arguments, arguments.map fun _ => none)

theorem take_eq {r : Resolution} (v : Value) {arguments : List Supplied}
    (h : (r.bindings.flatMap Binding.positions).Perm (List.range arguments.length)) :
    r.take v arguments = some (r.bind v arguments, arguments.map fun _ => none) := by
  have hhas : Remaining.Has (arguments.map fun a => some a.value) arguments
      (r.bindings.flatMap Binding.positions) := by
    intro i hi
    have hlt : i < arguments.length := List.mem_range.mp (h.mem_iff.mp hi)
    simp [Binding.valueAt, List.getElem?_eq_getElem hlt]
  have hnone : Remaining.without (arguments.map fun a => some a.value)
      (r.bindings.flatMap Binding.positions) = arguments.map fun _ => none := by
    apply List.ext_getElem?
    intro i
    by_cases hlt : i < arguments.length
    · rw [Remaining.getElem?_without_of_mem (h.mem_iff.mpr (List.mem_range.mpr hlt))
        (by rwa [List.length_map])]
      simp [hlt]
    · rw [List.getElem?_eq_none (by rw [Remaining.length_without, List.length_map]; omega),
        List.getElem?_eq_none (by rw [List.length_map]; omega)]
  unfold take
  rw [Remaining.takeEach_eq hhas (h.nodup_iff.mpr List.nodup_range), hnone]
  rfl

/-- An overload that was bound to a call uses each argument of every call that has as many. -/
theorem UsesEach.of_bindCall {s : Signature} (hs : s.IsAdmissible) {converters : List Converter}
    {shape : CallShape} {v : Value} {arguments : List Supplied} {made : Resolution}
    (h : s.bindCall converters shape v arguments = some made) (w : Value)
    {others : List Supplied} (hlength : others.length = arguments.length) :
    made.UsesEach w others := by
  obtain ⟨hsignature, hparams, hpositions⟩ := positions_bindCall hs h
  rw [← hlength] at hpositions
  refine ⟨?_, hpositions, take_eq w hpositions⟩
  show (made.bindings.map _).length = made.signature.params.length
  rw [List.length_map, hparams, hsignature]

end Resolution

end Stencil
