import Mathlib.Data.List.Perm.Basic
import Stencil.Proofs.Placing

/-!
# The order of named arguments

A name says which parameter an argument is for, so it should not matter where in a call the
argument stands. It could matter in many ways: the choice of an overload numbers the arguments of
the call, keeps these numbers in its bindings, and finds out about type parameters on the way.

It does not matter, because claims commute. Two arguments with names lead to two parameters, or to
one, which then both orders refuse (`claim_comm`). So claiming by name does not see the order at all
(`claimByName_perm`), and the arguments without a name wait in the same queue as before. After that
the two calls differ in the positions of their arguments only, and the positions lead to the same
values (`SameValue`).

Main statement: `named_arguments_commute`.
-/

namespace Stencil

/-! ## Claims -/

section Claims

variable {matching : NameMatching} {params : List Param}

/-- Claiming by name is claiming one after the other, until something is refused. -/
theorem claimByName_eq_foldl (placed : List (Option String × Placed))
    (slots : Option (List (Option Placed))) :
    slots.bind (claimByName matching params placed) =
      placed.foldl (fun slots a => slots.bind (claim matching params a)) slots := by
  induction placed generalizing slots with
  | nil => cases slots <;> rfl
  | cons a placed ih =>
    rw [List.foldl_cons, ← ih, Option.bind_assoc]
    congr 1
    funext slots
    exact claimByName_cons a placed slots

/-- A slot that was just taken refuses. Where there is no such slot nothing was put there. -/
theorem occupy_occupy_self (slots : List (Option Placed)) (target : Nat) (a b : Placed) :
    (occupy params target a slots).bind (occupy params target b) =
      if target < slots.length then none else occupy params target a slots := by
  by_cases hrefused : isRefused params slots target = true
  · simp [occupy, hrefused]
  · simp only [occupy, hrefused, Bool.false_eq_true, if_false, Option.bind_some]
    by_cases hlt : target < slots.length
    · have hset : isRefused params (slots.set target (some a)) target = true := by
        simp [isRefused, hlt]
      simp only [hset, if_true, hlt]
    · rw [List.set_eq_of_length_le (Nat.le_of_not_lt hlt), if_neg hrefused,
        List.set_eq_of_length_le (Nat.le_of_not_lt hlt), if_neg hlt]

theorem occupy_comm (i j : Nat) (a b : Placed) (slots : List (Option Placed)) :
    (occupy params i a slots).bind (occupy params j b) =
      (occupy params j b slots).bind (occupy params i a) := by
  by_cases hij : i = j
  · subst hij
    rw [occupy_occupy_self, occupy_occupy_self]
    split
    · rfl
    · next hlt =>
      unfold occupy
      rw [List.set_eq_of_length_le (Nat.le_of_not_lt hlt),
        List.set_eq_of_length_le (Nat.le_of_not_lt hlt)]
  · -- Different slots do not see each other.
    have hi : isRefused params (slots.set j (some b)) i = isRefused params slots i := by
      unfold isRefused
      rw [List.getElem?_set_ne (Ne.symm hij)]
    have hj : isRefused params (slots.set i (some a)) j = isRefused params slots j := by
      unfold isRefused
      rw [List.getElem?_set_ne hij]
    unfold occupy
    cases hri : isRefused params slots i <;> cases hrj : isRefused params slots j <;>
      simp [hi, hj, hri, hrj, List.set_comm _ _ hij]

/-- It does not matter which of two arguments claims first. -/
theorem claim_comm (a b : Option String × Placed) (slots : List (Option Placed)) :
    (claim matching params a slots).bind (claim matching params b) =
      (claim matching params b slots).bind (claim matching params a) := by
  -- An argument leaves the slots alone, is refused by all, or is put into one of them.
  have hcases : ∀ a : Option String × Placed, claim matching params a = some ∨
      claim matching params a = (fun _ => none) ∨
      ∃ target, claim matching params a = occupy params target a.2 := by
    intro a
    unfold claim
    split
    · exact .inl rfl
    · cases params.findIdx? (Param.answersTo matching _) with
      | none => exact .inr (.inl rfl)
      | some target => exact .inr (.inr ⟨target, rfl⟩)
  rcases hcases a with ha | ha | ⟨i, ha⟩ <;> rcases hcases b with hb | hb | ⟨j, hb⟩ <;>
    rw [ha, hb]
  case inr.inr.inr.inr => exact occupy_comm i j a.2 b.2 slots
  all_goals simp

/-- Claiming by name does not depend on the order of the arguments. -/
theorem claimByName_perm {xs ys : List (Option String × Placed)} (h : xs.Perm ys)
    (slots : List (Option Placed)) :
    claimByName matching params xs slots = claimByName matching params ys slots := by
  have hfold := h.foldl_eq' (f := fun slots a => slots.bind (claim matching params a))
    (fun a _ b _ slots => by
      rw [Option.bind_assoc, Option.bind_assoc]
      congr 1
      funext slots
      exact claim_comm a b slots) (some slots)
  rwa [← claimByName_eq_foldl, ← claimByName_eq_foldl] at hfold

end Claims

/-! ## Positions and values -/

/-- An argument of a call as it is placed: its name, its value, and a position at which the call has
this value. -/
def Supplied.StandsAs (arguments : List Supplied) (a : Supplied) (x : Option String × Placed) :
    Prop :=
  a.name = x.1 ∧ a.value = x.2.value ∧ Binding.valueAt arguments x.2.position = a.value

theorem standsAs_placedFrom (before arguments : List Supplied) :
    List.Forall₂ (Supplied.StandsAs (before ++ arguments)) arguments
      (placedFrom before.length arguments) := by
  induction arguments generalizing before with
  | nil => exact .nil
  | cons a arguments ih =>
    refine .cons ⟨rfl, rfl, by simp [Binding.valueAt]⟩ ?_
    have := ih (before ++ [a])
    rwa [List.append_assoc, List.length_append] at this

theorem standsAs_all (arguments : List Supplied) :
    List.Forall₂ (Supplied.StandsAs arguments) arguments (placedFrom 0 arguments) :=
  standsAs_placedFrom [] arguments

/-- Arguments of two calls that have the same value. -/
def SameValue (as bs : List Supplied) (x y : Placed) : Prop :=
  x.value = y.value ∧ Binding.valueAt as x.position = Binding.valueAt bs y.position

/-- What stands for the same arguments in two calls has the same names and values. -/
theorem sameValue_of_standsAs {as bs arguments : List Supplied}
    {xs ys : List (Option String × Placed)}
    (hxs : List.Forall₂ (Supplied.StandsAs as) arguments xs)
    (hys : List.Forall₂ (Supplied.StandsAs bs) arguments ys) :
    List.Forall₂ (NamedBy (SameValue as bs)) xs ys := by
  induction hxs generalizing ys with
  | nil =>
    cases hys
    exact .nil
  | cons hx _ ih =>
    cases hys with
    | cons hy hys =>
      obtain ⟨hname, hvalue, hat⟩ := hx
      obtain ⟨hname', hvalue', hat'⟩ := hy
      exact .cons ⟨hname.symm.trans hname', hvalue.symm.trans hvalue', hat.trans hat'.symm⟩
        (ih hys)

section Reordered

variable {as bs : List Supplied}

/-- Arguments in another order claim parameters for the same values. -/
theorem claimByName_reordered (hperm : as.Perm bs) (matching : NameMatching)
    (params : List Param) (slots : List (Option Placed))
    (hslots : SlotsBy (SameValue as bs) slots slots) :
    Option.Rel (SlotsBy (SameValue as bs))
      (claimByName matching params (placedFrom 0 as) slots)
      (claimByName matching params (placedFrom 0 bs) slots) := by
  -- The first arguments, rearranged into the order of the second.
  obtain ⟨xs, hxs, hrearranged⟩ :=
    List.perm_comp_forall₂ hperm.symm (standsAs_all as)
  rw [← claimByName_perm hrearranged]
  exact claimByName_related matching params (sameValue_of_standsAs hxs (standsAs_all bs)) hslots

/-- Arguments without a name wait in the same queue if they come in the same order. -/
theorem queueOf_reordered
    (hqueue : (as.filter fun a => a.name.isNone) = bs.filter fun b => b.name.isNone) :
    List.Forall₂ (SameValue as bs) (queueOf (placedFrom 0 as)) (queueOf (placedFrom 0 bs)) := by
  have hfilter : ∀ arguments : List Supplied,
      List.Forall₂ (Supplied.StandsAs arguments) (arguments.filter fun a => a.name.isNone)
        ((placedFrom 0 arguments).filter fun x => x.1.isNone) := by
    intro arguments
    refine List.rel_filter ?_ (standsAs_all arguments)
    rintro a ⟨name, x⟩ ⟨hname, -, -⟩
    obtain rfl : a.name = name := hname
    rfl
  have has := hfilter as
  rw [hqueue] at has
  rw [List.forall₂_map_left_iff, List.forall₂_map_right_iff]
  exact (sameValue_of_standsAs has (hfilter bs)).imp fun _ _ h => h.2

/-- Bindings that differ by positions of the same values give the same. -/
theorem value_of_moved {b b' : Binding}
    (h : b.Moved (fun i j => Binding.valueAt as i = Binding.valueAt bs j) b') :
    b.value as = b'.value bs := by
  cases h with
  | argument h => exact congrArg _ h
  | default => rfl
  | @rest xs ys h =>
    show Value.array _ = Value.array _
    congr 1
    induction h with
    | nil => rfl
    | @cons x y _ _ hxy _ ih =>
      rw [List.map_cons, List.map_cons, ih]
      show x.2.apply (Binding.valueAt as x.1) :: _ = y.2.apply (Binding.valueAt bs y.1) :: _
      rw [hxy.1, hxy.2]

end Reordered

/-! ## Calls -/

/-- Two calls whose arguments are the same but for their order, with the ones that have no name in
the same order, find an overload both or neither. It is the same overload with the same type
arguments, and it gets the same value and the same arguments. -/
theorem named_arguments_commute (r : Registry) (matching : NameMatching) (name : String)
    (v : Value) {as bs : List Supplied} (hperm : as.Perm bs)
    (hqueue : (as.filter fun a => a.name.isNone) = bs.filter fun b => b.name.isNone) :
    Option.Rel
      (fun made made' => made.signature = made'.signature ∧ made.types = made'.types ∧
        made.bind v as = made'.bind v bs)
      (r.resolve matching name v as) (r.resolve matching name v bs) := by
  have hbound : ∀ s ∈ r.signatures, Option.Rel
      (Resolution.Moved fun i j => Binding.valueAt as i = Binding.valueAt bs j)
      (s.bindCall r.converters (.ofCall r matching v as) v as)
      (s.bindCall r.converters (.ofCall r matching v bs) v bs) := by
    intro s _
    refine Signature.bindCall_related (fun type _ known => rfl) (R := SameValue as bs) ?_
      (claimByName_reordered hperm matching s.params _ (slotsBy_nothing s.params))
      (queueOf_reordered hqueue)
    rintro x y ⟨hvalue, hat⟩
    refine ⟨hat, fun type _ known => ?_⟩
    rw [hvalue]
  have hchoice := Registry.resolve_related name
    (fun x y hxy => Resolution.Moved.rank_eq hxy) hbound
  generalize r.resolve matching name v as = made at hchoice ⊢
  generalize r.resolve matching name v bs = made' at hchoice ⊢
  cases hchoice with
  | none => exact .none
  | some hmoved =>
    refine .some ⟨hmoved.signature, hmoved.types, ?_⟩
    unfold Resolution.bind
    rw [hmoved.valueConversion, Prod.mk.injEq]
    refine ⟨rfl, ?_⟩
    rw [← List.forall₂_eq_eq_eq, List.forall₂_map_left_iff, List.forall₂_map_right_iff]
    exact hmoved.bindings.imp fun _ _ hb => value_of_moved hb

/-- A name that leads to the second of three parameters, before the arguments without a name and
after them. -/
theorem named_arguments_commute_between :
    let r := (Registry.empty 1).registerAll 1 [.computing "Between" .any
      [.needed "low" (.generic "T"), .needed "high" (.generic "T"), .remaining "more" .string]
      Call.value]
    let before : List Supplied :=
      [⟨some "HIGH", .int 9⟩, ⟨none, .int 2⟩, ⟨none, .null⟩, ⟨none, .string "x"⟩]
    let after : List Supplied :=
      [⟨none, .int 2⟩, ⟨none, .null⟩, ⟨none, .string "x"⟩, ⟨some "HIGH", .int 9⟩]
    ∃ made made', r.resolve .ignoreCase "Between" .null before = some made ∧
      r.resolve .ignoreCase "Between" .null after = some made' ∧
      made.types = [("T", .integer)] ∧ made'.types = made.types ∧
      (made'.bind .null after).2 = (made.bind .null before).2 := by
  intro r before after
  have hperm : before.Perm after := (List.perm_append_singleton _ _).symm
  have hrelated := named_arguments_commute r .ignoreCase "Between" .null hperm rfl
  have htypes : (r.resolve .ignoreCase "Between" .null before).map Resolution.types =
      some [("T", .integer)] := by
    decide +kernel
  obtain ⟨made, hmade, htypes⟩ := Option.map_eq_some_iff.mp htypes
  rw [hmade] at hrelated
  cases hmade' : r.resolve .ignoreCase "Between" .null after with
  | none =>
    rw [hmade'] at hrelated
    cases hrelated
  | some made' =>
    rw [hmade'] at hrelated
    cases hrelated with
    | some h => exact ⟨made, made', hmade, rfl, htypes, h.2.1.symm, congrArg Prod.snd h.2.2.symm⟩

end Stencil
