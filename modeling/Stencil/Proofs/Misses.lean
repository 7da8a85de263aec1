import Mathlib.Data.List.Basic
import Stencil.Proofs.Outcome

/-!
# Paths compose, and miss once

A path is followed part by part, and each part sees nothing of the ones before it but the context
that they lead to, and that it is not the first. So a path that misses nothing can be followed
first, and what comes after it can be followed from where it leads (`follow_append`).

Selectors and literals always lead somewhere, so all that can be missed is a member. There the path
ends, whatever was to come (`follow_missed`), and the miss is recorded with the whole path.

Whether all members are there is said of the members alone (`Path.AllThere`). Main statement:
`reach_composes`.
-/

namespace Stencil

/-! ## Members that are there -/

/-- Whether the member that a part asks for is there: as a variable, where variables count, or in
the value. Other parts ask for none. -/
def Part.IsThere (scope : Scope) (start : PathStart) (c : Context) (p : Part) : Prop :=
  p.kind = .member →
    (start = .scope ∧ (scope.get? p.keyText).isSome) ∨
      (scope.options.member? c.value p.keyText).isSome

/-- Where a path goes on that started like this: variables count for its first part only. -/
def PathStart.after (start : PathStart) : Path → PathStart
  | [] => start
  | _ :: _ => .member

/-- Whether all members that a path asks for are there, each in the context that the parts before it
lead to. -/
def Path.AllThere (scope : Scope) (start : PathStart) (parts : Path) (c : Context) : Prop :=
  ∀ before p after, parts = before ++ p :: after →
    p.IsThere scope (start.after before) (Path.reach scope start before c).context

section Steps

variable {scope : Scope} {start : PathStart} {c : Context}

/-- A part leads somewhere just if its member is there. -/
theorem Part.isSome_step?_iff {p : Part} :
    (p.step? scope start c).isSome ↔ p.IsThere scope start c := by
  unfold step? IsThere
  cases hkind : p.kind
  case member =>
    cases start <;> simp [Option.isSome_or]
  all_goals simp

theorem Part.step?_eq_none_iff {p : Part} :
    p.step? scope start c = none ↔ ¬ p.IsThere scope start c := by
  rw [← isSome_step?_iff, Option.not_isSome_iff_eq_none]

/-- What is missed is a member. -/
theorem Part.kind_of_not_isThere {p : Part} (h : ¬ p.IsThere scope start c) : p.kind = .member := by
  by_contra hkind
  exact h fun hmember => absurd hmember hkind

end Steps

/-! ## Paths side by side -/

namespace Path

variable {scope : Scope} {start : PathStart} {c : Context}

theorem follow_cons {whole : Path} {p : Part} {next : Context}
    (hstep : p.step? scope start c = some next) (rest : Path) :
    follow whole scope start (p :: rest) c = follow whole scope .member rest next := by
  rw [follow, hstep]

/-- The whole path matters for what is recorded of a miss, and not for where it leads. -/
theorem context_follow (whole other : Path) (scope : Scope) (start : PathStart) (parts : Path)
    (c : Context) :
    (follow whole scope start parts c).context = (follow other scope start parts c).context := by
  induction parts generalizing start c with
  | nil => rfl
  | cons p rest ih =>
    cases hstep : p.step? scope start c with
    | none => simp only [follow, hstep]
    | some next => rw [follow_cons hstep, follow_cons hstep, ih]

theorem context_reach_cons {p : Part} {next : Context}
    (hstep : p.step? scope start c = some next) (rest : Path) :
    (reach scope start (p :: rest) c).context = (reach scope .member rest next).context := by
  unfold reach
  rw [follow_cons hstep, context_follow]

theorem allThere_nil : AllThere scope start [] c := by
  intro before p after h
  cases before <;> cases h

/-- The members of a path are there if its first part leads somewhere, and the members of the rest
are there. -/
theorem allThere_cons_iff {p : Part} {rest : Path} :
    AllThere scope start (p :: rest) c ↔
      ∃ next, p.step? scope start c = some next ∧ AllThere scope .member rest next := by
  constructor
  · intro h
    have hfirst : p.IsThere scope start c := h [] p rest rfl
    obtain ⟨next, hstep⟩ := Option.isSome_iff_exists.mp (Part.isSome_step?_iff.mpr hfirst)
    refine ⟨next, hstep, ?_⟩
    rintro before q after rfl
    have hq := h (p :: before) q after rfl
    rw [context_reach_cons hstep] at hq
    cases before <;> exact hq
  · rintro ⟨next, hstep, hrest⟩ before q after heq
    cases before with
    | nil =>
      obtain ⟨rfl, rfl⟩ := List.cons.inj heq
      have hfirst : p.IsThere scope start c := Part.isSome_step?_iff.mp (by rw [hstep]; rfl)
      exact hfirst
    | cons first before =>
      obtain ⟨rfl, rfl⟩ := List.cons.inj heq
      have hq := hrest before q after rfl
      rw [context_reach_cons hstep]
      cases before <;> exact hq

/-- What comes after a path that misses nothing is followed from where the path leads. -/
theorem follow_append (whole : Path) {p : Path} (h : AllThere scope start p c) (q : Path) :
    follow whole scope start (p ++ q) c =
      follow whole scope (start.after p) q (reach scope start p c).context := by
  induction p generalizing start c with
  | nil => rfl
  | cons part rest ih =>
    obtain ⟨next, hstep, hrest⟩ := allThere_cons_iff.mp h
    rw [List.cons_append, follow_cons hstep, ih hrest, context_reach_cons hstep]
    cases rest <;> rfl

/-- A path that misses nothing leads to a context, and that is all. -/
theorem reach_of_allThere {p : Path} (h : AllThere scope start p c) :
    reach scope start p c = ⟨(reach scope start p c).context, none⟩ := by
  have hwhole := follow_append p h []
  rw [List.append_nil] at hwhole
  exact hwhole

/-- A path ends with the first member that it misses, and nothing depends on the parts after it. -/
theorem follow_missed (whole : Path) {before : Path} (h : AllThere scope start before c) {p : Part}
    (hmissed : ¬ p.IsThere scope (start.after before) (reach scope start before c).context)
    (after : Path) :
    follow whole scope start (before ++ p :: after) c =
      ⟨(reach scope start before c).context.child p.keyText .null,
        some (.path (text whole) p.keyText (reach scope start before c).context.value.type)⟩ := by
  rw [follow_append whole h, follow, Part.step?_eq_none_iff.mpr hmissed]

/-- If not all members of a path are there, one is the first that is missed. -/
theorem exists_missed {p : Path} (h : ¬ AllThere scope start p c) :
    ∃ before part after, p = before ++ part :: after ∧ AllThere scope start before c ∧
      ¬ part.IsThere scope (start.after before) (reach scope start before c).context := by
  induction p generalizing start c with
  | nil => exact absurd allThere_nil h
  | cons first rest ih =>
    cases hstep : first.step? scope start c with
    | none => exact ⟨[], first, rest, rfl, allThere_nil, Part.step?_eq_none_iff.mp hstep⟩
    | some next =>
      have hrest : ¬ AllThere scope .member rest next :=
        fun hrest => h (allThere_cons_iff.mpr ⟨next, hstep, hrest⟩)
      obtain ⟨before, part, after, rfl, hbefore, hmissed⟩ := ih hrest
      refine ⟨first :: before, part, after, rfl, allThere_cons_iff.mpr ⟨next, hstep, hbefore⟩, ?_⟩
      rw [context_reach_cons hstep]
      cases before <;> exact hmissed

end Path

/-! ## What is recorded -/

namespace EvalM

theorem outcome_reach (scope : Scope) (start : PathStart) (parts : Path) (c : Context)
    (s : RunState) :
    outcome (reach scope start parts c) s =
      (.ok (Path.reach scope start parts c).context,
        { s with
          events :=
            (Path.reach scope start parts c).missing.toList.map .unresolved ++ s.events }) := by
  unfold reach
  cases hmissing : (Path.reach scope start parts c).missing with
  | none =>
    simp only [hmissing]
    rfl
  | some u =>
    simp only [hmissing]
    rfl

/-- Following a path from a context, in any scope and state. If all its members are there, it leads
to a context, nothing is recorded, and what comes after the path, looked up as members only, leads
where it leads from that context. Otherwise one part is the first that is missed. It asks for a
member, and the path leads to null as this member of the context that the parts before it lead to,
whatever comes after. One miss is recorded: the whole path, the key, and the type of the value in
which it was missed. -/
theorem reach_composes (scope : Scope) (start : PathStart) (p : Path) (c : Context) (s : RunState) :
    (p.AllThere scope start c → ∃ d, outcome (reach scope start p c) s = (.ok d, s) ∧
      (p ≠ [] → ∀ q, (outcome (reach scope start (p ++ q) c) s).1 =
        (outcome (reach scope .member q d) s).1)) ∧
    (∀ before part after d, p = before ++ part :: after → before.AllThere scope start c →
      outcome (reach scope start before c) s = (.ok d, s) →
      ¬ part.IsThere scope (start.after before) d →
      part.kind = .member ∧ outcome (reach scope start p c) s =
        (.ok (d.child part.keyText .null), { s with
          events := .unresolved (.path p.text part.keyText d.value.type) :: s.events })) ∧
    (¬ p.AllThere scope start c → ∃ before part after d, p = before ++ part :: after ∧
      before.AllThere scope start c ∧ outcome (reach scope start before c) s = (.ok d, s) ∧
      ¬ part.IsThere scope (start.after before) d) := by
  have hwithout {p : Path} (h : p.AllThere scope start c) :
      outcome (reach scope start p c) s = (.ok (Path.reach scope start p c).context, s) := by
    rw [outcome_reach, Path.reach_of_allThere h]
    rfl
  refine ⟨fun h => ⟨_, hwithout h, fun hp q => ?_⟩, ?_, fun h => ?_⟩
  · have hstart : start.after p = .member := by
      cases p with
      | nil => exact absurd rfl hp
      | cons => rfl
    rw [outcome_reach, outcome_reach]
    unfold Path.reach
    rw [Path.follow_append _ h, hstart, Path.context_follow _ q]
    rfl
  · rintro before part after d rfl hbefore hd hmissed
    obtain rfl : (Path.reach scope start before c).context = d :=
      Except.ok.inj (Prod.mk.inj ((hwithout hbefore).symm.trans hd)).1
    refine ⟨Part.kind_of_not_isThere hmissed, ?_⟩
    have hreach := Path.follow_missed (before ++ part :: after) hbefore hmissed after
    rw [outcome_reach]
    unfold Path.reach
    rw [hreach]
    rfl
  · obtain ⟨before, part, after, hp, hbefore, hmissed⟩ := Path.exists_missed h
    exact ⟨before, part, after, _, hp, hbefore, hwithout hbefore, hmissed⟩

end EvalM

end Stencil
