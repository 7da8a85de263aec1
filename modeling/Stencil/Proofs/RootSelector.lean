import Stencil.Proofs.BuiltinsRespect
import Stencil.Proofs.RootEvents
import Stencil.Proofs.Selectors

/-!
# The root selector

`~` leads to the outermost context. Arguments, operands, the items of groups and lambda bodies
are evaluated on contexts with the same outermost context as the expression around them. Only a
chain can lose it: a value that was computed at the top stands in the place of the top, and when a
later link of the chain has arguments, these take it for the outermost context.

`Context.UnderRoot` is what stays (`Expr.CanGive.underRoot`), and so it is known of each part of an
expression where its root selectors lead (`Expr.rootsIn_atRoot`). If each chain whose later links
have arguments begins with a call on something below the top (`Expr.KeepsRoot`), the outermost
context itself stays (`Expr.rootsIn_root`).

Main statement: `root_selector`. Every root selector that an evaluation comes to, of a tree or of
its code, leads to the outermost context, or else to a computed value in its place; and always to
the outermost context if no chain loses it.
-/

namespace Stencil

theorem eq_root_of_step {p : Part} (hkind : p.kind = .root) {scope : Scope} {start : PathStart}
    {c d : Context} (hstep : p.step? scope start c = some d) : d = c.root := by
  simp only [Part.step?, hkind, Option.some.injEq] at hstep
  exact hstep.symm

/-! ## Computed values at the top -/

/-- The context is `r`, or a computed value that is taken for it. -/
def Context.AtRoot (r x : Context) : Prop :=
  x = r ∨ x.isNatural = false ∧ x.parent = none

/-- The outermost context is `r`, or else a computed value. -/
def Context.UnderRoot (r c : Context) : Prop :=
  c.root = r ∨ c.root.isNatural = false

namespace Context.UnderRoot

variable {r c d : Context}

theorem of_root (h : r.UnderRoot c) (hroot : d.root = c.root) : r.UnderRoot d := by
  unfold UnderRoot
  rw [hroot]
  exact h

theorem nearestNatural (h : r.UnderRoot c) : r.UnderRoot c.nearestNatural :=
  h.of_root (root_nearestNatural c)

theorem atRoot (h : r.UnderRoot c) : r.AtRoot c.root :=
  h.imp_right fun hcomputed => ⟨hcomputed, parent_root c⟩

theorem synthetic (h : r.UnderRoot c) (v : Value) : r.UnderRoot (c.synthetic v) := by
  cases hparent : c.parent with
  | none => exact .inr (congrArg isNatural (root_eq_self (c := c.synthetic v) hparent))
  | some p => exact h.of_root (root_synthetic v (by simp [hparent]))

theorem step (h : r.UnderRoot c) {scope : Scope} {start : PathStart} {p : Part}
    (hstep : p.step? scope start c = some d) : r.UnderRoot d := by
  unfold Part.step? at hstep
  cases hkind : p.kind <;> simp only [hkind] at hstep
  case member =>
    obtain ⟨v, -, rfl⟩ := Option.map_eq_some_iff.mp hstep
    exact h.of_root rfl
  all_goals obtain rfl := Option.some.inj hstep
  case root => exact h.of_root (root_root c)
  case parent => exact h.of_root (root_enclosing c)
  case self => exact h
  case entries => exact h.of_root rfl
  case number | boolean | null => exact h.synthetic _

theorem follow (h : r.UnderRoot c) (whole : Path) (scope : Scope) (start : PathStart)
    (parts : Path) : r.UnderRoot (Path.follow whole scope start parts c).context := by
  induction parts generalizing start c with
  | nil => exact h
  | cons p rest ih =>
    unfold Path.follow
    split
    · next hstep => exact ih (h.step hstep) .member
    · exact h.of_root rfl

/-- Each root selector of a path leads to the outermost context of where it stands. -/
theorem pathRootsIn (h : r.UnderRoot c) (start : PathStart) (parts : Path) :
    Path.RootsIn r.AtRoot start parts c := by
  induction parts generalizing start c with
  | nil => exact Path.rootsIn_nil start c
  | cons p rest ih =>
    refine Path.rootsIn_cons fun scope d hstep => ⟨fun hkind => ?_, ih (h.step hstep) .member⟩
    exact eq_root_of_step hkind hstep ▸ h.atRoot

end Context.UnderRoot

section

variable {scope : Scope} {r : Context}

mutual

/-- What an expression can come to is under the root if the expression is evaluated under it. -/
theorem Expr.CanGive.underRoot : ∀ {start : PathStart} {e : Expr} {c result : Context},
    e.CanGive scope start c result → r.UnderRoot c → r.UnderRoot result
  | start, .path _ parts, _, _, .path, h => h.follow parts scope start parts
  | start, .call _ _ parts _ _, _, _, .call _ v, h =>
    (h.follow parts scope start parts).synthetic v
  | _, _, _, _, .group _ _ hgive, h => hgive.underRoot h.nearestNatural
  | _, _, _, _, .string, h | _, _, _, _, .number, h | _, _, _, _, .nothing, h => h.synthetic _
  | _, _, _, _, .array v, h | _, _, _, _, .lambda v, h => h.synthetic v
  | _, _, _, _, .chain hgive, h => hgive.underRoot h
  | _, _, _, _, .last _ hgive, h => hgive.underRoot h
  | _, _, _, _, .unary hgive v, h | _, _, _, _, .binary hgive v, h =>
    (hgive.underRoot h).synthetic v

theorem Expr.LinksCanGive.underRoot : ∀ {start : PathStart} {items : List Expr}
    {c result : Context}, Expr.LinksCanGive scope start items c result → r.UnderRoot c →
      r.UnderRoot result
  | _, _, _, _, .nil, h => h
  | _, _, _, _, .cons hgive hrest, h => hrest.underRoot (hgive.underRoot h)

end

end

mutual

/-- By induction over the tree: all parts are evaluated under the root. -/
theorem Expr.rootsIn_atRoot {r : Context} : ∀ (e : Expr) (start : PathStart) {c : Context},
    r.UnderRoot c → e.RootsIn r.AtRoot start c
  | .path _ parts, start, _, h => h.pathRootsIn start parts
  | .call _ _ parts _ args, start, _, h =>
    ⟨fun _ => h.pathRootsIn start parts, Argument.allRootsIn_atRoot args h.nearestNatural⟩
  | .string _ _ _, _, _, _ | .number _ _ _, _, _, _ => trivial
  | .list _ .chain items, _, _, h => Expr.linksRootsIn_atRoot items .scope h
  | .list _ .bracket items, _, _, h | .list _ .arguments items, _, _, h =>
    Expr.allRootsIn_atRoot items h
  | .unary _ _ _ operand, _, _, h => operand.rootsIn_atRoot .scope h
  | .binary _ _ _ left right, _, _, h =>
    ⟨left.rootsIn_atRoot .scope h, right.rootsIn_atRoot .scope h⟩
  | .lambda _ _ body, _, _, h => body.rootsIn_atRoot .scope h.nearestNatural

theorem Expr.linksRootsIn_atRoot {r : Context} : ∀ (items : List Expr) (start : PathStart)
    {c : Context}, r.UnderRoot c → Expr.LinksRootsIn r.AtRoot start items c
  | [], _, _, _ => trivial
  | e :: rest, start, _, h => ⟨e.rootsIn_atRoot start h, fun _ _ hgive =>
    Expr.linksRootsIn_atRoot rest .member (hgive.underRoot h)⟩

theorem Expr.allRootsIn_atRoot {r : Context} : ∀ (items : List Expr) {c : Context},
    r.UnderRoot c → Expr.AllRootsIn r.AtRoot items c
  | [], _, _ => trivial
  | e :: rest, _, h => ⟨e.rootsIn_atRoot .scope h, Expr.allRootsIn_atRoot rest h⟩

theorem Argument.allRootsIn_atRoot {r : Context} : ∀ (args : List Argument) {c : Context},
    r.UnderRoot c → Argument.AllRootsIn r.AtRoot args c
  | [], _, _ => trivial
  | ⟨_, _, e⟩ :: rest, _, h => ⟨e.rootsIn_atRoot .scope h, Argument.allRootsIn_atRoot rest h⟩

end

/-! ## Chains that do not lose the root -/

/-- A path that goes down in the end and computes nothing on the way. -/
def Path.goesDown (parts : Path) : Bool :=
  parts.getLast?.any Part.leadsInto &&
    parts.all fun p => p.kind != .number && p.kind != .boolean && p.kind != .null

/-- A call on something that is not at the top, wherever the call starts. -/
def Expr.callsDown : Expr → Bool
  | .call _ _ parts name args => !isBracketCall name args && parts.goesDown
  | _ => false

/-- A call on something that is not at the top, if the call does not start there. -/
def Expr.callsAlong : Expr → Bool
  | .call _ _ [] name args => !isBracketCall name args
  | e => e.callsDown

/-- A path, or a call without arguments. -/
def Expr.asksNothing : Expr → Bool
  | .path _ _ => true
  | .call _ _ _ _ args => args.isEmpty
  | _ => false

/-- No later link of a chain has arguments, or the arguments are evaluated below the top. -/
def Expr.KeepsRoot : Expr → Prop
  | .list _ .chain (first :: rest) =>
    (∀ e ∈ rest, e.asksNothing = true) ∨
      first.callsDown = true ∧ ∀ e ∈ rest.dropLast, e.callsAlong = true
  | _ => True

section

variable {scope : Scope} {r c : Context}

theorem root_step {p : Part}
    (hp : (p.kind != .number && p.kind != .boolean && p.kind != .null) = true)
    {start : PathStart} {d : Context} (hstep : p.step? scope start c = some d) :
    d.root = c.root := by
  unfold Part.step? at hstep
  cases hkind : p.kind <;> simp only [hkind] at hstep hp
  case member =>
    obtain ⟨v, -, rfl⟩ := Option.map_eq_some_iff.mp hstep
    rfl
  case root =>
    obtain rfl := Option.some.inj hstep
    exact Context.root_root c
  case parent =>
    obtain rfl := Option.some.inj hstep
    exact Context.root_enclosing c
  case self | entries =>
    obtain rfl := Option.some.inj hstep
    rfl
  all_goals cases hp

theorem parent_step {p : Part} (hp : p.leadsInto = true) {start : PathStart} {d : Context}
    (hstep : p.step? scope start c = some d) : d.parent ≠ none := by
  unfold Part.step? at hstep
  cases hkind : p.kind <;> simp only [Part.leadsInto, hkind] at hstep hp
  case member =>
    obtain ⟨v, -, rfl⟩ := Option.map_eq_some_iff.mp hstep
    exact Option.some_ne_none c
  case entries =>
    obtain rfl := Option.some.inj hstep
    exact Option.some_ne_none c
  all_goals cases hp

/-- What such a path leads to is not at the top, and has the same root. -/
theorem follow_down (scope : Scope) (whole : Path) {parts : Path} (hparts : parts.goesDown = true)
    (start : PathStart) (c : Context) :
    (Path.follow whole scope start parts c).context.root = c.root ∧
      (Path.follow whole scope start parts c).context.parent ≠ none := by
  induction parts generalizing start c with
  | nil => cases hparts
  | cons p rest ih =>
    simp only [Path.goesDown, List.all_cons, Bool.and_eq_true] at hparts
    obtain ⟨hlast, hp, hrest⟩ := hparts
    unfold Path.follow
    split
    · next d hstep =>
      have hroot := root_step (by simpa using hp) hstep
      cases rest with
      | nil =>
        have hleads : p.leadsInto = true := by simpa using hlast
        exact ⟨hroot, parent_step hleads hstep⟩
      | cons q rest =>
        have hdown : Path.goesDown (q :: rest) = true := by
          simp only [Path.goesDown, Bool.and_eq_true]
          exact ⟨by simpa using hlast, hrest⟩
        obtain ⟨hroot', hparent⟩ := ih hdown .member d
        exact ⟨hroot'.trans hroot, hparent⟩
    -- what is missing is missing in something
    · exact ⟨rfl, Option.some_ne_none c⟩

/-- The context has the root `r`, and is not at the top. -/
structure Context.Below (r c : Context) : Prop where
  root : c.root = r
  parent : c.parent ≠ none

/-- A call on something that is not at the top gives a value in its place. -/
theorem below_of_call {o : Origin} {site : Nat} {parts : Path} {name : String}
    {args : List Argument} (hbracket : isBracketCall name args = false) {start : PathStart}
    (htarget : r.Below (Path.reach scope start parts c).context) {result : Context}
    (h : (Expr.call o site parts name args).CanGive scope start c result) : r.Below result := by
  obtain ⟨v, rfl⟩ := h.exists_synthetic hbracket
  exact ⟨(Context.root_synthetic v htarget.parent).trans htarget.root, htarget.parent⟩

theorem below_of_callsDown {e : Expr} (he : e.callsDown = true) {start : PathStart}
    (hroot : c.root = r) {result : Context} (h : e.CanGive scope start c result) :
    r.Below result := by
  unfold Expr.callsDown at he
  split at he
  · next o site parts name args =>
    simp only [Bool.and_eq_true, Bool.not_eq_true'] at he
    obtain ⟨hsame, hparent⟩ := follow_down scope parts he.2 start c
    exact below_of_call he.1 ⟨hsame.trans hroot, hparent⟩ h
  · cases he

theorem below_of_callsAlong {e : Expr} (he : e.callsAlong = true) (hc : r.Below c)
    {result : Context} (h : e.CanGive scope .member c result) : r.Below result := by
  unfold Expr.callsAlong at he
  split at he
  · exact below_of_call (by simpa using he) hc h
  · exact below_of_callsDown he hc.root h

end

/-! ## Where the root stays -/

theorem Path.rootsIn_of_selectsNoRoot {P : Context → Prop} {parts : Path}
    (h : parts.SelectsNoRoot) (start : PathStart) (c : Context) :
    Path.RootsIn P start parts c := by
  induction parts generalizing start c with
  | nil => exact Path.rootsIn_nil start c
  | cons p rest ih =>
    obtain ⟨hp, hrest⟩ := List.forall_mem_cons.mp h
    exact Path.rootsIn_cons fun _ d _ => ⟨fun hkind => absurd hkind hp, ih hrest .member d⟩

theorem Path.rootsIn_of_selectsFirst {r : Context} {parts : Path} (h : parts.SelectsFirst)
    (start : PathStart) {c : Context} (hroot : c.root = r) :
    Path.RootsIn (· = r) start parts c := by
  cases parts with
  | nil => exact Path.rootsIn_nil start c
  | cons p rest =>
    exact Path.rootsIn_cons fun _ d hstep =>
      ⟨fun hkind => (eq_root_of_step hkind hstep).trans hroot,
        Path.rootsIn_of_selectsNoRoot h .member d⟩

/-- The links are evaluated on something with the root `r`, or ask for nothing there. -/
def LinksHold (r : Context) (links : List Expr) (c : Context) : Prop :=
  (∀ e ∈ links, e.asksNothing = true) ∨ r.Below c ∧ ∀ e ∈ links.dropLast, e.callsAlong = true

theorem LinksHold.tail {r c next : Context} {e : Expr} {rest : List Expr}
    (h : LinksHold r (e :: rest) c) {scope : Scope} (hgive : e.CanGive scope .member c next) :
    LinksHold r rest next := by
  rcases h with hnothing | ⟨hbelow, halong⟩
  · exact .inl fun f hf => hnothing f (List.mem_cons_of_mem e hf)
  · cases rest with
    | nil => exact .inl (by rintro _ ⟨⟩)
    | cons f rest =>
      rw [List.dropLast_cons_cons, List.forall_mem_cons] at halong
      exact .inr ⟨below_of_callsAlong halong.1 hbelow hgive, halong.2⟩

mutual

/-- By induction over the tree: if it holds the root, all its root selectors lead there. -/
theorem Expr.rootsIn_root {r : Context} : ∀ (e : Expr) (start : PathStart) {c : Context},
    e.everyNode (fun role e => role = .free → e.Selects) .free →
      e.everyNode (fun _ e => e.KeepsRoot) .free → c.root = r → e.RootsIn (· = r) start c
  | .path _ _, start, _, hselects, _, hroot =>
    Path.rootsIn_of_selectsFirst (hselects rfl) start hroot
  | .call _ _ _ _ args, start, c, hselects, hkeeps, hroot =>
    ⟨fun _ => Path.rootsIn_of_selectsFirst (hselects.1 rfl) start hroot,
      Argument.allRootsIn_root args hselects.2 hkeeps.2
        ((Context.root_nearestNatural c).trans hroot)⟩
  | .string _ _ _, _, _, _, _, _ | .number _ _ _, _, _, _, _, _ => trivial
  | .list _ .chain [], _, _, _, _, _ => trivial
  | .list _ .chain (first :: rest), _, c, ⟨hlinks, hselects⟩, ⟨hkeep, hkeeps⟩, hroot => by
    refine ⟨first.rootsIn_root .scope hselects.1 hkeeps.1 hroot, fun scope next hgive => ?_⟩
    refine Expr.laterRootsIn_root rest hselects.2 hkeeps.2 (hlinks rfl) ?_
    exact hkeep.imp_right fun ⟨hfirst, hrest⟩ => ⟨below_of_callsDown hfirst hroot hgive, hrest⟩
  | .list _ .bracket items, _, _, hselects, hkeeps, hroot
  | .list _ .arguments items, _, _, hselects, hkeeps, hroot =>
    Expr.allRootsIn_root items hselects.2 hkeeps.2 hroot
  | .unary _ _ _ operand, _, _, hselects, hkeeps, hroot =>
    operand.rootsIn_root .scope hselects.2 hkeeps.2 hroot
  | .binary _ _ _ left right, _, _, hselects, hkeeps, hroot =>
    ⟨left.rootsIn_root .scope hselects.2.1 hkeeps.2.1 hroot,
      right.rootsIn_root .scope hselects.2.2 hkeeps.2.2 hroot⟩
  | .lambda _ _ body, _, c, hselects, hkeeps, hroot =>
    body.rootsIn_root .scope hselects.2.2 hkeeps.2.2 ((Context.root_nearestNatural c).trans hroot)

/-- Later links have no root selector of their own, only their arguments have. -/
theorem Expr.laterRootsIn_root {r : Context} : ∀ (links : List Expr) {c : Context},
    Expr.everyItem (fun role e => role = .free → e.Selects) .laterLink links →
      Expr.everyItem (fun _ e => e.KeepsRoot) .laterLink links →
        (∀ e ∈ links, e.SelectsAsLink) → LinksHold r links c →
          Expr.LinksRootsIn (· = r) .member links c
  | [], _, _, _, _, _ => trivial
  | .path _ _ :: rest, c, hselects, hkeeps, hlinks, hhold => by
    obtain ⟨hlink, hlinks⟩ := List.forall_mem_cons.mp hlinks
    exact ⟨Path.rootsIn_of_selectsNoRoot hlink.2 .member c, fun _ _ hgive =>
      Expr.laterRootsIn_root rest hselects.2 hkeeps.2 hlinks (hhold.tail hgive)⟩
  | .call _ _ _ _ args :: rest, c, hselects, hkeeps, hlinks, hhold => by
    obtain ⟨hlink, hlinks⟩ := List.forall_mem_cons.mp hlinks
    have hargs : Argument.AllRootsIn (· = r) args c.nearestNatural := by
      rcases hhold with hnothing | ⟨hbelow, -⟩
      · have hempty : args.isEmpty = true := hnothing _ List.mem_cons_self
        rw [List.isEmpty_iff.mp hempty]
        trivial
      · exact Argument.allRootsIn_root args hselects.1.2 hkeeps.1.2
          ((Context.root_nearestNatural c).trans hbelow.root)
    exact ⟨⟨fun _ => Path.rootsIn_of_selectsNoRoot hlink.2 .member c, hargs⟩, fun _ _ hgive =>
      Expr.laterRootsIn_root rest hselects.2 hkeeps.2 hlinks (hhold.tail hgive)⟩
  | .string _ _ _ :: _, _, _, _, hlinks, _ | .number _ _ _ :: _, _, _, _, hlinks, _
  | .list _ _ _ :: _, _, _, _, hlinks, _ | .unary _ _ _ _ :: _, _, _, _, hlinks, _
  | .binary _ _ _ _ _ :: _, _, _, _, hlinks, _ | .lambda _ _ _ :: _, _, _, _, hlinks, _ =>
    absurd (hlinks _ List.mem_cons_self).1 Bool.false_ne_true

theorem Expr.allRootsIn_root {r : Context} : ∀ (items : List Expr) {c : Context},
    Expr.everyItem (fun role e => role = .free → e.Selects) .free items →
      Expr.everyItem (fun _ e => e.KeepsRoot) .free items → c.root = r →
        Expr.AllRootsIn (· = r) items c
  | [], _, _, _, _ => trivial
  | e :: rest, _, hselects, hkeeps, hroot =>
    ⟨e.rootsIn_root .scope hselects.1 hkeeps.1 hroot,
      Expr.allRootsIn_root rest hselects.2 hkeeps.2 hroot⟩

theorem Argument.allRootsIn_root {r : Context} : ∀ (args : List Argument) {c : Context},
    Argument.everyNode (fun role e => role = .free → e.Selects) args →
      Argument.everyNode (fun _ e => e.KeepsRoot) args → c.root = r →
        Argument.AllRootsIn (· = r) args c
  | [], _, _, _, _ => trivial
  | ⟨_, _, e⟩ :: rest, _, hselects, hkeeps, hroot =>
    ⟨e.rootsIn_root .scope hselects.1 hkeeps.1 hroot,
      Argument.allRootsIn_root rest hselects.2 hkeeps.2 hroot⟩

end

/-! ## Evaluations -/

/-- An evaluation begins in the state: it has come to no root selector, and formatters that it may
call do not look into lambdas, whatever its root selectors lead to. -/
structure RunState.Begins (scope : Scope) (early : Options) (s : RunState) : Prop where
  options : ∀ P, scope.options.Respects (rootsIn P)
  early : ∀ P, early.registry.Respects (rootsIn P)
  memories : ∀ P, s.memories.Respect (rootsIn P)
  events : s.events = []

/-- All lambdas in reach of the scope and of the context are made of expressions, in either form,
that have the property where the lambdas were made. -/
def LambdasIn (P : Expr → Context → Prop) (scope : Scope) (c : Context) : Prop :=
  ∀ l : Lambda, scope.Reaches l ∨ c.Reaches l →
    ∃ form : Form, ∃ e : Expr, l.body = form.body e ∧ P e l.captured

/-- Walking a tree and running its code, root selectors lead where `Expr.RootsIn` says. -/
theorem RunState.Begins.roots {P : Context → Prop} {scope : Scope} {early : Options} {s : RunState}
    (hs : s.Begins scope early) {e : Expr} {c : Context} (he : e.RootsIn P .scope c)
    (hlambdas : LambdasIn (Expr.RootsIn P .scope) scope c) :
    (∀ x ∈ ((e.evaluate scope c).outcome s).2.roots, P x) ∧
      ∀ x ∈ ((do
        EvalM.prepare early e.code
        e.code.evaluate scope c).outcome s).2.roots, P x := by
  refine ⟨Expr.roots_evaluate (hs.options P) (hs.memories P) hs.events he hlambdas .tree, ?_⟩
  let prepared : RunState := { s with memories := e.code.prepare early s.memories }
  have hprepared : prepared.memories.Respect (rootsIn P) :=
    Code.prepare_respect (hs.early P) e.code (hs.memories P)
  exact Expr.roots_evaluate (s := prepared) (hs.options P) hprepared hs.events he hlambdas .code

end Stencil
