import Stencil.Proofs.Bodies
import Stencil.Proofs.BuiltinsRespect
import Stencil.Proofs.Likewise
import Stencil.Proofs.Retracing
import Stencil.Proofs.RoundTrip

/-!
# Trees that are the same mean the same

Trees that were read without problems and are the same are the same plain tree. Their code is the
same then. Walking them gives the same but for lambdas: the body of a lambda is part of the tree,
and so it differs in what is left out of plain trees. Under options that respect this (`plainly`)
nobody can tell.

Trees are the same plain tree if they are the same at the same sites (`Expr.moved_iff_plain`), so
walking them is compared as evaluations of moved code and trees are (`Expr.evaluate_plainly`).

Main statement: `meansSame_of_same`.
-/

namespace Stencil

/-! ## Bodies that are the same plain tree -/

/-- The body with what evaluation does not use left out of it. -/
def LambdaBody.plain : LambdaBody → LambdaBody
  | .tree e => .tree e.plain
  | .code compiled => .code compiled

/-- The context with all trees in lambdas replaced by plain ones. -/
def Context.plain (c : Context) : Context :=
  c.mapBodies LambdaBody.plain

def Event.plain : Event → Event
  | .unresolved u => .unresolved u
  | .invoked s v arguments =>
    .invoked s (v.mapBodies LambdaBody.plain) (Value.mapAllBodies LambdaBody.plain arguments)
  | .rooted c => .rooted c.plain

/-- Values are alike that are the same but for what evaluation does not use of the trees in them. -/
abbrev plainly : Likeness :=
  .ofBodies LambdaBody.plain

open Likeness

theorem Likeness.AlikeEvent.plain_eq {e e' : Event} (h : plainly.AlikeEvent e e') :
    e.plain = e'.plain := by
  cases h with
  | unresolved u => rfl
  | invoked s hv has =>
    have hvalue : Value.mapBodies _ _ = Value.mapBodies _ _ := hv
    simp only [Event.plain, hvalue, allBodies_iff.mp has]
  | rooted hc => exact congrArg Event.rooted hc

theorem Likeness.AlikeScope.plainly_self {scope : Scope} (h : scope.options.Respects plainly) :
    plainly.AlikeScope scope scope :=
  have hframe : ∀ f : Frame, List.Forall₂ plainly.AlikeMember f f := fun _ =>
    List.forall₂_same.mpr fun _ _ => ⟨rfl, rfl⟩
  ⟨rfl, h, hframe scope.frame, List.forall₂_same.mpr fun f _ => hframe f, rfl⟩

/-! ## Plain trees and code at the same sites -/

mutual

/-- Trees are the same plain tree if they are the same at the same sites. -/
theorem Expr.moved_iff_plain : ∀ {t u : Expr}, t.Moved Eq u ↔ t.plain = u.plain
  | .path _ _, _ => by
    constructor <;> intro h
    · cases h
      rfl
    · cases Expr.plain_view h
      exact .path _
  | .call _ _ _ _ args, _ => by
    constructor <;> intro h
    · cases h with
      | call hsite _ _ hargs =>
        rw [Expr.plain, Expr.plain, hsite, Argument.moved_iff_plain.mp hargs]
    · cases Expr.plain_view h with
      | call hargs => exact .call rfl _ _ (Argument.moved_iff_plain.mpr hargs)
  | .string _ _ _, _ => by
    constructor <;> intro h
    · cases h with
      | string _ hvalue => rw [Expr.plain, Expr.plain, String.ofList_injective hvalue]
    · cases Expr.plain_view h with
      | string hvalue => exact .string _ hvalue
  | .number _ _ _, _ => by
    constructor <;> intro h
    · cases h
      rfl
    · cases Expr.plain_view h
      exact .number _ _
  | .list _ _ items, _ => by
    constructor <;> intro h
    · cases h with
      | list _ hitems => rw [Expr.plain, Expr.plain, Expr.allMoved_iff_plain.mp hitems]
    · cases Expr.plain_view h with
      | list hitems => exact .list _ (Expr.allMoved_iff_plain.mpr hitems)
  | .unary _ _ _ operand, _ => by
    constructor <;> intro h
    · cases h with
      | unary hsite _ hx => rw [Expr.plain, Expr.plain, hsite, Expr.moved_iff_plain.mp hx]
    · cases Expr.plain_view h with
      | unary hx => exact .unary rfl _ (Expr.moved_iff_plain.mpr hx)
  | .binary _ _ _ left right, _ => by
    constructor <;> intro h
    · cases h with
      | binary hsite _ hl hr =>
        rw [Expr.plain, Expr.plain, hsite, Expr.moved_iff_plain.mp hl, Expr.moved_iff_plain.mp hr]
    · cases Expr.plain_view h with
      | binary hl hr =>
        exact .binary rfl _ (Expr.moved_iff_plain.mpr hl) (Expr.moved_iff_plain.mpr hr)
  | .lambda _ parameters body, _ => by
    constructor <;> intro h
    · cases h with
      | lambda hp hb => rw [Expr.plain, Expr.plain, hp, Expr.moved_iff_plain.mp hb]
    · cases Expr.plain_view h with
      | lambda hp hb => exact .lambda hp (Expr.moved_iff_plain.mpr hb)

theorem Expr.allMoved_iff_plain : ∀ {l k : List Expr},
    List.Forall₂ (Expr.Moved Eq) l k ↔ Expr.plainAll l = Expr.plainAll k
  | [], [] => by simp
  | [], _ :: _ | _ :: _, [] => by simp [Expr.plainAll]
  | x :: xs, y :: ys => by
    simp only [List.forall₂_cons, Expr.plainAll, List.cons.injEq, Expr.moved_iff_plain (t := x),
      Expr.allMoved_iff_plain (l := xs)]

theorem Argument.moved_iff_plain : ∀ {l k : List Argument},
    List.Forall₂ (Argument.Moved Eq) l k ↔ Argument.plainAll l = Argument.plainAll k
  | [], [] => by simp
  | [], ⟨_, _, _⟩ :: _ | ⟨_, _, _⟩ :: _, [] => by simp [Argument.plainAll]
  | ⟨name, _, x⟩ :: as, ⟨name', _, y⟩ :: bs => by
    rw [List.forall₂_cons, Argument.plainAll, Argument.plainAll, List.cons.injEq,
      Argument.moved_iff_plain (l := as), Argument.mk.injEq, ← Expr.moved_iff_plain (t := x)]
    refine and_congr_left' ⟨fun h => ?_, ?_⟩
    · cases h with
      | mk _ h => exact ⟨rfl, rfl, h⟩
    · rintro ⟨rfl, -, h⟩
      exact .mk name h

end

mutual

theorem Code.moved_self : ∀ code : Code, code.Moved Eq code
  | .constant value => .constant value
  | .stay => .stay
  | .resolve start parts => .resolve start parts
  | .group inner => .group inner.moved_self
  | .call _ start parts name args => .call rfl start parts name (CodeArgument.allMoved_self args)
  | .chain links => .chain (Code.allMoved_self links)
  | .sequence items => .sequence (Code.allMoved_self items)
  | .collect items => .collect (Code.allMoved_self items)
  | .unary _ op operand => .unary rfl op operand.moved_self
  | .binary _ op left right => .binary rfl op left.moved_self right.moved_self
  | .lambda parameters body => .lambda parameters body.moved_self

theorem Code.allMoved_self : ∀ items : List Code, List.Forall₂ (Code.Moved Eq) items items
  | [] => .nil
  | item :: rest => .cons item.moved_self (Code.allMoved_self rest)

theorem CodeArgument.allMoved_self : ∀ args : List CodeArgument,
    List.Forall₂ (CodeArgument.Moved Eq) args args
  | [] => .nil
  | .constant name value :: rest => .cons (.constant name value) (CodeArgument.allMoved_self rest)
  | .computed name code :: rest =>
    .cons (.computed name code.moved_self) (CodeArgument.allMoved_self rest)

end

mutual

/-- Code that is the same at the same sites is the same. -/
theorem Code.eq_of_moved : ∀ {c d : Code}, c.Moved Eq d → c = d
  | .constant _, _, h | .stay, _, h | .resolve _ _, _, h => by
    cases h
    rfl
  | .group _, _, h => by
    cases h with
    | group h => rw [Code.eq_of_moved h]
  | .call _ _ _ _ _, _, h => by
    cases h with
    | call hsite _ _ _ hargs => rw [hsite, CodeArgument.eq_of_moved hargs]
  | .chain _, _, h => by
    cases h with
    | chain h => rw [Code.eq_of_allMoved h]
  | .sequence _, _, h => by
    cases h with
    | sequence h => rw [Code.eq_of_allMoved h]
  | .collect _, _, h => by
    cases h with
    | collect h => rw [Code.eq_of_allMoved h]
  | .unary _ _ _, _, h => by
    cases h with
    | unary hsite _ h => rw [hsite, Code.eq_of_moved h]
  | .binary _ _ _ _, _, h => by
    cases h with
    | binary hsite _ hl hr => rw [hsite, Code.eq_of_moved hl, Code.eq_of_moved hr]
  | .lambda _ _, _, h => by
    cases h with
    | lambda _ h => rw [Code.eq_of_moved h]

theorem Code.eq_of_allMoved : ∀ {xs ys : List Code}, List.Forall₂ (Code.Moved Eq) xs ys → xs = ys
  | [], _, .nil => rfl
  | _ :: _, _, .cons h hrest => congrArg₂ List.cons (Code.eq_of_moved h) (Code.eq_of_allMoved hrest)

theorem CodeArgument.eq_of_moved : ∀ {as bs : List CodeArgument},
    List.Forall₂ (CodeArgument.Moved Eq) as bs → as = bs
  | [], _, .nil => rfl
  | .constant _ _ :: _, _, .cons h hrest => by
    cases h
    rw [CodeArgument.eq_of_moved hrest]
  | .computed _ _ :: _, _, .cons h hrest => by
    cases h with
    | computed _ h => rw [Code.eq_of_moved h, CodeArgument.eq_of_moved hrest]

end

theorem LambdaBody.moved_iff_plain {b b' : LambdaBody} : b.plain = b'.plain ↔ b.Moved Eq b' := by
  constructor
  · intro h
    cases b with
    | tree e =>
      cases b' with
      | tree e' => exact .tree (Expr.moved_iff_plain.mpr (LambdaBody.tree.inj h))
      | code _ => cases h
    | code c =>
      cases b' with
      | tree _ => cases h
      | code c' =>
        obtain rfl := LambdaBody.code.inj h
        exact .code c.moved_self
  · intro h
    cases h with
    | tree h => exact congrArg LambdaBody.tree (Expr.moved_iff_plain.mp h)
    | code h => exact congrArg LambdaBody.code (Code.eq_of_moved h)

/-! ## Evaluation -/

/-- Evaluations that do alike remember the same at the same sites. -/
theorem carries_plainly {o : Options} (ho : o.Respects plainly) :
    plainly.Carries Eq o plainly.AlikeState where
  toKeeps := keeps_alikeState fun _ => rfl
  rooted h := Likewise.record (.rooted h)
  lambdas := by
    intro l k
    rw [lambdaBodies_iff, LambdaBody.moved_iff_plain]
    exact Iff.rfl
  resolveAt := by
    rintro site _ rfl name v w hv as bs has
    exact Likewise.resolveAt ho.registry site o.matching name hv has

/-- Evaluating trees that are the same plain tree does alike. -/
theorem Expr.evaluate_plainly {t u : Expr} (h : t.plain = u.plain) {scope : Scope}
    (hscope : scope.options.Respects plainly) (c : Context) :
    plainly.Likewise plainly.AlikeContext (t.evaluate scope c) (u.evaluate scope c) :=
  have hcarries := carries_plainly hscope
  hcarries.guarded (hcarries.walkFrom (hcarries.invokeWithin scope.levels)
    ⟨.plainly_self hscope, rfl⟩ (Expr.moved_iff_plain.mpr h) .scope rfl)

/-! ## Meaning the same -/

/-- Nobody can tell the trees apart who evaluates them, asks for the literal that they are, or puts
them into a table. -/
structure Expr.MeansSame (t u : Expr) : Prop where
  literal : t.literal? = u.literal?
  digest : t.digest = u.digest
  /-- Walking them, with nothing remembered, comes to the same. The bodies of lambdas in results and
  events are pieces of the trees. -/
  walked : ∀ (scope : Scope) (c : Context) (cancelled : Bool) (nextLambda : Nat),
    scope.options.Respects plainly →
      let s : RunState := { RunState.fresh with cancelled, nextLambda }
      let x := (t.evaluate scope c).outcome s
      let y := (u.evaluate scope c).outcome s
      x.1.map Context.plain = y.1.map Context.plain ∧ x.2.unresolved = y.2.unresolved ∧
        x.2.events.map Event.plain = y.2.events.map Event.plain ∧ x.2.cancelled = y.2.cancelled
  /-- Running their code comes to the same, with the choices made in advance when it is made. -/
  ran : ∀ (early : Options) (scope : Scope) (c : Context) (s : RunState),
    (do EvalM.prepare early t.code; t.code.evaluate scope c).outcome s =
      (do EvalM.prepare early u.code; u.code.evaluate scope c).outcome s

/-- Trees that are the same plain tree mean the same. -/
theorem Expr.MeansSame.of_plain {t u : Expr} (hdigest : t.digest = u.digest)
    (h : t.plain = u.plain) : t.MeansSame u where
  literal := by rw [← t.literal?_plain, h, u.literal?_plain]
  digest := hdigest
  walked := by
    intro scope c cancelled nextLambda hscope s x y
    have hfresh : plainly.AlikeState s s := ⟨rfl, by rintro _ _ ⟨⟩, rfl, .nil, rfl⟩
    obtain ⟨hresult, hstate⟩ := Expr.evaluate_plainly h hscope c s s hfresh
    refine ⟨?_, hstate.unresolved, ?_, hstate.cancelled⟩
    · show x.1.map _ = y.1.map _
      generalize x.1 = r at hresult
      generalize y.1 = r' at hresult
      cases hresult with
      | ok hcontexts => exact congrArg Except.ok hcontexts
      | error e => rfl
    · show x.2.events.map _ = y.2.events.map _
      have hevents := hstate.events
      generalize x.2.events = es at hevents
      generalize y.2.events = es' at hevents
      induction hevents with
      | nil => rfl
      | cons he _ ih => rw [List.map_cons, List.map_cons, he.plain_eq, ih]
  ran := by
    intro early scope c s
    rw [← t.code_plain, h, u.code_plain]

/-- Trees that were read without problems mean the same if they are the same; so does what is read
from the canonical text of a tree. -/
theorem meansSame_of_same :
    (∀ {text text' : List Char} {place place' : Placement} {t u : Expr},
      parseAt text place = ⟨some t, []⟩ → parseAt text' place' = ⟨some u, []⟩ →
        t.same u = true → t.MeansSame u) ∧
      ∀ {text : String} {t : Expr}, parse text = ⟨some t, []⟩ →
        ∃ u, canonicalForm text = .ok t.canonical ∧ parse t.canonical = ⟨some u, []⟩ ∧
          t.MeansSame u := by
  have hsame : ∀ {text text' : List Char} {place place' : Placement} {t u : Expr},
      parseAt text place = ⟨some t, []⟩ → parseAt text' place' = ⟨some u, []⟩ →
        t.same u = true → t.MeansSame u := fun ht hu h =>
    .of_plain (Expr.digest_of_same h) (plain_eq_of_same ht hu h)
  refine ⟨hsame, fun {text t} h => ?_⟩
  obtain ⟨u, hparse, hbare⟩ := exists_parse_canonical h
  exact ⟨u, canonicalForm_of_parse h, hparse, hsame h hparse (Expr.same_of_bare hbare.symm)⟩

/-- Blanks, and whether a backslash is escaped, make no difference to a lambda. -/
theorem meansSame_of_same_escaped :
    ∃ t u, parse "xs.Select(x => 'a\\b')" = ⟨some t, []⟩ ∧
      parse " xs.Select( x=>'a\\\\b' )" = ⟨some u, []⟩ ∧ t.same u = true ∧ t.MeansSame u ∧
      (∃ v, parse t.canonical = ⟨some v, []⟩ ∧ t.MeansSame v) ∧
      ∀ c, ((t.evaluate (.ofOptions .standard) c).outcome .fresh).1.map Context.plain =
        ((u.evaluate (.ofOptions .standard) c).outcome .fresh).1.map Context.plain := by
  obtain ⟨t, ht, htexpr⟩ := Parsed.exists_of_isValid (p := parse "xs.Select(x => 'a\\b')")
    (by decide +kernel)
  obtain ⟨u, hu, huexpr⟩ := Parsed.exists_of_isValid (p := parse " xs.Select( x=>'a\\\\b' )")
    (by decide +kernel)
  have hsame : t.same u = true := by
    have hboth : (parse "xs.Select(x => 'a\\b')").expr.bind (fun t =>
        (parse " xs.Select( x=>'a\\\\b' )").expr.map t.same) = some true := by decide +kernel
    rw [htexpr, huexpr] at hboth
    exact Option.some.inj hboth
  have hmeans := meansSame_of_same.1 ht hu hsame
  obtain ⟨v, -, hv, hcanonical⟩ := meansSame_of_same.2 ht
  refine ⟨t, u, ht, hu, hsame, hmeans, ⟨v, hv, hcanonical⟩, fun c => ?_⟩
  exact (hmeans.walked (.ofOptions .standard) c false 0 (Options.ofConfig_respects {})).1

end Stencil
