import Stencil.Proofs.Outcome
import Stencil.Proofs.Respect

/-!
# Scopes

Options and depth of a scope stay when variables are declared.

In scopes and on contexts that are alike, paths lead to contexts that are alike, or end at the same
member that is not there (`AlikeScope.follow`). The options of the scopes have to respect the
likeness, for they say which members values have.
-/

namespace Stencil

/-! ## Options and depth -/

namespace Scope

@[simp] theorem set_options (s : Scope) (name : String) (v : Value) :
    (s.set name v).options = s.options := rfl

@[simp] theorem set_depth (s : Scope) (name : String) (v : Value) :
    (s.set name v).depth = s.depth := rfl

@[simp] theorem bindAll_options (s : Scope) (parameters : List String) (arguments : List Value) :
    (s.bindAll parameters arguments).options = s.options := by
  induction parameters generalizing s arguments with
  | nil => rfl
  | cons name rest ih => cases arguments <;> simp only [bindAll, ih, set_options]

@[simp] theorem bindAll_depth (s : Scope) (parameters : List String) (arguments : List Value) :
    (s.bindAll parameters arguments).depth = s.depth := by
  induction parameters generalizing s arguments with
  | nil => rfl
  | cons name rest ih => cases arguments <;> simp only [bindAll, ih, set_depth]

theorem descend_options {s inner : Scope} (h : s.descend = .ok inner) :
    inner.options = s.options := by
  unfold descend at h
  split at h
  · cases h
    rfl
  · cases h

end Scope

namespace Likeness

variable {L : Likeness}

/-! ## Scopes that are alike -/

/-- Scopes that are alike, with options that respect the likeness. -/
structure AlikeScope (L : Likeness) (s s' : Scope) : Prop where
  options : s.options = s'.options
  respects : s'.options.Respects L
  frame : List.Forall₂ L.AlikeMember s.frame s'.frame
  outer : List.Forall₂ (List.Forall₂ L.AlikeMember) s.outer s'.outer
  depth : s.depth = s'.depth

namespace AlikeScope

variable {s s' : Scope}

theorem get? (h : L.AlikeScope s s') (name : String) :
    Option.Rel L.Alike (s.get? name) (s'.get? name) := by
  have hframes : List.Forall₂ (List.Forall₂ L.AlikeMember) s.frames s'.frames :=
    .cons h.frame h.outer
  unfold Scope.get?
  generalize s.frames = frames at hframes
  generalize s'.frames = frames' at hframes
  induction hframes with
  | nil => exact .none
  | @cons f f' _ _ hframe _ ih =>
    rw [List.findSome?_cons, List.findSome?_cons]
    have hlookup := alike_lookup hframe name
    generalize List.lookup name f = x at hlookup
    generalize List.lookup name f' = x' at hlookup
    cases hlookup with
    | none => exact ih
    | some hv => exact .some hv

theorem set (h : L.AlikeScope s s') (name : String) {v w : Value} (hv : L.Alike v w) :
    L.AlikeScope (s.set name v) (s'.set name w) :=
  { h with frame := alike_set h.frame name hv }

theorem bindAll (h : L.AlikeScope s s') (parameters : List String) {vs ws : List Value}
    (hvs : List.Forall₂ L.Alike vs ws) :
    L.AlikeScope (s.bindAll parameters vs) (s'.bindAll parameters ws) := by
  induction parameters generalizing s s' vs ws with
  | nil => exact h
  | cons name rest ih =>
    cases hvs with
    | nil => exact ih (h.set name alike_null) .nil
    | cons hv hvs => exact ih (h.set name hv) hvs

theorem descend (h : L.AlikeScope s s') : ResultAgree L.AlikeScope s.descend s'.descend := by
  unfold Scope.descend
  rw [h.options, h.depth]
  split
  · exact .ok ⟨h.options, h.respects, .nil, .cons h.frame h.outer, rfl⟩
  · exact .error _

theorem member? (h : L.AlikeScope s s') {v w : Value} (hv : L.Alike v w) (key : String) :
    Option.Rel L.Alike (s.options.member? v key) (s'.options.member? w key) := by
  rw [h.options]
  exact alike_or (h.respects.lookup v w key hv) (hv.get? key)

end AlikeScope

/-- Scopes that are alike and have the given options. -/
structure AlikeUnder (L : Likeness) (o : Options) (s s' : Scope) : Prop where
  alike : L.AlikeScope s s'
  options : s'.options = o

namespace AlikeUnder

variable {o : Options} {s s' : Scope}

theorem bindAll (h : L.AlikeUnder o s s') (parameters : List String) {vs ws : List Value}
    (hvs : List.Forall₂ L.Alike vs ws) :
    L.AlikeUnder o (s.bindAll parameters vs) (s'.bindAll parameters ws) :=
  ⟨h.alike.bindAll parameters hvs, (Scope.bindAll_options _ _ _).trans h.options⟩

/-- A level deeper the scopes are still alike, or neither goes deeper. -/
theorem descend (h : L.AlikeUnder o s s') :
    ResultAgree (L.AlikeUnder o) s.descend s'.descend := by
  have hinner := h.alike.descend
  generalize s.descend = r at hinner
  cases hdescend : s'.descend with
  | ok inner' =>
    rw [hdescend] at hinner
    cases hinner with
    | ok hinner => exact .ok ⟨hinner, (Scope.descend_options hdescend).trans h.options⟩
  | error e =>
    rw [hdescend] at hinner
    cases hinner
    exact .error e

end AlikeUnder

/-! ## Paths -/

theorem alike_entries {members members' : List (String × Value)}
    (h : List.Forall₂ L.AlikeMember members members') :
    L.Alike (.array (members.map fun (k, v) => entry k v))
      (.array (members'.map fun (k, v) => entry k v)) := by
  refine alike_array (List.forall₂_map_left_iff.mpr (List.forall₂_map_right_iff.mpr (h.imp ?_)))
  rintro ⟨k, v⟩ ⟨k', w⟩ ⟨rfl, hvalue⟩
  exact alike_object (.cons ⟨rfl, alike_string _⟩ (.cons ⟨rfl, hvalue⟩ .nil))

variable {s s' : Scope} {c d : Context}

theorem AlikeContext.child? (h : L.AlikeContext c d) (key : String) {x y : Option Value}
    (hxy : Option.Rel L.Alike x y) :
    Option.Rel L.AlikeContext (x.map (c.child key)) (y.map (d.child key)) := by
  cases hxy with
  | none => exact .none
  | some hv => exact .some (h.child key hv)

/-- A step leads to contexts that are alike, or nowhere from either. -/
theorem AlikeScope.step? (hs : L.AlikeScope s s') (start : PathStart) (h : L.AlikeContext c d)
    (p : Part) : Option.Rel L.AlikeContext (p.step? s start c) (p.step? s' start d) := by
  unfold Part.step?
  cases p.kind with
  | root => exact .some (alikeContext_root h)
  | parent => exact .some h.enclosing
  | self => exact .some h
  | entries => exact .some (h.child _ (alike_entries h.value.members))
  | boolean => exact .some (h.synthetic (alike_bool _))
  | null => exact .some (h.synthetic alike_null)
  | number =>
    refine .some (h.synthetic ?_)
    cases Numeral.ofLiteral? p.keyText with
    | none => exact alike_null
    | some n => exact alike_literal (.number n)
  | member =>
    have hmember := hs.member? h.value p.keyText
    cases start with
    | scope => exact h.child? _ (alike_or (hs.get? p.keyText) hmember)
    | member => exact h.child? _ (alike_or .none hmember)

theorem AlikeScope.follow (hs : L.AlikeScope s s') (whole path : Path) (start : PathStart)
    (h : L.AlikeContext c d) :
    L.AlikeContext (Path.follow whole s start path c).context
        (Path.follow whole s' start path d).context ∧
      (Path.follow whole s start path c).missing = (Path.follow whole s' start path d).missing := by
  induction path generalizing start c d with
  | nil => exact ⟨h, rfl⟩
  | cons p rest ih =>
    have hstep := hs.step? start h p
    unfold Path.follow
    generalize p.step? s start c = x at hstep
    generalize p.step? s' start d = y at hstep
    cases hstep with
    | none => exact ⟨h.child _ alike_null, by rw [h.value.type_eq]⟩
    | some hnext => exact ih .member hnext

/-- Root selectors lead to contexts that are alike. -/
theorem AlikeScope.roots (hs : L.AlikeScope s s') (start : PathStart) (path : Path)
    (h : L.AlikeContext c d) :
    List.Forall₂ L.AlikeContext (Path.roots s start path c) (Path.roots s' start path d) := by
  induction path generalizing start c d with
  | nil => exact .nil
  | cons p rest ih =>
    have hstep := hs.step? start h p
    unfold Path.roots
    generalize p.step? s start c = x at hstep
    generalize p.step? s' start d = y at hstep
    cases hstep with
    | none => exact .nil
    | some hnext =>
      dsimp only
      split
      · exact .cons hnext (ih .member hnext)
      · exact ih .member hnext

end Likeness

end Stencil
