import Stencil.Expr.Equality
import Stencil.Expr.Render

/-!
# Trees without their origins, and properties of all nodes

A bare tree says nothing about where it was read or how its sites are numbered. Trees with the same
bare tree are the same and have the same canonical text (`Expr.same_of_bare`,
`Expr.render_of_bare`). `Expr.everyNode` states a property of every node of a tree, together with
how the node above uses it.
-/

namespace Stencil

/-! ## Bare trees -/

mutual

/-- The tree without origins, sites and spans. -/
def Expr.bare : Expr → Expr
  | .path _ parts => .path .nowhere parts
  | .call _ _ parts name args => .call .nowhere 0 parts name (Argument.bareAll args)
  | .string _ delimiter fragments => .string .nowhere delimiter fragments
  | .number _ literal value => .number .nowhere literal value
  | .list _ kind items => .list .nowhere kind (Expr.bareAll items)
  | .unary _ _ op operand => .unary .nowhere 0 op operand.bare
  | .binary _ _ op left right => .binary .nowhere 0 op left.bare right.bare
  | .lambda _ parameters body => .lambda .nowhere parameters.bare body.bare

def Expr.bareAll : List Expr → List Expr
  | [] => []
  | e :: rest => e.bare :: Expr.bareAll rest

def Argument.bareAll : List Argument → List Argument
  | [] => []
  | ⟨name, _, e⟩ :: rest => ⟨name, .nowhere, e.bare⟩ :: Argument.bareAll rest

end

theorem Expr.exists_of_bareAll_singleton {es : List Expr} {e : Expr}
    (h : Expr.bareAll es = Expr.bareAll [e]) : ∃ e', es = [e'] ∧ e'.bare = e.bare := by
  cases es with
  | nil => cases h
  | cons e' rest =>
    cases rest with
    | nil => exact ⟨e', rfl, (List.cons.inj h).1⟩
    | cons _ _ => cases (List.cons.inj h).2

mutual

@[simp] theorem Expr.bare_mapOrigin (f : Origin → Origin) : ∀ e : Expr,
    (e.mapOrigin f).bare = e.bare
  | .path _ _ | .string _ _ _ | .number _ _ _ => rfl
  | .call _ _ _ _ args => by
    simp only [Expr.mapOrigin, Expr.bare, Argument.bareAll_mapOrigins f args]
  | .list _ _ items => by
    simp only [Expr.mapOrigin, Expr.bare, Expr.bareAll_mapOrigins f items]
  | .unary _ _ _ operand => by
    simp only [Expr.mapOrigin, Expr.bare, Expr.bare_mapOrigin f operand]
  | .binary _ _ _ left right => by
    simp only [Expr.mapOrigin, Expr.bare, Expr.bare_mapOrigin f left, Expr.bare_mapOrigin f right]
  | .lambda _ parameters body => by
    simp only [Expr.mapOrigin, Expr.bare, Expr.bare_mapOrigin f parameters,
      Expr.bare_mapOrigin f body]

theorem Expr.bareAll_mapOrigins (f : Origin → Origin) : ∀ es : List Expr,
    Expr.bareAll (Expr.mapOrigins f es) = Expr.bareAll es
  | [] => rfl
  | e :: rest => by
    simp only [Expr.mapOrigins, Expr.bareAll, Expr.bare_mapOrigin f e,
      Expr.bareAll_mapOrigins f rest]

theorem Argument.bareAll_mapOrigins (f : Origin → Origin) : ∀ args : List Argument,
    Argument.bareAll (Argument.mapOrigins f args) = Argument.bareAll args
  | [] => rfl
  | ⟨_, _, e⟩ :: rest => by
    simp only [Argument.mapOrigins, Argument.bareAll, Expr.bare_mapOrigin f e,
      Argument.bareAll_mapOrigins f rest]

end

mutual

@[simp] theorem Expr.bare_numberSites : ∀ (e : Expr) (next : Nat),
    (e.numberSites next).1.bare = e.bare
  | .path _ _, _ | .string _ _ _, _ | .number _ _ _, _ => rfl
  | .call _ _ _ _ args, next => by
    simp only [Expr.numberSites, Expr.bare, Argument.bareAll_numberSites args]
  | .list _ _ items, next => by
    simp only [Expr.numberSites, Expr.bare, Expr.bareAll_numberAllSites items]
  | .unary _ _ _ operand, next => by
    simp only [Expr.numberSites, Expr.bare, Expr.bare_numberSites operand]
  | .binary _ _ _ left right, next => by
    simp only [Expr.numberSites, Expr.bare, Expr.bare_numberSites left,
      Expr.bare_numberSites right]
  | .lambda _ parameters body, next => by
    simp only [Expr.numberSites, Expr.bare, Expr.bare_numberSites parameters,
      Expr.bare_numberSites body]

theorem Expr.bareAll_numberAllSites : ∀ (es : List Expr) (next : Nat),
    Expr.bareAll (Expr.numberAllSites next es).1 = Expr.bareAll es
  | [], _ => rfl
  | e :: rest, next => by
    simp only [Expr.numberAllSites, Expr.bareAll, Expr.bare_numberSites e,
      Expr.bareAll_numberAllSites rest]

theorem Argument.bareAll_numberSites : ∀ (args : List Argument) (next : Nat),
    Argument.bareAll (Argument.numberSites next args).1 = Argument.bareAll args
  | [], _ => rfl
  | ⟨_, _, e⟩ :: rest, next => by
    simp only [Argument.numberSites, Argument.bareAll, Expr.bare_numberSites e,
      Argument.bareAll_numberSites rest]

end

mutual

/-- Trees that differ in origins and sites only are the same. -/
theorem Expr.same_of_bare : ∀ {x y : Expr}, x.bare = y.bare → x.same y = true
  | .path _ _, y, h => by
    cases y <;> simp only [Expr.bare, reduceCtorEq] at h
    simp_all [Expr.same]
  | .call _ _ _ _ args, y, h => by
    cases y <;> simp only [Expr.bare, reduceCtorEq] at h
    obtain ⟨-, -, rfl, rfl, hargs⟩ := Expr.call.inj h
    simp [Expr.same, Argument.sameAll_of_bareAll hargs]
  | .string _ _ _, y, h => by
    cases y <;> simp only [Expr.bare, reduceCtorEq] at h
    obtain ⟨-, rfl, rfl⟩ := Expr.string.inj h
    simp [Expr.same]
  | .number _ _ _, y, h => by
    cases y <;> simp only [Expr.bare, reduceCtorEq] at h
    obtain ⟨-, rfl, -⟩ := Expr.number.inj h
    simp [Expr.same]
  | .list _ _ items, y, h => by
    cases y <;> simp only [Expr.bare, reduceCtorEq] at h
    obtain ⟨-, rfl, hitems⟩ := Expr.list.inj h
    simp [Expr.same, Expr.sameAll_of_bareAll hitems]
  | .unary _ _ _ operand, y, h => by
    cases y <;> simp only [Expr.bare, reduceCtorEq] at h
    obtain ⟨-, -, rfl, hoperand⟩ := Expr.unary.inj h
    simp [Expr.same, Expr.same_of_bare hoperand]
  | .binary _ _ _ left right, y, h => by
    cases y <;> simp only [Expr.bare, reduceCtorEq] at h
    obtain ⟨-, -, rfl, hleft, hright⟩ := Expr.binary.inj h
    simp [Expr.same, Expr.same_of_bare hleft, Expr.same_of_bare hright]
  | .lambda _ parameters body, y, h => by
    cases y <;> simp only [Expr.bare, reduceCtorEq] at h
    obtain ⟨-, hparameters, hbody⟩ := Expr.lambda.inj h
    simp [Expr.same, Expr.same_of_bare hparameters, Expr.same_of_bare hbody]

theorem Expr.sameAll_of_bareAll : ∀ {xs ys : List Expr},
    Expr.bareAll xs = Expr.bareAll ys → Expr.sameAll xs ys = true
  | [], ys, h => by
    cases ys with
    | nil => rfl
    | cons y ys => cases h
  | x :: xs, ys, h => by
    cases ys with
    | nil => cases h
    | cons y ys =>
      obtain ⟨hx, hxs⟩ := List.cons.inj h
      simp [Expr.sameAll, Expr.same_of_bare hx, Expr.sameAll_of_bareAll hxs]

theorem Argument.sameAll_of_bareAll : ∀ {xs ys : List Argument},
    Argument.bareAll xs = Argument.bareAll ys → Argument.sameAll xs ys = true
  | [], [], _ => rfl
  | [], ⟨_, _, _⟩ :: _, h => by cases h
  | ⟨_, _, _⟩ :: _, [], h => by cases h
  | ⟨_, _, x⟩ :: xs, ⟨_, _, y⟩ :: ys, h => by
    obtain ⟨hx, hxs⟩ := List.cons.inj h
    obtain ⟨hname, -, hx⟩ := Argument.mk.inj hx
    simp [Argument.sameAll, hname, Expr.same_of_bare hx, Argument.sameAll_of_bareAll hxs]

end

mutual

theorem Expr.render_bare : ∀ e : Expr, e.bare.render = e.render
  | .path _ _ | .string _ _ _ | .number _ _ _ => rfl
  | .call _ _ _ _ args => by
    simp only [Expr.bare, Expr.render, Argument.renderAll_bareAll args]
  | .list _ .chain items | .list _ .bracket items | .list _ .arguments items => by
    simp only [Expr.bare, Expr.render, Expr.renderAll_bareAll _ items]
  | .unary _ _ _ operand => by
    simp only [Expr.bare, Expr.render, Expr.render_bare operand]
  | .binary _ _ _ left right => by
    simp only [Expr.bare, Expr.render, Expr.render_bare left, Expr.render_bare right]
  | .lambda _ parameters body => by
    simp only [Expr.bare, Expr.render, Expr.render_bare parameters, Expr.render_bare body]

theorem Expr.renderAll_bareAll (separator : List Char) : ∀ es : List Expr,
    Expr.renderAll separator (Expr.bareAll es) = Expr.renderAll separator es
  | [] => rfl
  | [e] => by simp only [Expr.bareAll, Expr.renderAll, Expr.render_bare e]
  | e :: f :: rest => by
    have hrest := Expr.renderAll_bareAll separator (f :: rest)
    simp only [Expr.bareAll, Expr.renderAll, Expr.render_bare e] at hrest ⊢
    rw [hrest]

theorem Argument.renderAll_bareAll : ∀ args : List Argument,
    Argument.renderAll (Argument.bareAll args) = Argument.renderAll args
  | [] => rfl
  | [⟨_, _, e⟩] => by simp only [Argument.bareAll, Argument.renderAll, Expr.render_bare e]
  | ⟨_, _, e⟩ :: ⟨name, sp, f⟩ :: rest => by
    have hrest := Argument.renderAll_bareAll (⟨name, sp, f⟩ :: rest)
    simp only [Argument.bareAll, Argument.renderAll, Expr.render_bare e] at hrest ⊢
    rw [hrest]

end

/-- Trees that differ in origins and sites only have the same canonical text. -/
theorem Expr.render_of_bare {x y : Expr} (h : x.bare = y.bare) : x.render = y.render := by
  rw [← x.render_bare, h, y.render_bare]

/-! ## Origins -/

theorem Expr.origin_mapOrigin (f : Origin → Origin) (e : Expr) :
    (e.mapOrigin f).origin = f e.origin := by
  cases e <;> rfl

theorem Expr.origin_numberSites (e : Expr) (next : Nat) :
    (e.numberSites next).1.origin = e.origin := by
  cases e <;> rfl

/-! ## Children -/

/-- The nodes just below a node in the order in which they are written, each with the span that it
takes up: for an argument, that of the whole argument with its name. -/
def Expr.children : Expr → List (Span × Expr)
  | .path _ _ | .string _ _ _ | .number _ _ _ => []
  | .call _ _ _ _ args => args.map fun a => (a.span, a.expr)
  | .list _ _ items => items.map fun e => (e.span, e)
  | .unary _ _ _ operand => [(operand.span, operand)]
  | .binary _ _ _ left right => [(left.span, left), (right.span, right)]
  | .lambda _ parameters body => [(parameters.span, parameters), (body.span, body)]

/-- The spans that the children take up, and those that are theirs as nodes. -/
def Expr.childSpans (e : Expr) : List (Span × Span) :=
  e.children.map fun x => (x.1, x.2.span)

section ChildSpans

variable {f : Origin → Origin} (hf : ∀ o, (f o).span = o.span)

theorem Expr.span_numberSites (e : Expr) (next : Nat) : (e.numberSites next).1.span = e.span :=
  congrArg Origin.span (e.origin_numberSites next)

theorem Expr.spans_numberAllSites (es : List Expr) (next : Nat) :
    (Expr.numberAllSites next es).1.map (fun e => (e.span, e.span)) =
      es.map fun e => (e.span, e.span) := by
  induction es generalizing next with
  | nil => rfl
  | cons e es ih => simp only [numberAllSites, List.map_cons, span_numberSites, ih]

theorem Argument.spans_numberSites (args : List Argument) (next : Nat) :
    (Argument.numberSites next args).1.map (fun a => (a.span, a.expr.span)) =
      args.map fun a => (a.span, a.expr.span) := by
  induction args generalizing next with
  | nil => rfl
  | cons a args ih =>
    obtain ⟨name, span, e⟩ := a
    simp only [numberSites, List.map_cons, Expr.span_numberSites, ih]

theorem Expr.childSpans_numberSites (e : Expr) (next : Nat) :
    (e.numberSites next).1.childSpans = e.childSpans := by
  cases e <;>
    simp only [numberSites, childSpans, children, List.map_map, List.map_cons, List.map_nil,
      Function.comp_def, span_numberSites, spans_numberAllSites, Argument.spans_numberSites]

include hf

theorem Expr.span_mapOrigin (e : Expr) : (e.mapOrigin f).span = e.span := by
  rw [span, origin_mapOrigin, hf, span]

theorem Expr.spans_mapOrigins (es : List Expr) :
    (Expr.mapOrigins f es).map (fun e => (e.span, e.span)) = es.map fun e => (e.span, e.span) := by
  induction es with
  | nil => rfl
  | cons e es ih => simp only [mapOrigins, List.map_cons, span_mapOrigin hf, ih]

theorem Argument.spans_mapOrigins (args : List Argument) :
    (Argument.mapOrigins f args).map (fun a => (a.span, a.expr.span)) =
      args.map fun a => (a.span, a.expr.span) := by
  induction args with
  | nil => rfl
  | cons a args ih =>
    obtain ⟨name, span, e⟩ := a
    simp only [mapOrigins, List.map_cons, Expr.span_mapOrigin hf, ih]

theorem Expr.childSpans_mapOrigin (e : Expr) : (e.mapOrigin f).childSpans = e.childSpans := by
  cases e <;>
    simp only [mapOrigin, childSpans, children, List.map_map, List.map_cons, List.map_nil,
      Function.comp_def, span_mapOrigin hf, spans_mapOrigins hf, Argument.spans_mapOrigins hf]

end ChildSpans

/-! ## Properties of all nodes -/

/-- How a node is used by the node above it. -/
inductive Role where
  /-- It is an expression of its own. -/
  | free
  /-- It is a link of a chain after the first. -/
  | laterLink
  /-- It is the list of the parameters of a lambda. -/
  | parameterList
deriving DecidableEq, Repr

/-- The role of the parameters of a lambda. -/
def Role.ofParameters : Expr → Role
  | .list _ _ _ => .parameterList
  | _ => .free

mutual

/-- Whether a property holds of every node of a tree whose root has the given role. -/
def Expr.everyNode (p : Role → Expr → Prop) (role : Role) : Expr → Prop
  | .path o parts => p role (.path o parts)
  | .call o site parts name args =>
    p role (.call o site parts name args) ∧ Argument.everyNode p args
  | .string o delimiter fragments => p role (.string o delimiter fragments)
  | .number o literal value => p role (.number o literal value)
  | .list o .chain items => p role (.list o .chain items) ∧ Expr.everyLink p items
  | .list o .bracket items => p role (.list o .bracket items) ∧ Expr.everyItem p .free items
  | .list o .arguments items => p role (.list o .arguments items) ∧ Expr.everyItem p .free items
  | .unary o site op operand => p role (.unary o site op operand) ∧ operand.everyNode p .free
  | .binary o site op left right =>
    p role (.binary o site op left right) ∧ left.everyNode p .free ∧ right.everyNode p .free
  | .lambda o parameters body =>
    p role (.lambda o parameters body) ∧ parameters.everyNode p (.ofParameters parameters) ∧
      body.everyNode p .free

/-- The same for expressions that all have one role. -/
def Expr.everyItem (p : Role → Expr → Prop) (role : Role) : List Expr → Prop
  | [] => True
  | e :: rest => e.everyNode p role ∧ Expr.everyItem p role rest

/-- The same for the links of a chain. -/
def Expr.everyLink (p : Role → Expr → Prop) : List Expr → Prop
  | [] => True
  | e :: rest => e.everyNode p .free ∧ Expr.everyItem p .laterLink rest

/-- The same for the arguments of a call. -/
def Argument.everyNode (p : Role → Expr → Prop) : List Argument → Prop
  | [] => True
  | ⟨_, _, e⟩ :: rest => e.everyNode p .free ∧ Argument.everyNode p rest

end

/-- Arguments without their names are expressions of their own. -/
theorem Argument.everyItem_exprs {p : Role → Expr → Prop} : ∀ {args : List Argument},
    Argument.everyNode p args → Expr.everyItem p .free (args.map Argument.expr)
  | [], _ => trivial
  | ⟨_, _, _⟩ :: _, h => ⟨h.1, Argument.everyItem_exprs h.2⟩

theorem everyNode_self {p : Role → Expr → Prop} {role : Role} {e : Expr} (h : e.everyNode p role) :
    p role e := by
  cases e with
  | list o kind items => cases kind <;> exact h.1
  | path | string | number => exact h
  | call | unary | binary | lambda => exact h.1

theorem everyItem_mem {p : Role → Expr → Prop} {role : Role} {items : List Expr}
    (h : Expr.everyItem p role items) : ∀ e ∈ items, e.everyNode p role := by
  induction items with
  | nil => simp
  | cons e rest ih => exact List.forall_mem_cons.mpr ⟨h.1, ih h.2⟩

theorem everyNode_of_mem_items {p : Role → Expr → Prop} {role : Role} {o : Origin}
    {kind : ListKind} {items : List Expr} (h : (Expr.list o kind items).everyNode p role) :
    ∀ e ∈ items, ∃ role, e.everyNode p role := by
  intro e he
  cases kind with
  | chain =>
    cases items with
    | nil => cases he
    | cons first links =>
      rcases List.mem_cons.mp he with rfl | he
      · exact ⟨_, h.2.1⟩
      · exact ⟨_, everyItem_mem h.2.2 e he⟩
  | bracket => exact ⟨_, everyItem_mem h.2 e he⟩
  | arguments => exact ⟨_, everyItem_mem h.2 e he⟩

theorem everyNode_of_mem_arguments {p : Role → Expr → Prop} {args : List Argument}
    (h : Argument.everyNode p args) : ∀ a ∈ args, a.expr.everyNode p .free :=
  fun a ha => everyItem_mem (Argument.everyItem_exprs h) a.expr (List.mem_map_of_mem ha)

section Hereditary

variable {P : Expr → Prop}

mutual

/-- What passes from a node to the nodes below it, and holds of the root, holds of every node. -/
theorem Expr.everyNode_of_hereditary (h : ∀ e, P e → ∀ x ∈ e.children, P x.2) :
    ∀ {e : Expr} {role : Role}, P e → e.everyNode (fun _ node => P node) role
  | .path _ _, _, he | .string _ _ _, _, he | .number _ _ _, _, he => he
  | .call _ _ _ _ _, _, he =>
    ⟨he, Argument.everyNode_of_hereditary h fun a ha =>
      h _ he (a.span, a.expr) (List.mem_map_of_mem ha)⟩
  | .list _ .chain items, _, he =>
    ⟨he, Expr.everyLink_of_hereditary h fun x hx => h _ he (x.span, x) (List.mem_map_of_mem hx)⟩
  | .list _ .bracket items, _, he | .list _ .arguments items, _, he =>
    ⟨he, Expr.everyItem_of_hereditary h fun x hx => h _ he (x.span, x) (List.mem_map_of_mem hx)⟩
  | .unary _ _ _ operand, _, he =>
    ⟨he, Expr.everyNode_of_hereditary h (h _ he (operand.span, operand) (by simp [Expr.children]))⟩
  | .binary _ _ _ left right, _, he =>
    ⟨he, Expr.everyNode_of_hereditary h (h _ he (left.span, left) (by simp [Expr.children])),
      Expr.everyNode_of_hereditary h (h _ he (right.span, right) (by simp [Expr.children]))⟩
  | .lambda _ parameters body, _, he =>
    ⟨he,
      Expr.everyNode_of_hereditary h
        (h _ he (parameters.span, parameters) (by simp [Expr.children])),
      Expr.everyNode_of_hereditary h (h _ he (body.span, body) (by simp [Expr.children]))⟩

theorem Expr.everyItem_of_hereditary (h : ∀ e, P e → ∀ x ∈ e.children, P x.2) :
    ∀ {es : List Expr} {role : Role}, (∀ e ∈ es, P e) →
      Expr.everyItem (fun _ node => P node) role es
  | [], _, _ => trivial
  | _ :: _, _, hes =>
    ⟨Expr.everyNode_of_hereditary h (List.forall_mem_cons.mp hes).1,
      Expr.everyItem_of_hereditary h (List.forall_mem_cons.mp hes).2⟩

theorem Expr.everyLink_of_hereditary (h : ∀ e, P e → ∀ x ∈ e.children, P x.2) :
    ∀ {es : List Expr}, (∀ e ∈ es, P e) → Expr.everyLink (fun _ node => P node) es
  | [], _ => trivial
  | _ :: _, hes =>
    ⟨Expr.everyNode_of_hereditary h (List.forall_mem_cons.mp hes).1,
      Expr.everyItem_of_hereditary h (List.forall_mem_cons.mp hes).2⟩

theorem Argument.everyNode_of_hereditary (h : ∀ e, P e → ∀ x ∈ e.children, P x.2) :
    ∀ {args : List Argument}, (∀ a ∈ args, P a.expr) →
      Argument.everyNode (fun _ node => P node) args
  | [], _ => trivial
  | ⟨_, _, _⟩ :: _, hargs =>
    ⟨Expr.everyNode_of_hereditary h (List.forall_mem_cons.mp hargs).1,
      Argument.everyNode_of_hereditary h (List.forall_mem_cons.mp hargs).2⟩

end

end Hereditary

@[simp] theorem Role.ofParameters_mapOrigin (f : Origin → Origin) (e : Expr) :
    Role.ofParameters (e.mapOrigin f) = Role.ofParameters e := by
  cases e <;> rfl

@[simp] theorem Role.ofParameters_numberSites (e : Expr) (next : Nat) :
    Role.ofParameters (e.numberSites next).1 = Role.ofParameters e := by
  cases e <;> rfl

section Changes

variable {p q : Role → Expr → Prop} {f : Origin → Origin}

mutual

/-- What holds of all nodes makes `q` hold of all nodes with changed origins. -/
theorem Expr.everyNode_mapOrigin (h : ∀ role e, p role e → q role (e.mapOrigin f)) :
    ∀ {e : Expr} {role : Role}, e.everyNode p role → (e.mapOrigin f).everyNode q role
  | .path _ _, _, he | .string _ _ _, _, he | .number _ _ _, _, he => h _ _ he
  | .call _ _ _ _ _, _, he => ⟨h _ _ he.1, Argument.everyNode_mapOrigins h he.2⟩
  | .list _ .chain _, _, he => ⟨h _ _ he.1, Expr.everyLink_mapOrigins h he.2⟩
  | .list _ .bracket _, _, he => ⟨h _ _ he.1, Expr.everyItem_mapOrigins h he.2⟩
  | .list _ .arguments _, _, he => ⟨h _ _ he.1, Expr.everyItem_mapOrigins h he.2⟩
  | .unary _ _ _ _, _, he => ⟨h _ _ he.1, Expr.everyNode_mapOrigin h he.2⟩
  | .binary _ _ _ _ _, _, he =>
    ⟨h _ _ he.1, Expr.everyNode_mapOrigin h he.2.1, Expr.everyNode_mapOrigin h he.2.2⟩
  | .lambda _ parameters _, _, he => by
    refine ⟨h _ _ he.1, ?_, Expr.everyNode_mapOrigin h he.2.2⟩
    rw [Role.ofParameters_mapOrigin]
    exact Expr.everyNode_mapOrigin h he.2.1

theorem Expr.everyItem_mapOrigins (h : ∀ role e, p role e → q role (e.mapOrigin f)) :
    ∀ {es : List Expr} {role : Role}, Expr.everyItem p role es →
      Expr.everyItem q role (Expr.mapOrigins f es)
  | [], _, _ => trivial
  | _ :: _, _, he => ⟨Expr.everyNode_mapOrigin h he.1, Expr.everyItem_mapOrigins h he.2⟩

theorem Expr.everyLink_mapOrigins (h : ∀ role e, p role e → q role (e.mapOrigin f)) :
    ∀ {es : List Expr}, Expr.everyLink p es → Expr.everyLink q (Expr.mapOrigins f es)
  | [], _ => trivial
  | _ :: _, he => ⟨Expr.everyNode_mapOrigin h he.1, Expr.everyItem_mapOrigins h he.2⟩

theorem Argument.everyNode_mapOrigins (h : ∀ role e, p role e → q role (e.mapOrigin f)) :
    ∀ {args : List Argument}, Argument.everyNode p args →
      Argument.everyNode q (Argument.mapOrigins f args)
  | [], _ => trivial
  | ⟨_, _, _⟩ :: _, he => ⟨Expr.everyNode_mapOrigin h he.1, Argument.everyNode_mapOrigins h he.2⟩

end

mutual

/-- What holds of all nodes makes `q` hold of all nodes of the numbered tree. -/
theorem Expr.everyNode_numberSites (h : ∀ role e n, p role e → q role (e.numberSites n).1) :
    ∀ {e : Expr} {role : Role} (n : Nat), e.everyNode p role → (e.numberSites n).1.everyNode q role
  | .path _ _, _, n, he | .string _ _ _, _, n, he | .number _ _ _, _, n, he => h _ _ n he
  | .call _ _ _ _ _, _, n, he => ⟨h _ _ n he.1, Argument.everyNode_numberSites h _ he.2⟩
  | .list _ .chain _, _, n, he => ⟨h _ _ n he.1, Expr.everyLink_numberSites h _ he.2⟩
  | .list _ .bracket _, _, n, he => ⟨h _ _ n he.1, Expr.everyItem_numberSites h _ he.2⟩
  | .list _ .arguments _, _, n, he => ⟨h _ _ n he.1, Expr.everyItem_numberSites h _ he.2⟩
  | .unary _ _ _ _, _, n, he => ⟨h _ _ n he.1, Expr.everyNode_numberSites h _ he.2⟩
  | .binary _ _ _ _ _, _, n, he =>
    ⟨h _ _ n he.1, Expr.everyNode_numberSites h _ he.2.1, Expr.everyNode_numberSites h _ he.2.2⟩
  | .lambda _ parameters _, _, n, he => by
    refine ⟨h _ _ n he.1, ?_, Expr.everyNode_numberSites h _ he.2.2⟩
    rw [Role.ofParameters_numberSites]
    exact Expr.everyNode_numberSites h _ he.2.1

theorem Expr.everyItem_numberSites (h : ∀ role e n, p role e → q role (e.numberSites n).1) :
    ∀ {es : List Expr} {role : Role} (n : Nat), Expr.everyItem p role es →
      Expr.everyItem q role (Expr.numberAllSites n es).1
  | [], _, _, _ => trivial
  | _ :: _, _, _, he => ⟨Expr.everyNode_numberSites h _ he.1, Expr.everyItem_numberSites h _ he.2⟩

theorem Expr.everyLink_numberSites (h : ∀ role e n, p role e → q role (e.numberSites n).1) :
    ∀ {es : List Expr} (n : Nat), Expr.everyLink p es →
      Expr.everyLink q (Expr.numberAllSites n es).1
  | [], _, _ => trivial
  | _ :: _, _, he => ⟨Expr.everyNode_numberSites h _ he.1, Expr.everyItem_numberSites h _ he.2⟩

theorem Argument.everyNode_numberSites (h : ∀ role e n, p role e → q role (e.numberSites n).1) :
    ∀ {args : List Argument} (n : Nat), Argument.everyNode p args →
      Argument.everyNode q (Argument.numberSites n args).1
  | [], _, _ => trivial
  | ⟨_, _, _⟩ :: _, _, he =>
    ⟨Expr.everyNode_numberSites h _ he.1, Argument.everyNode_numberSites h _ he.2⟩

end

end Changes

end Stencil
