import Mathlib.Data.List.Forall2
import Stencil.Code
import Stencil.Proofs.WellShaped

/-!
# Plain trees

Structural equality leaves out some of what a tree is made of: where it was read, how its string
literals are cut into fragments, which numbers its literals stand for, and its sites. `Expr.plain`
leaves out only the first two, which evaluation does not use. The others are no choice: numbers can
be read off their literals, and sites are numbered in order. So trees that were read without
problems and are the same are the same plain tree (`plain_eq_of_same`).
-/

namespace Stencil

/-! ## Leaving out what is not used -/

mutual

/-- The tree without origins and spans, and with its string literals in one piece. -/
def Expr.plain : Expr → Expr
  | .path _ parts => .path .nowhere parts
  | .call _ site parts name args => .call .nowhere site parts name (Argument.plainAll args)
  | .string _ delimiter fragments => .string .nowhere delimiter [.text (Fragment.chars fragments)]
  | .number _ literal value => .number .nowhere literal value
  | .list _ kind items => .list .nowhere kind (Expr.plainAll items)
  | .unary _ site op operand => .unary .nowhere site op operand.plain
  | .binary _ site op left right => .binary .nowhere site op left.plain right.plain
  | .lambda _ parameters body => .lambda .nowhere parameters.plain body.plain

def Expr.plainAll : List Expr → List Expr
  | [] => []
  | e :: rest => e.plain :: Expr.plainAll rest

def Argument.plainAll : List Argument → List Argument
  | [] => []
  | ⟨name, _, e⟩ :: rest => ⟨name, .nowhere, e.plain⟩ :: Argument.plainAll rest

end

@[simp] theorem Fragment.value_whole (fragments : List Fragment) :
    Fragment.value [.text (Fragment.chars fragments)] = Fragment.value fragments := by
  simp [Fragment.value, Fragment.chars]

namespace Expr

@[simp] theorem literal?_plain (e : Expr) : e.plain.literal? = e.literal? := by
  cases e with
  | string => simp [plain, literal?]
  | path o parts =>
    rcases parts with _ | ⟨⟨kind, key⟩, _ | ⟨q, rest⟩⟩
    · rfl
    · cases kind <;> cases key <;> rfl
    · simp [plain, literal?]
  | _ => rfl

@[simp] theorem soleKey?_plain (e : Expr) : e.plain.soleKey? = e.soleKey? := by
  cases e with
  | path o parts => rcases parts with _ | ⟨p, _ | ⟨q, rest⟩⟩ <;> rfl
  | _ => rfl

theorem filterMap_soleKey?_plainAll (items : List Expr) :
    (plainAll items).filterMap soleKey? = items.filterMap soleKey? := by
  induction items with
  | nil => rfl
  | cons e rest ih => simp only [plainAll, List.filterMap_cons, soleKey?_plain, ih]

@[simp] theorem parameterNames_plain (e : Expr) : e.plain.parameterNames = e.parameterNames := by
  cases e with
  | list o kind items => exact filterMap_soleKey?_plainAll items
  | path o parts => exact congrArg Option.toList (soleKey?_plain (.path o parts))
  | _ => rfl

end Expr

/-- What trees look like that are the same plain tree. -/
inductive Expr.PlainView : Expr → Expr → Prop
  | path {o o' : Origin} {parts : Path} : PlainView (.path o parts) (.path o' parts)
  | call {o o' : Origin} {site : Nat} {parts : Path} {name : String} {as bs : List Argument}
    (hargs : Argument.plainAll as = Argument.plainAll bs) :
    PlainView (.call o site parts name as) (.call o' site parts name bs)
  | string {o o' : Origin} {d : Char} {fs gs : List Fragment}
    (hvalue : Fragment.value fs = Fragment.value gs) : PlainView (.string o d fs) (.string o' d gs)
  | number {o o' : Origin} {literal : String} {value : Numeral} :
    PlainView (.number o literal value) (.number o' literal value)
  | list {o o' : Origin} {kind : ListKind} {xs ys : List Expr}
    (hitems : Expr.plainAll xs = Expr.plainAll ys) : PlainView (.list o kind xs) (.list o' kind ys)
  | unary {o o' : Origin} {site : Nat} {op : Operator} {x y : Expr} (hx : x.plain = y.plain) :
    PlainView (.unary o site op x) (.unary o' site op y)
  | binary {o o' : Origin} {site : Nat} {op : Operator} {x y z w : Expr} (hl : x.plain = z.plain)
    (hr : y.plain = w.plain) : PlainView (.binary o site op x y) (.binary o' site op z w)
  | lambda {o o' : Origin} {p q b c : Expr} (hp : p.plain = q.plain) (hb : b.plain = c.plain) :
    PlainView (.lambda o p b) (.lambda o' q c)

theorem Expr.plain_view {t u : Expr} (h : t.plain = u.plain) : PlainView t u := by
  cases t <;> cases u <;> simp only [plain, reduceCtorEq] at h
  case path => obtain ⟨-, rfl⟩ := Expr.path.inj h; exact .path
  case call => obtain ⟨-, rfl, rfl, rfl, hargs⟩ := Expr.call.inj h; exact .call hargs
  case string =>
    obtain ⟨-, rfl, hpieces⟩ := Expr.string.inj h
    simp only [List.cons.injEq, Fragment.text.injEq, and_true] at hpieces
    exact .string (congrArg String.ofList hpieces)
  case number => obtain ⟨-, rfl, rfl⟩ := Expr.number.inj h; exact .number
  case list => obtain ⟨-, rfl, hitems⟩ := Expr.list.inj h; exact .list hitems
  case unary => obtain ⟨-, rfl, rfl, hx⟩ := Expr.unary.inj h; exact .unary hx
  case binary => obtain ⟨-, rfl, rfl, hl, hr⟩ := Expr.binary.inj h; exact .binary hl hr
  case lambda => obtain ⟨-, hp, hb⟩ := Expr.lambda.inj h; exact .lambda hp hb

mutual

/-- A plain tree has the code of the tree. -/
theorem Expr.codeFrom_plain (start : PathStart) : ∀ e : Expr,
    e.plain.codeFrom start = e.codeFrom start
  | .path _ _ | .number _ _ _ => rfl
  | .string _ _ fragments => by simp only [Expr.plain, Expr.codeFrom, Fragment.value_whole]
  | .call _ _ _ _ args => by simp only [Expr.plain, Expr.codeFrom, Argument.codes_plainAll args]
  | .list _ .chain items => by
    simp only [Expr.plain, Expr.codeFrom, Expr.linkCodes_plainAll .scope items]
  | .list _ .bracket items | .list _ .arguments items => by
    simp only [Expr.plain, Expr.codeFrom, Expr.codes_plainAll items]
  | .unary _ _ _ operand => by
    simp only [Expr.plain, Expr.codeFrom, Expr.literal?_plain, Expr.codeFrom_plain .scope operand]
  | .binary _ _ _ left right => by
    simp only [Expr.plain, Expr.codeFrom, Expr.literal?_plain, Expr.codeFrom_plain .scope left,
      Expr.codeFrom_plain .scope right]
  | .lambda _ parameters body => by
    simp only [Expr.plain, Expr.codeFrom, Expr.literal?_plain, Expr.parameterNames_plain,
      Expr.codeFrom_plain .scope body]

theorem Expr.linkCodes_plainAll (start : PathStart) : ∀ items : List Expr,
    Expr.linkCodes start (Expr.plainAll items) = Expr.linkCodes start items
  | [] => rfl
  | e :: rest => by
    cases start <;> simp only [Expr.plainAll, Expr.linkCodes, Expr.literal?_plain,
      Expr.codeFrom_plain _ e, Expr.linkCodes_plainAll .member rest]

theorem Expr.codes_plainAll : ∀ items : List Expr,
    Expr.codes (Expr.plainAll items) = Expr.codes items
  | [] => rfl
  | e :: rest => by
    simp only [Expr.plainAll, Expr.codes, Expr.literal?_plain, Expr.codeFrom_plain .scope e,
      Expr.codes_plainAll rest]

theorem Argument.codes_plainAll : ∀ args : List Argument,
    Argument.codes (Argument.plainAll args) = Argument.codes args
  | [] => rfl
  | ⟨_, _, e⟩ :: rest => by
    simp only [Argument.plainAll, Argument.codes, Expr.literal?_plain, Expr.codeFrom_plain .scope e,
      Argument.codes_plainAll rest]

end

theorem Expr.code_plain (e : Expr) : e.plain.code = e.code := by
  rw [Expr.code, Expr.code, Expr.literal?_plain, Expr.codeFrom_plain]

/-! ## Trees that are the same -/

/-- What trees that are the same look like. -/
inductive Expr.SameView : Expr → Expr → Prop
  | path {o o' : Origin} {parts : Path} : SameView (.path o parts) (.path o' parts)
  | call {o o' : Origin} {n n' : Nat} {parts : Path} {name : String} {as bs : List Argument}
    (hargs : Argument.sameAll as bs = true) :
    SameView (.call o n parts name as) (.call o' n' parts name bs)
  | string {o o' : Origin} {d : Char} {fs gs : List Fragment}
    (hvalue : Fragment.value fs = Fragment.value gs) : SameView (.string o d fs) (.string o' d gs)
  | number {o o' : Origin} {literal : String} {value value' : Numeral} :
    SameView (.number o literal value) (.number o' literal value')
  | list {o o' : Origin} {kind : ListKind} {xs ys : List Expr}
    (hitems : Expr.sameAll xs ys = true) : SameView (.list o kind xs) (.list o' kind ys)
  | unary {o o' : Origin} {n n' : Nat} {op : Operator} {x y : Expr} (hx : x.same y = true) :
    SameView (.unary o n op x) (.unary o' n' op y)
  | binary {o o' : Origin} {n n' : Nat} {op : Operator} {x y z w : Expr} (hl : x.same z = true)
    (hr : y.same w = true) : SameView (.binary o n op x y) (.binary o' n' op z w)
  | lambda {o o' : Origin} {p q b c : Expr} (hp : p.same q = true) (hb : b.same c = true) :
    SameView (.lambda o p b) (.lambda o' q c)

theorem Expr.same_view {t u : Expr} (h : t.same u = true) : SameView t u := by
  cases t <;> cases u <;>
    simp only [same, Bool.and_eq_true, beq_iff_eq, Bool.false_eq_true] at h
  case path => obtain rfl := h; exact .path
  case call => obtain ⟨⟨rfl, rfl⟩, h⟩ := h; exact .call h
  case string => obtain ⟨rfl, h⟩ := h; exact .string h
  case number => obtain rfl := h; exact .number
  case list => obtain ⟨rfl, h⟩ := h; exact .list h
  case unary => obtain ⟨rfl, h⟩ := h; exact .unary h
  case binary => obtain ⟨⟨rfl, h⟩, h'⟩ := h; exact .binary h h'
  case lambda => exact .lambda h.1 h.2

/-- Lists of trees that are the same consist of trees that are the same, one by one. -/
theorem Expr.sameAll_iff {xs ys : List Expr} :
    Expr.sameAll xs ys = true ↔ List.Forall₂ (fun x y => x.same y = true) xs ys := by
  induction xs generalizing ys with
  | nil => cases ys <;> simp [sameAll]
  | cons x xs ih => cases ys <;> simp [sameAll, ih]

theorem Argument.sameAll_iff {as bs : List Argument} :
    Argument.sameAll as bs = true ↔
      List.Forall₂ (fun a b => a.name = b.name ∧ a.expr.same b.expr = true) as bs := by
  induction as generalizing bs with
  | nil => cases bs <;> simp [sameAll]
  | cons a as ih =>
    obtain ⟨name, sp, x⟩ := a
    rcases bs with _ | ⟨⟨name', sp', y⟩, bs⟩ <;> simp [sameAll, ih]

mutual

/-- Trees that are the same have the same digest. -/
theorem Expr.digest_of_same : ∀ {t u : Expr}, t.same u = true → t.digest = u.digest
  | .path _ _, _, h | .number _ _ _, _, h => by
    cases Expr.same_view h
    rfl
  | .string _ _ _, _, h => by
    cases Expr.same_view h with
    | string hvalue => rw [Expr.digest, Expr.digest, hvalue]
  | .call _ _ _ _ args, _, h => by
    cases Expr.same_view h with
    | call hargs =>
      simp only [Expr.digest, (Argument.sameAll_iff.mp hargs).length_eq,
        Argument.digestAll_of_sameAll hargs]
  | .list _ _ items, _, h => by
    cases Expr.same_view h with
    | list hitems =>
      simp only [Expr.digest, (Expr.sameAll_iff.mp hitems).length_eq,
        Expr.digestAll_of_sameAll hitems]
  | .unary _ _ _ operand, _, h => by
    cases Expr.same_view h with
    | unary hx => rw [Expr.digest, Expr.digest, Expr.digest_of_same hx]
  | .binary _ _ _ left right, _, h => by
    cases Expr.same_view h with
    | binary hl hr =>
      rw [Expr.digest, Expr.digest, Expr.digest_of_same hl, Expr.digest_of_same hr]
  | .lambda _ parameters body, _, h => by
    cases Expr.same_view h with
    | lambda hp hb =>
      rw [Expr.digest, Expr.digest, Expr.digest_of_same hp, Expr.digest_of_same hb]

theorem Expr.digestAll_of_sameAll : ∀ {xs ys : List Expr}, Expr.sameAll xs ys = true →
    Expr.digestAll xs = Expr.digestAll ys
  | [], [], _ => rfl
  | [], _ :: _, h => by cases h
  | _ :: _, [], h => by cases h
  | x :: xs, y :: ys, h => by
    rw [Expr.sameAll, Bool.and_eq_true] at h
    rw [Expr.digestAll, Expr.digestAll, Expr.digest_of_same h.1, Expr.digestAll_of_sameAll h.2]

theorem Argument.digestAll_of_sameAll : ∀ {as bs : List Argument}, Argument.sameAll as bs = true →
    Argument.digestAll as = Argument.digestAll bs
  | [], [], _ => rfl
  | [], ⟨_, _, _⟩ :: _, h => by cases h
  | ⟨_, _, _⟩ :: _, [], h => by cases h
  | ⟨_, _, x⟩ :: as, ⟨_, _, y⟩ :: bs, h => by
    rw [Argument.sameAll, Bool.and_eq_true, Bool.and_eq_true, beq_iff_eq] at h
    obtain ⟨⟨rfl, hx⟩, h⟩ := h
    rw [Argument.digestAll, Argument.digestAll, Expr.digest_of_same hx,
      Argument.digestAll_of_sameAll h]

end

/-! ## Numbers and sites -/

mutual

/-- Where every literal has its number, trees that are the same are the same plain tree once their
sites are numbered, and use up as many numbers. -/
theorem Expr.plain_numberSites : ∀ {t u : Expr} {role role' : Role}, t.same u = true →
    t.everyNode WellShaped role → u.everyNode WellShaped role' → ∀ next,
      (t.numberSites next).1.plain = (u.numberSites next).1.plain ∧
        (t.numberSites next).2 = (u.numberSites next).2
  | .path _ _, _, _, _, h, _, _, next => by
    cases Expr.same_view h
    exact ⟨rfl, rfl⟩
  | .string _ _ _, _, _, _, h, _, _, next => by
    cases Expr.same_view h with
    | string hvalue =>
      have hchars := String.ofList_injective hvalue
      simp only [Expr.numberSites, Expr.plain, hchars, and_self]
  | .number _ _ _, _, _, _, h, ht, hu, next => by
    cases Expr.same_view h
    obtain rfl := Option.some.inj (ht.symm.trans hu)
    exact ⟨rfl, rfl⟩
  | .call _ _ _ _ args, _, _, _, h, ht, hu, next => by
    cases Expr.same_view h with
    | call hargs =>
      have hargs := Argument.plainAll_numberSites hargs ht.2 hu.2 (next + 1)
      simp only [Expr.numberSites, Expr.plain, hargs, and_self]
  | .list _ kind items, _, _, _, h, ht, hu, next => by
    cases Expr.same_view h with
    | list hitems =>
      have hitems := Expr.plainAll_numberAllSites hitems (everyNode_of_mem_items ht)
        (everyNode_of_mem_items hu) next
      simp only [Expr.numberSites, Expr.plain, hitems, and_self]
  | .unary _ _ _ operand, _, _, _, h, ht, hu, next => by
    cases Expr.same_view h with
    | unary hx =>
      have hx := Expr.plain_numberSites hx ht.2 hu.2 (next + 1)
      simp only [Expr.numberSites, Expr.plain, hx, and_self]
  | .binary _ _ _ left right, _, _, _, h, ht, hu, next => by
    cases Expr.same_view h with
    | binary hl hr =>
      obtain ⟨hleft, hmid⟩ := Expr.plain_numberSites hl ht.2.1 hu.2.1 (next + 1)
      have hright := Expr.plain_numberSites hr ht.2.2 hu.2.2
      simp only [Expr.numberSites, Expr.plain, hleft, hmid, hright, and_self]
  | .lambda _ parameters body, _, _, _, h, ht, hu, next => by
    cases Expr.same_view h with
    | lambda hp hb =>
      obtain ⟨hparameters, hmid⟩ := Expr.plain_numberSites hp ht.2.1 hu.2.1 next
      have hbody := Expr.plain_numberSites hb ht.2.2 hu.2.2
      simp only [Expr.numberSites, Expr.plain, hparameters, hmid, hbody, and_self]

theorem Expr.plainAll_numberAllSites : ∀ {xs ys : List Expr}, Expr.sameAll xs ys = true →
    (∀ x ∈ xs, ∃ role, x.everyNode WellShaped role) →
    (∀ y ∈ ys, ∃ role, y.everyNode WellShaped role) → ∀ next,
      Expr.plainAll (Expr.numberAllSites next xs).1 =
        Expr.plainAll (Expr.numberAllSites next ys).1 ∧
        (Expr.numberAllSites next xs).2 = (Expr.numberAllSites next ys).2
  | [], [], _, _, _, next => ⟨rfl, rfl⟩
  | [], _ :: _, h, _, _, _ => by cases h
  | _ :: _, [], h, _, _, _ => by cases h
  | x :: xs, y :: ys, h, hxs, hys, next => by
    rw [Expr.sameAll, Bool.and_eq_true] at h
    obtain ⟨⟨_, hx⟩, hxs⟩ := List.forall_mem_cons.mp hxs
    obtain ⟨⟨_, hy⟩, hys⟩ := List.forall_mem_cons.mp hys
    obtain ⟨hfirst, hmid⟩ := Expr.plain_numberSites h.1 hx hy next
    have hrest := Expr.plainAll_numberAllSites h.2 hxs hys
    simp only [Expr.numberAllSites, Expr.plainAll, hfirst, hmid, hrest, and_self]

theorem Argument.plainAll_numberSites : ∀ {as bs : List Argument}, Argument.sameAll as bs = true →
    Argument.everyNode WellShaped as → Argument.everyNode WellShaped bs → ∀ next,
      Argument.plainAll (Argument.numberSites next as).1 =
          Argument.plainAll (Argument.numberSites next bs).1 ∧
        (Argument.numberSites next as).2 = (Argument.numberSites next bs).2
  | [], [], _, _, _, next => ⟨rfl, rfl⟩
  | [], ⟨_, _, _⟩ :: _, h, _, _, _ => by cases h
  | ⟨_, _, _⟩ :: _, [], h, _, _, _ => by cases h
  | ⟨_, _, x⟩ :: as, ⟨_, _, y⟩ :: bs, h, has, hbs, next => by
    rw [Argument.sameAll, Bool.and_eq_true, Bool.and_eq_true, beq_iff_eq] at h
    obtain ⟨⟨rfl, hx⟩, h⟩ := h
    obtain ⟨hfirst, hmid⟩ := Expr.plain_numberSites hx has.1 hbs.1 next
    have hrest := Argument.plainAll_numberSites h has.2 hbs.2
    simp only [Argument.numberSites, Argument.plainAll, hfirst, hmid, hrest, and_self]

end

mutual

/-- Numbering the sites of a tree in which they are numbered already changes nothing. -/
theorem Expr.numberSites_numberSites : ∀ (e : Expr) (next : Nat),
    (e.numberSites next).1.numberSites next = e.numberSites next
  | .path _ _, _ | .string _ _ _, _ | .number _ _ _, _ => rfl
  | .call _ _ _ _ args, next => by
    simp only [Expr.numberSites, Argument.numberSites_numberSites args]
  | .list _ _ items, next => by
    simp only [Expr.numberSites, Expr.numberAllSites_numberAllSites items]
  | .unary _ _ _ operand, next => by
    simp only [Expr.numberSites, Expr.numberSites_numberSites operand]
  | .binary _ _ _ left right, next => by
    simp only [Expr.numberSites, Expr.numberSites_numberSites left,
      Expr.numberSites_numberSites right]
  | .lambda _ parameters body, next => by
    simp only [Expr.numberSites, Expr.numberSites_numberSites parameters,
      Expr.numberSites_numberSites body]

theorem Expr.numberAllSites_numberAllSites : ∀ (items : List Expr) (next : Nat),
    Expr.numberAllSites next (Expr.numberAllSites next items).1 = Expr.numberAllSites next items
  | [], _ => rfl
  | e :: rest, next => by
    simp only [Expr.numberAllSites, Expr.numberSites_numberSites e,
      Expr.numberAllSites_numberAllSites rest]

theorem Argument.numberSites_numberSites : ∀ (args : List Argument) (next : Nat),
    Argument.numberSites next (Argument.numberSites next args).1 = Argument.numberSites next args
  | [], _ => rfl
  | ⟨_, _, e⟩ :: rest, next => by
    simp only [Argument.numberSites, Expr.numberSites_numberSites e,
      Argument.numberSites_numberSites rest]

end

/-- Trees that were read without problems and are the same are the same plain tree. -/
theorem plain_eq_of_same {text text' : List Char} {place place' : Placement} {t u : Expr}
    (ht : parseAt text place = ⟨some t, []⟩) (hu : parseAt text' place' = ⟨some u, []⟩)
    (h : t.same u = true) : t.plain = u.plain := by
  have hshaped : ∀ {text : List Char} {place : Placement} {t : Expr},
      parseAt text place = ⟨some t, []⟩ →
        t.everyNode WellShaped .free ∧ (t.numberSites 0).1 = t := by
    intro text place t ht
    refine ⟨everyNode_of_parse .of_bare (fun hwritten => hwritten.shaped) ht, ?_⟩
    obtain ⟨e, _, _, _, _, rfl, -⟩ := exists_written ht
    exact congrArg Prod.fst (Expr.numberSites_numberSites _ 0)
  obtain ⟨htshaped, htnumbered⟩ := hshaped ht
  obtain ⟨hushaped, hunumbered⟩ := hshaped hu
  rw [← htnumbered, ← hunumbered]
  exact (Expr.plain_numberSites h htshaped hushaped 0).1

end Stencil
