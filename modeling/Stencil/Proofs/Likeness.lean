import Mathlib.Data.List.Forall2
import Stencil.Options
import Stencil.Value.Arithmetic
import Stencil.Value.Order
import Stencil.Value.Text

/-!
# Values that are alike

Nothing but an invocation shows what the body of a lambda looks like, and of its number nothing but
whether another lambda has the same. `Likeness` is a relation of values that differ in bodies and
numbers only: it is given by which lambdas are alike, and goes through arrays, objects, host values
and contexts part by part.

Whatever can be asked of a value without an invocation has the same answer for values that are
alike, or answers that are alike if these are values.
-/

namespace Stencil

/-- What values that are alike look like from outside, where it is said of which values and lambdas
they may consist. -/
inductive Value.View (Alike : Value → Value → Prop) (AlikeLambda : Lambda → Lambda → Prop) :
    Value → Value → Prop
  | null : View Alike AlikeLambda .null .null
  | bool (b : Bool) : View Alike AlikeLambda (.bool b) (.bool b)
  | int (n : Int64) : View Alike AlikeLambda (.int n) (.int n)
  | float (x : Float) : View Alike AlikeLambda (.float x) (.float x)
  | string (s : String) : View Alike AlikeLambda (.string s) (.string s)
  | array {items items' : List Value} (h : List.Forall₂ Alike items items') :
    View Alike AlikeLambda (.array items) (.array items')
  | object {members members' : List (String × Value)}
    (h : List.Forall₂ (fun m n => m.1 = n.1 ∧ Alike m.2 n.2) members members') :
    View Alike AlikeLambda (.object members) (.object members')
  | lambda {l k : Lambda} (h : AlikeLambda l k) : View Alike AlikeLambda (.lambda l) (.lambda k)
  | host {id : Nat} {typeName : String} {members members' hidden hidden' : List (String × Value)}
    (hmembers : List.Forall₂ (fun m n => m.1 = n.1 ∧ Alike m.2 n.2) members members')
    (hhidden : List.Forall₂ (fun m n => m.1 = n.1 ∧ Alike m.2 n.2) hidden hidden') :
    View Alike AlikeLambda (.host ⟨id, typeName, members, hidden⟩)
      (.host ⟨id, typeName, members', hidden'⟩)

/-- When values, lambdas and contexts are alike, up to bodies and numbers of lambdas. -/
structure Likeness where
  /-- When numbers of lambdas are alike: one is alike to one other at most. -/
  AlikeId : Nat → Nat → Prop
  Alike : Value → Value → Prop
  AlikeLambda : Lambda → Lambda → Prop
  AlikeContext : Context → Context → Prop
  alikeId_unique : ∀ {i j i' j'}, AlikeId i j → AlikeId i' j' → (i = i' ↔ j = j')
  alike_iff : ∀ {v w}, Alike v w ↔ Value.View Alike AlikeLambda v w
  alikeId_of_lambda : ∀ {l k}, AlikeLambda l k → AlikeId l.id k.id
  alikeContext_iff : ∀ {c d}, AlikeContext c d ↔ Alike c.value d.value ∧ c.key = d.key ∧
    c.isNatural = d.isNatural ∧ Option.Rel AlikeContext c.parent d.parent

namespace Likeness

/-- Values of the same key that are alike. -/
def AlikeMember (L : Likeness) (m n : String × Value) : Prop :=
  m.1 = n.1 ∧ L.Alike m.2 n.2

variable {L : Likeness} {v w v' w' : Value}

/-! ## Making values that are alike -/

theorem Alike.view (h : L.Alike v w) : Value.View L.Alike L.AlikeLambda v w :=
  L.alike_iff.mp h

@[simp] theorem alike_null : L.Alike .null .null :=
  L.alike_iff.mpr .null

@[simp] theorem alike_bool (b : Bool) : L.Alike (.bool b) (.bool b) :=
  L.alike_iff.mpr (.bool b)

@[simp] theorem alike_int (n : Int64) : L.Alike (.int n) (.int n) :=
  L.alike_iff.mpr (.int n)

@[simp] theorem alike_float (x : Float) : L.Alike (.float x) (.float x) :=
  L.alike_iff.mpr (.float x)

@[simp] theorem alike_string (s : String) : L.Alike (.string s) (.string s) :=
  L.alike_iff.mpr (.string s)

theorem alike_array {items items' : List Value} (h : List.Forall₂ L.Alike items items') :
    L.Alike (.array items) (.array items') :=
  L.alike_iff.mpr (.array h)

theorem alike_object {members members' : List (String × Value)}
    (h : List.Forall₂ L.AlikeMember members members') :
    L.Alike (.object members) (.object members') :=
  L.alike_iff.mpr (.object h)

theorem alike_lambda {l k : Lambda} (h : L.AlikeLambda l k) : L.Alike (.lambda l) (.lambda k) :=
  L.alike_iff.mpr (.lambda h)

@[simp] theorem alike_literal (l : Literal) : L.Alike l.toValue l.toValue := by
  rcases l with _ | b | (n | x) | s <;> exact L.alike_iff.mpr (by constructor)

/-! ## Questions answered without values -/

theorem Alike.type_eq (h : L.Alike v w) : v.type = w.type := by
  cases h.view <;> rfl

theorem commonType_eq {items items' : List Value} (h : List.Forall₂ L.Alike items items') :
    Value.commonType items = Value.commonType items' := by
  cases h with
  | nil => rfl
  | @cons v w rest rest' hvw hrest =>
    have hall : (rest.all fun x => x.type == v.type) = rest'.all fun x => x.type == w.type := by
      induction hrest with
      | nil => rfl
      | cons hab _ ih => rw [List.all_cons, List.all_cons, ih, hab.type_eq, hvw.type_eq]
    rw [Value.commonType, Value.commonType, hall, hvw.type_eq]

theorem alike_values {members members' : List (String × Value)}
    (h : List.Forall₂ L.AlikeMember members members') :
    List.Forall₂ L.Alike (members.map Prod.snd) (members'.map Prod.snd) :=
  List.forall₂_map_left_iff.mpr (List.forall₂_map_right_iff.mpr (h.imp fun _ _ h => h.2))

theorem Alike.shape_eq (h : L.Alike v w) : v.shape = w.shape := by
  cases h.view with
  | array hitems => simp only [Value.shape, Value.type, commonType_eq hitems]
  | object hmembers => simp only [Value.shape, Value.type, commonType_eq (alike_values hmembers)]
  | _ => rfl

mutual

theorem Alike.text_eq : ∀ {v w : Value}, L.Alike v w → v.text = w.text
  | .array items, _, h => by
    cases h.view with
    | array hitems => exact congrArg (", ".intercalate ·) (texts_eq hitems)
  | .null, _, h | .bool _, _, h | .int _, _, h | .float _, _, h | .string _, _, h
  | .object _, _, h | .lambda _, _, h | .host _, _, h => by
    cases h.view
    rfl

theorem texts_eq : ∀ {items items' : List Value}, List.Forall₂ L.Alike items items' →
    Value.texts items = Value.texts items'
  | [], _, .nil => rfl
  | _ :: _, _, .cons hvw hrest => congrArg₂ List.cons hvw.text_eq (texts_eq hrest)

end

theorem texts_map_eq {items items' : List Value} (h : List.Forall₂ L.Alike items items') :
    items.map Value.text = items'.map Value.text := by
  induction h with
  | nil => rfl
  | cons hvw _ ih => rw [List.map_cons, List.map_cons, hvw.text_eq, ih]

/-- Members that are alike are found under the same keys. -/
theorem alike_lookup {members members' : List (String × Value)}
    (h : List.Forall₂ L.AlikeMember members members') (key : String) :
    Option.Rel L.Alike (members.lookup key) (members'.lookup key) := by
  induction h with
  | nil => exact .none
  | @cons m n _ _ hmn _ ih =>
    obtain ⟨k, v⟩ := m
    obtain ⟨k', w⟩ := n
    obtain ⟨rfl, hvalue⟩ : k = k' ∧ L.Alike v w := hmn
    simp only [List.lookup_cons]
    split
    · exact .some hvalue
    · exact ih

mutual

theorem Alike.same_eq : ∀ {v w v' w' : Value}, L.Alike v w → L.Alike v' w' → v.same v' = w.same w'
  | .array _, _, _, _, h, h' => by
    cases h.view with
    | array hitems =>
      cases h'.view with
      | array hitems' => exact sameAll_eq hitems hitems'
      | _ => rfl
  | .object _, _, _, _, h, h' => by
    cases h.view with
    | object hmembers =>
      cases h'.view with
      | object hmembers' =>
        simp only [Value.same, hmembers.length_eq, hmembers'.length_eq,
          sameMembers_eq hmembers hmembers']
      | _ => rfl
  | .lambda _, _, _, _, h, h' => by
    cases h.view with
    | lambda hl =>
      cases h'.view with
      | lambda hl' =>
        have hsame := L.alikeId_unique (L.alikeId_of_lambda hl) (L.alikeId_of_lambda hl')
        simp only [Value.same, Bool.beq_eq_decide_eq, hsame]
      | _ => rfl
  | .null, _, _, _, h, h' | .bool _, _, _, _, h, h' | .int _, _, _, _, h, h'
  | .float _, _, _, _, h, h' | .string _, _, _, _, h, h' | .host _, _, _, _, h, h' => by
    cases h.view
    cases h'.view <;> rfl

theorem sameAll_eq : ∀ {as bs as' bs' : List Value}, List.Forall₂ L.Alike as bs →
    List.Forall₂ L.Alike as' bs' → Value.sameAll as as' = Value.sameAll bs bs'
  | [], _, _, _, .nil, .nil | [], _, _, _, .nil, .cons _ _ | _ :: _, _, _, _, .cons _ _, .nil => rfl
  | _ :: _, _, _, _, .cons h hrest, .cons h' hrest' =>
    congrArg₂ (· && ·) (h.same_eq h') (sameAll_eq hrest hrest')

theorem sameMembers_eq : ∀ {as bs as' bs' : List (String × Value)},
    List.Forall₂ L.AlikeMember as bs → List.Forall₂ L.AlikeMember as' bs' →
      Value.sameMembers as as' = Value.sameMembers bs bs'
  | [], _, _, _, .nil, _ => rfl
  | (key, _) :: _, (key', _) :: _, as', bs', .cons ⟨hkey, h⟩ hrest, h' => by
    obtain rfl : key = key' := hkey
    have hlookup := alike_lookup h' key
    rw [Value.sameMembers, Value.sameMembers, sameMembers_eq hrest h']
    generalize as'.lookup key = x at hlookup
    generalize bs'.lookup key = y at hlookup
    cases hlookup with
    | none => rfl
    | some hfound => exact congrArg (· && _) (h.same_eq hfound)

end

theorem Alike.asInt?_eq (h : L.Alike v w) : v.asInt? = w.asInt? := by
  cases h.view <;> rfl

theorem Alike.asFloat?_eq (h : L.Alike v w) : v.asFloat? = w.asFloat? := by
  cases h.view <;> rfl

theorem Alike.asString?_eq (h : L.Alike v w) : v.asString? = w.asString? := by
  cases h.view <;> rfl

theorem Alike.isNull_eq (h : L.Alike v w) : v.isNull = w.isNull := by
  cases h.view <;> rfl

theorem Alike.isNumber_eq (h : L.Alike v w) : v.isNumber = w.isNumber := by
  cases h.view <;> rfl

theorem Alike.isFalsey_eq (h : L.Alike v w) : v.isFalsey = w.isFalsey := by
  cases h.view with
  | array hitems => cases hitems <;> rfl
  | object hmembers => cases hmembers <;> rfl
  | _ => rfl

theorem Alike.compare?_eq (h : L.Alike v w) (h' : L.Alike v' w') :
    v.compare? v' = w.compare? w' := by
  cases h.view <;> cases h'.view <;> rfl

theorem Alike.looselySame_eq (h : L.Alike v w) (h' : L.Alike v' w') :
    v.looselySame v' = w.looselySame w' := by
  unfold Value.looselySame
  rw [h.isNumber_eq, h'.isNumber_eq, h.compare?_eq h', h.same_eq h']

/-- Arithmetic looks at numbers only, and gives numbers or null. -/
theorem Alike.arithmetic (op : Arithmetic) (h : L.Alike v w) (h' : L.Alike v' w') :
    L.Alike (op.apply v v') (op.apply w w') := by
  have hresult : op.apply v v' = op.apply w w' := by
    cases h.view <;> cases h'.view <;> rfl
  rw [hresult]
  unfold Arithmetic.apply Arithmetic.onWholes Arithmetic.onFloats Arithmetic.ofDecimal
  split <;> repeat' split
  all_goals simp

/-! ## Members -/

theorem alike_or {a b a' b' : Option Value} (h : Option.Rel L.Alike a a')
    (h' : Option.Rel L.Alike b b') : Option.Rel L.Alike (a.or b) (a'.or b') := by
  cases h with
  | none => exact h'
  | some h => exact .some h

theorem alike_getElem? {items items' : List Value} (h : List.Forall₂ L.Alike items items')
    (i : Nat) : Option.Rel L.Alike items[i]? items'[i]? := by
  induction h generalizing i with
  | nil => exact .none
  | cons hvw _ ih =>
    cases i with
    | zero => exact .some hvw
    | succ i => exact ih i

theorem alike_element? {items items' : List Value} (h : List.Forall₂ L.Alike items items')
    (index : Int) :
    Option.Rel L.Alike (Value.element? items index) (Value.element? items' index) := by
  unfold Value.element?
  rw [h.length_eq]
  split
  · exact alike_getElem? h _
  · split
    · exact alike_getElem? h _
    · exact .none

theorem Alike.intrinsic? (h : L.Alike v w) (key : String) :
    Option.Rel L.Alike (v.intrinsic? key) (w.intrinsic? key) := by
  cases h.view with
  | array hitems =>
    simp only [Value.intrinsic?, hitems.length_eq]
    split
    · exact .some (alike_int _)
    · cases readInt64? key.toList with
      | none => exact .none
      | some index => exact alike_element? hitems _
  | string s =>
    simp only [Value.intrinsic?]
    split
    · exact .some (alike_int _)
    · exact .none
  | _ => exact .none

theorem Alike.get? (h : L.Alike v w) (key : String) :
    Option.Rel L.Alike (v.get? key) (w.get? key) := by
  cases h.view with
  | object hmembers => exact alike_lookup hmembers key
  | host hmembers hhidden => exact alike_or (alike_lookup hmembers key) (alike_lookup hhidden key)
  | array _ | string _ => exact h.intrinsic? key
  | _ => exact .none

theorem Alike.members (h : L.Alike v w) : List.Forall₂ L.AlikeMember v.members w.members := by
  cases h.view with
  | object hmembers => exact hmembers
  | host hmembers _ => exact hmembers
  | @array items items' hitems =>
    -- The members of an array are its elements, with their positions as keys.
    have hindexed : ∀ start, List.Forall₂ L.AlikeMember
        ((items.zipIdx start).map fun x => (toString x.2, x.1))
        ((items'.zipIdx start).map fun x => (toString x.2, x.1)) := by
      clear h
      induction hitems with
      | nil => exact fun _ => .nil
      | cons hvw _ ih => exact fun start => .cons ⟨rfl, hvw⟩ (ih (start + 1))
    exact hindexed 0
  | _ => exact .nil

theorem alike_set {members members' : List (String × Value)}
    (h : List.Forall₂ L.AlikeMember members members') (key : String) (hv : L.Alike v w) :
    List.Forall₂ L.AlikeMember (Keyed.set key v members) (Keyed.set key w members') := by
  induction h with
  | nil => exact .cons ⟨rfl, hv⟩ .nil
  | @cons m n rest rest' hmn hrest ih =>
    obtain ⟨k, a⟩ := m
    obtain ⟨k', b⟩ := n
    obtain ⟨rfl, hvalue⟩ : k = k' ∧ L.Alike a b := hmn
    simp only [Keyed.set]
    split
    · exact .cons ⟨rfl, hv⟩ hrest
    · exact .cons ⟨rfl, hvalue⟩ ih

/-! ## Contexts -/

variable {c d : Context}

theorem AlikeContext.value (h : L.AlikeContext c d) : L.Alike c.value d.value :=
  (L.alikeContext_iff.mp h).1

theorem AlikeContext.parent (h : L.AlikeContext c d) :
    Option.Rel L.AlikeContext c.parent d.parent :=
  (L.alikeContext_iff.mp h).2.2.2

theorem AlikeContext.child (h : L.AlikeContext c d) (key : String) (hv : L.Alike v w) :
    L.AlikeContext (c.child key v) (d.child key w) :=
  L.alikeContext_iff.mpr ⟨hv, rfl, rfl, .some h⟩

theorem AlikeContext.synthetic (h : L.AlikeContext c d) (hv : L.Alike v w) :
    L.AlikeContext (c.synthetic v) (d.synthetic w) := by
  obtain ⟨-, hkey, -, hparent⟩ := L.alikeContext_iff.mp h
  exact L.alikeContext_iff.mpr ⟨hv, hkey, rfl, hparent⟩

theorem alikeContext_root : ∀ {c d : Context}, L.AlikeContext c d → L.AlikeContext c.root d.root
  | ⟨_, _, _, none⟩, ⟨_, _, _, none⟩, h => h
  | ⟨_, _, _, some p⟩, ⟨_, _, _, some q⟩, h => by
    cases h.parent with
    | some hp => exact alikeContext_root (c := p) (d := q) hp
  | ⟨_, _, _, none⟩, ⟨_, _, _, some _⟩, h | ⟨_, _, _, some _⟩, ⟨_, _, _, none⟩, h => by
    cases h.parent

theorem alikeContext_nearestNatural : ∀ {c d : Context}, L.AlikeContext c d →
    L.AlikeContext c.nearestNatural d.nearestNatural
  | ⟨_, _, true, _⟩, ⟨_, _, true, _⟩, h => h
  | ⟨_, _, false, none⟩, ⟨_, _, false, none⟩, h => h
  | ⟨_, _, false, some p⟩, ⟨_, _, false, some q⟩, h => by
    cases h.parent with
    | some hp => exact alikeContext_nearestNatural (c := p) (d := q) hp
  | ⟨_, _, false, none⟩, ⟨_, _, false, some _⟩, h
  | ⟨_, _, false, some _⟩, ⟨_, _, false, none⟩, h => by cases h.parent
  | ⟨_, _, true, _⟩, ⟨_, _, false, _⟩, h | ⟨_, _, false, _⟩, ⟨_, _, true, _⟩, h => by
    obtain ⟨-, -, hnatural, -⟩ := L.alikeContext_iff.mp h
    cases hnatural

theorem AlikeContext.enclosing (h : L.AlikeContext c d) :
    L.AlikeContext c.enclosing d.enclosing := by
  have hnatural := alikeContext_nearestNatural h
  have hparent := hnatural.parent
  unfold Context.enclosing
  generalize c.nearestNatural.parent = p at hparent
  generalize d.nearestNatural.parent = q at hparent
  cases hparent with
  | none => exact hnatural
  | some hp => exact hp

end Likeness

end Stencil
