import Stencil.Proofs.Bodies
import Stencil.Scope

/-!
# Lambdas in reach

What can be done with a value depends on the lambdas in reach of it: those in it, and those in reach
of the contexts that these remember. `Value.Reaches` says which these are. There are none in reach
of data (`Value.isData`).

Values are alike by a relation of lambdas if they are the same but for lambdas, and these are
related, and so on in the contexts that they remember (`Likeness.ofLambdas`). A value is alike to
itself if each lambda in reach is related to itself (`Value.alikeBy_self`).
-/

namespace Stencil

/-! ## Reach -/

mutual

/-- The lambda is in reach of the value. -/
inductive Value.Reaches (l : Lambda) : Value → Prop
  | here : Value.Reaches l (.lambda l)
  | captured {k : Lambda} (h : Context.Reaches l k.captured) : Value.Reaches l (.lambda k)
  | item {items : List Value} {v : Value} (hv : v ∈ items) (h : Value.Reaches l v) :
    Value.Reaches l (.array items)
  | member {members : List (String × Value)} {m : String × Value} (hm : m ∈ members)
    (h : Value.Reaches l m.2) : Value.Reaches l (.object members)
  | hostMember {host : Host} {m : String × Value} (hm : m ∈ host.members)
    (h : Value.Reaches l m.2) : Value.Reaches l (.host host)
  | hostHidden {host : Host} {m : String × Value} (hm : m ∈ host.hidden)
    (h : Value.Reaches l m.2) : Value.Reaches l (.host host)

/-- The lambda is in reach of the context, or of one around it. -/
inductive Context.Reaches (l : Lambda) : Context → Prop
  | value {c : Context} (h : Value.Reaches l c.value) : Context.Reaches l c
  | parent {c p : Context} (hp : c.parent = some p) (h : Context.Reaches l p) : Context.Reaches l c

end

/-- The lambda is in reach of a variable of the scope. -/
def Scope.Reaches (l : Lambda) (s : Scope) : Prop :=
  ∃ f ∈ s.frames, ∃ m ∈ f, m.2.Reaches l

theorem Scope.not_reaches_ofOptions (o : Options) (l : Lambda) :
    ¬ (Scope.ofOptions o).Reaches l := by
  rintro ⟨f, hf, m, hm, -⟩
  obtain rfl := List.mem_singleton.mp hf
  cases hm

mutual

/-- There is no lambda in the value. -/
def Value.isData : Value → Bool
  | .null | .bool _ | .int _ | .float _ | .string _ => true
  | .array items => Value.allData items
  | .object members => Value.membersData members
  | .lambda _ => false
  | .host ⟨_, _, members, hidden⟩ => Value.membersData members && Value.membersData hidden

def Value.allData : List Value → Bool
  | [] => true
  | v :: rest => v.isData && Value.allData rest

def Value.membersData : List (String × Value) → Bool
  | [] => true
  | (_, v) :: rest => v.isData && Value.membersData rest

end

/-- There is no lambda in the context and in those around it. -/
def Context.isData : Context → Bool
  | ⟨v, _, _, none⟩ => v.isData
  | ⟨v, _, _, some p⟩ => v.isData && p.isData

section

variable {l : Lambda}

mutual

theorem Value.not_reaches_of_isData : ∀ {v : Value}, v.isData = true → ¬ v.Reaches l
  | .array _, h, .item hv hl => Value.not_reaches_of_allData h _ hv hl
  | .object _, h, .member hm hl => Value.not_reaches_of_membersData h _ hm hl
  | .host ⟨_, _, _, _⟩, h, .hostMember hm hl =>
    Value.not_reaches_of_membersData (Bool.and_eq_true_iff.mp h).1 _ hm hl
  | .host ⟨_, _, _, _⟩, h, .hostHidden hm hl =>
    Value.not_reaches_of_membersData (Bool.and_eq_true_iff.mp h).2 _ hm hl

theorem Value.not_reaches_of_allData : ∀ {items : List Value}, Value.allData items = true →
    ∀ v ∈ items, ¬ v.Reaches l
  | [], _ => by simp
  | _ :: _, h => List.forall_mem_cons.mpr
    ⟨Value.not_reaches_of_isData (Bool.and_eq_true_iff.mp h).1,
      Value.not_reaches_of_allData (Bool.and_eq_true_iff.mp h).2⟩

theorem Value.not_reaches_of_membersData : ∀ {members : List (String × Value)},
    Value.membersData members = true → ∀ m ∈ members, ¬ m.2.Reaches l
  | [], _ => by simp
  | (_, _) :: _, h => List.forall_mem_cons.mpr
    ⟨Value.not_reaches_of_isData (Bool.and_eq_true_iff.mp h).1,
      Value.not_reaches_of_membersData (Bool.and_eq_true_iff.mp h).2⟩

end

theorem Context.not_reaches_of_isData : ∀ {c : Context}, c.isData = true → ¬ c.Reaches l
  | ⟨_, _, _, none⟩, h, .value hl => Value.not_reaches_of_isData h hl
  | ⟨_, _, _, some _⟩, h, .value hl =>
    Value.not_reaches_of_isData (Bool.and_eq_true_iff.mp h).1 hl
  | ⟨_, _, _, some _⟩, h, .parent rfl hl =>
    Context.not_reaches_of_isData (Bool.and_eq_true_iff.mp h).2 hl

end

/-! ## Values of related lambdas -/

section AlikeBy

variable (P : Lambda → Lambda → Prop)

mutual

/-- The values are the same but for lambdas, and these are related. -/
inductive Value.AlikeBy : Value → Value → Prop
  | null : Value.AlikeBy .null .null
  | bool (b : Bool) : Value.AlikeBy (.bool b) (.bool b)
  | int (n : Int64) : Value.AlikeBy (.int n) (.int n)
  | float (x : Float) : Value.AlikeBy (.float x) (.float x)
  | string (s : String) : Value.AlikeBy (.string s) (.string s)
  | array {items items' : List Value} (h : List.Forall₂ Value.AlikeBy items items') :
    Value.AlikeBy (.array items) (.array items')
  | object {members members' : List (String × Value)}
    (h : List.Forall₂ Value.MembersAlikeBy members members') :
    Value.AlikeBy (.object members) (.object members')
  | lambda {l k : Lambda} (h : Lambda.AlikeBy l k) : Value.AlikeBy (.lambda l) (.lambda k)
  | host {id : Nat} {typeName : String} {members members' hidden hidden' : List (String × Value)}
    (hmembers : List.Forall₂ Value.MembersAlikeBy members members')
    (hhidden : List.Forall₂ Value.MembersAlikeBy hidden hidden') :
    Value.AlikeBy (.host ⟨id, typeName, members, hidden⟩)
      (.host ⟨id, typeName, members', hidden'⟩)

inductive Value.MembersAlikeBy : String × Value → String × Value → Prop
  | mk (key : String) {v w : Value} (h : Value.AlikeBy v w) :
    Value.MembersAlikeBy (key, v) (key, w)

inductive Lambda.AlikeBy : Lambda → Lambda → Prop
  | mk {l k : Lambda} (h : P l k) (hcaptured : Context.AlikeBy l.captured k.captured) :
    Lambda.AlikeBy l k

inductive Context.AlikeBy : Context → Context → Prop
  | mk {v w : Value} (key : String) (isNatural : Bool) {p q : Option Context}
    (hvalue : Value.AlikeBy v w) (hparent : Option.Rel Context.AlikeBy p q) :
    Context.AlikeBy ⟨v, key, isNatural, p⟩ ⟨w, key, isNatural, q⟩

end

end AlikeBy

section Views

variable {P : Lambda → Lambda → Prop}

theorem Value.membersAlikeBy_iff {m n : String × Value} :
    Value.MembersAlikeBy P m n ↔ m.1 = n.1 ∧ m.2.AlikeBy P n.2 := by
  constructor
  · intro h
    cases h with
    | mk key h => exact ⟨rfl, h⟩
  · obtain ⟨key, v⟩ := m
    obtain ⟨key', w⟩ := n
    rintro ⟨rfl, h⟩
    exact .mk key h

theorem Value.alikeBy_iff {v w : Value} :
    v.AlikeBy P w ↔ Value.View (Value.AlikeBy P) (Lambda.AlikeBy P) v w := by
  constructor
  · intro h
    cases h with
    | array h => exact .array h
    | object h => exact .object (h.imp fun _ _ => membersAlikeBy_iff.mp)
    | lambda h => exact .lambda h
    | host hmembers hhidden =>
      exact .host (hmembers.imp fun _ _ => membersAlikeBy_iff.mp)
        (hhidden.imp fun _ _ => membersAlikeBy_iff.mp)
    | _ => constructor
  · intro h
    cases h with
    | array h => exact .array h
    | object h => exact .object (h.imp fun _ _ => membersAlikeBy_iff.mpr)
    | lambda h => exact .lambda h
    | host hmembers hhidden =>
      exact .host (hmembers.imp fun _ _ => membersAlikeBy_iff.mpr)
        (hhidden.imp fun _ _ => membersAlikeBy_iff.mpr)
    | _ => constructor

theorem Lambda.alikeBy_iff {l k : Lambda} :
    l.AlikeBy P k ↔ P l k ∧ l.captured.AlikeBy P k.captured := by
  constructor
  · intro h
    cases h with
    | mk h hcaptured => exact ⟨h, hcaptured⟩
  · exact fun h => .mk h.1 h.2

theorem Context.alikeBy_iff {c d : Context} : c.AlikeBy P d ↔ c.value.AlikeBy P d.value ∧
    c.key = d.key ∧ c.isNatural = d.isNatural ∧
      Option.Rel (Context.AlikeBy P) c.parent d.parent := by
  obtain ⟨v, key, natural, p⟩ := c
  obtain ⟨w, key', natural', q⟩ := d
  constructor
  · intro h
    cases h with
    | mk _ _ hvalue hparent => exact ⟨hvalue, rfl, rfl, hparent⟩
  · rintro ⟨hvalue, ⟨⟩, ⟨⟩, hparent⟩
    exact .mk _ _ hvalue hparent

end Views

/-- Values are alike that are the same but for related lambdas. No number of a lambda is related to
two others. -/
def Likeness.ofLambdas {ids : Nat → Nat → Prop}
    (hids : ∀ {i j i' j'}, ids i j → ids i' j' → (i = i' ↔ j = j'))
    (P : Lambda → Lambda → Prop) (hP : ∀ {l k}, P l k → ids l.id k.id) : Likeness where
  AlikeId := ids
  Alike := Value.AlikeBy P
  AlikeLambda := Lambda.AlikeBy P
  AlikeContext := Context.AlikeBy P
  alikeId_unique := hids
  alike_iff := Value.alikeBy_iff
  alikeId_of_lambda h := hP (Lambda.alikeBy_iff.mp h).1
  alikeContext_iff := Context.alikeBy_iff

/-! ## Values that are alike to themselves -/

section Self

variable {P : Lambda → Lambda → Prop}

mutual

theorem Value.alikeBy_self : ∀ v : Value, (∀ l, v.Reaches l → P l l) → v.AlikeBy P v
  | .null, _ => .null
  | .bool b, _ => .bool b
  | .int n, _ => .int n
  | .float x, _ => .float x
  | .string s, _ => .string s
  | .array items, h => .array (Value.allAlikeBy_self items fun _ hv l hl => h l (.item hv hl))
  | .object members, h =>
    .object (Value.membersAlikeBy_self members fun _ hm l hl => h l (.member hm hl))
  | .lambda l, h => .lambda (l.alikeBy_self (h l .here) fun k hk => h k (.captured hk))
  | .host ⟨_, _, members, hidden⟩, h =>
    .host (Value.membersAlikeBy_self members fun _ hm l hl => h l (.hostMember hm hl))
      (Value.membersAlikeBy_self hidden fun _ hm l hl => h l (.hostHidden hm hl))

theorem Value.allAlikeBy_self : ∀ items : List Value,
    (∀ v ∈ items, ∀ l, v.Reaches l → P l l) → List.Forall₂ (Value.AlikeBy P) items items
  | [], _ => .nil
  | v :: rest, h =>
    .cons (v.alikeBy_self (h v List.mem_cons_self))
      (Value.allAlikeBy_self rest fun w hw => h w (List.mem_cons_of_mem v hw))

theorem Value.membersAlikeBy_self : ∀ members : List (String × Value),
    (∀ m ∈ members, ∀ l, m.2.Reaches l → P l l) →
      List.Forall₂ (Value.MembersAlikeBy P) members members
  | [], _ => .nil
  | (key, v) :: rest, h =>
    .cons (.mk key (v.alikeBy_self (h (key, v) List.mem_cons_self)))
      (Value.membersAlikeBy_self rest fun m hm => h m (List.mem_cons_of_mem _ hm))

theorem Lambda.alikeBy_self : ∀ l : Lambda, P l l → (∀ k, l.captured.Reaches k → P k k) →
    l.AlikeBy P l
  | ⟨_, _, _, captured⟩, h, hcaptured => .mk h (captured.alikeBy_self hcaptured)

theorem Context.alikeBy_self : ∀ c : Context, (∀ l, c.Reaches l → P l l) → c.AlikeBy P c
  | ⟨v, key, isNatural, none⟩, h =>
    .mk key isNatural (v.alikeBy_self fun l hl => h l (.value hl)) .none
  | ⟨v, key, isNatural, some p⟩, h =>
    .mk key isNatural (v.alikeBy_self fun l hl => h l (.value hl))
      (.some (p.alikeBy_self fun l hl => h l (.parent rfl hl)))

end

end Self

/-! ## Changing bodies of related lambdas -/

section MapBodies

/-- Lambdas that are related become the same when the bodies are changed, but for the contexts that
they remember. -/
def LambdaBody.Merges (f : LambdaBody → LambdaBody) (P : Lambda → Lambda → Prop) : Prop :=
  ∀ l k, P l k → l.id = k.id ∧ l.parameters = k.parameters ∧ f l.body = f k.body

variable {P : Lambda → Lambda → Prop} {f : LambdaBody → LambdaBody}

mutual

/-- Values that are alike become equal if related lambdas do. -/
theorem Value.AlikeBy.mapBodies_eq (hP : LambdaBody.Merges f P) : ∀ {v w : Value},
    v.AlikeBy P w → v.mapBodies f = w.mapBodies f
  | .null, _, h | .bool _, _, h | .int _, _, h | .float _, _, h | .string _, _, h => by
    cases h
    rfl
  | .array _, _, h => by
    cases h with
    | array h => exact congrArg Value.array (Value.AlikeBy.mapAllBodies_eq hP h)
  | .object _, _, h => by
    cases h with
    | object h => exact congrArg Value.object (Value.AlikeBy.mapMemberBodies_eq hP h)
  | .lambda _, _, h => by
    cases h with
    | lambda h => exact congrArg Value.lambda (Lambda.AlikeBy.mapBodies_eq hP h)
  | .host ⟨_, _, _, _⟩, _, h => by
    cases h with
    | host hmembers hhidden =>
      simp only [Value.mapBodies, Host.mapBodies, Value.AlikeBy.mapMemberBodies_eq hP hmembers,
        Value.AlikeBy.mapMemberBodies_eq hP hhidden]

theorem Value.AlikeBy.mapAllBodies_eq (hP : LambdaBody.Merges f P) :
    ∀ {items items' : List Value},
    List.Forall₂ (Value.AlikeBy P) items items' →
      Value.mapAllBodies f items = Value.mapAllBodies f items'
  | [], _, .nil => rfl
  | _ :: _, _, .cons h hrest =>
    congrArg₂ List.cons (Value.AlikeBy.mapBodies_eq hP h) (Value.AlikeBy.mapAllBodies_eq hP hrest)

theorem Value.AlikeBy.mapMemberBodies_eq (hP : LambdaBody.Merges f P) :
    ∀ {members members' : List (String × Value)},
    List.Forall₂ (Value.MembersAlikeBy P) members members' →
      Value.mapMemberBodies f members = Value.mapMemberBodies f members'
  | [], _, .nil => rfl
  | (_, _) :: _, _, .cons h hrest => by
    cases h with
    | mk key h =>
      simp only [Value.mapMemberBodies, Value.AlikeBy.mapBodies_eq hP h,
        Value.AlikeBy.mapMemberBodies_eq hP hrest]

theorem Lambda.AlikeBy.mapBodies_eq (hP : LambdaBody.Merges f P) : ∀ {l k : Lambda},
    l.AlikeBy P k → l.mapBodies f = k.mapBodies f
  | ⟨_, _, _, _⟩, ⟨_, _, _, _⟩, h => by
    obtain ⟨h, hcaptured⟩ := Lambda.alikeBy_iff.mp h
    obtain ⟨rfl, rfl, hbody⟩ := hP _ _ h
    simp only [Lambda.mapBodies, hbody, Context.AlikeBy.mapBodies_eq hP hcaptured]

theorem Context.AlikeBy.mapBodies_eq (hP : LambdaBody.Merges f P) : ∀ {c d : Context},
    c.AlikeBy P d → c.mapBodies f = d.mapBodies f
  | ⟨_, _, _, none⟩, _, h => by
    cases h with
    | mk _ _ hvalue hparent =>
      cases hparent
      simp only [Context.mapBodies, Value.AlikeBy.mapBodies_eq hP hvalue]
  | ⟨_, _, _, some _⟩, _, h => by
    cases h with
    | mk _ _ hvalue hparent =>
      cases hparent with
      | some hparent =>
        simp only [Context.mapBodies, Context.mapParentBodies, Value.AlikeBy.mapBodies_eq hP hvalue,
          Context.AlikeBy.mapBodies_eq hP hparent]

end

end MapBodies

end Stencil
