import Stencil.Proofs.Likeness

/-!
# Changing the bodies of lambdas

`Value.mapBodies` changes the body of every lambda in a value, of those in reach through the
contexts of lambdas too. Values that become equal by this are alike (`Likeness.ofBodies`).
-/

namespace Stencil

mutual

/-- The value with the bodies of all lambdas changed by `f`. -/
def Value.mapBodies (f : LambdaBody → LambdaBody) : Value → Value
  | .null => .null
  | .bool b => .bool b
  | .int n => .int n
  | .float x => .float x
  | .string s => .string s
  | .array items => .array (Value.mapAllBodies f items)
  | .object members => .object (Value.mapMemberBodies f members)
  | .lambda l => .lambda (l.mapBodies f)
  | .host h => .host (h.mapBodies f)

def Value.mapAllBodies (f : LambdaBody → LambdaBody) : List Value → List Value
  | [] => []
  | v :: rest => v.mapBodies f :: Value.mapAllBodies f rest

def Value.mapMemberBodies (f : LambdaBody → LambdaBody) :
    List (String × Value) → List (String × Value)
  | [] => []
  | (key, v) :: rest => (key, v.mapBodies f) :: Value.mapMemberBodies f rest

def Lambda.mapBodies (f : LambdaBody → LambdaBody) : Lambda → Lambda
  | ⟨id, parameters, body, captured⟩ => ⟨id, parameters, f body, captured.mapBodies f⟩

def Host.mapBodies (f : LambdaBody → LambdaBody) : Host → Host
  | ⟨id, typeName, members, hidden⟩ =>
    ⟨id, typeName, Value.mapMemberBodies f members, Value.mapMemberBodies f hidden⟩

def Context.mapBodies (f : LambdaBody → LambdaBody) : Context → Context
  | ⟨value, key, isNatural, parent⟩ =>
    ⟨value.mapBodies f, key, isNatural, Context.mapParentBodies f parent⟩

def Context.mapParentBodies (f : LambdaBody → LambdaBody) : Option Context → Option Context
  | none => none
  | some c => some (c.mapBodies f)

end

namespace Likeness

variable {f : LambdaBody → LambdaBody}

theorem allBodies_iff {items items' : List Value} :
    List.Forall₂ (fun v w => v.mapBodies f = w.mapBodies f) items items' ↔
      Value.mapAllBodies f items = Value.mapAllBodies f items' := by
  induction items generalizing items' with
  | nil => cases items' <;> simp [Value.mapAllBodies]
  | cons v rest ih => cases items' <;> simp [Value.mapAllBodies, ih]

theorem memberBodies_iff {members members' : List (String × Value)} :
    List.Forall₂ (fun m n => m.1 = n.1 ∧ m.2.mapBodies f = n.2.mapBodies f) members members' ↔
      Value.mapMemberBodies f members = Value.mapMemberBodies f members' := by
  induction members generalizing members' with
  | nil => cases members' <;> simp [Value.mapMemberBodies]
  | cons m rest ih => cases members' <;> simp [Value.mapMemberBodies, ih]

theorem view_mapBodies {v w : Value} (h : v.mapBodies f = w.mapBodies f) :
    Value.View (fun v w => v.mapBodies f = w.mapBodies f)
      (fun l k => l.mapBodies f = k.mapBodies f) v w := by
  cases v <;> cases w <;> simp only [Value.mapBodies, reduceCtorEq, Value.bool.injEq,
    Value.int.injEq, Value.float.injEq, Value.string.injEq, Value.array.injEq, Value.object.injEq,
    Value.lambda.injEq, Value.host.injEq] at h
  · exact .null
  · exact h ▸ .bool _
  · exact h ▸ .int _
  · exact h ▸ .float _
  · exact h ▸ .string _
  · exact .array (allBodies_iff.mpr h)
  · exact .object (memberBodies_iff.mpr h)
  · exact .lambda h
  · next x y =>
    obtain ⟨id, typeName, members, hidden⟩ := x
    obtain ⟨id', typeName', members', hidden'⟩ := y
    simp only [Host.mapBodies, Host.mk.injEq] at h
    obtain ⟨rfl, rfl, hmembers, hhidden⟩ := h
    exact .host (memberBodies_iff.mpr hmembers) (memberBodies_iff.mpr hhidden)

/-- Values are alike if they become equal when the bodies of lambdas are changed by `f`. -/
def ofBodies (f : LambdaBody → LambdaBody) : Likeness where
  AlikeId i j := i = j
  Alike v w := v.mapBodies f = w.mapBodies f
  AlikeLambda l k := l.mapBodies f = k.mapBodies f
  AlikeContext c d := c.mapBodies f = d.mapBodies f
  alikeId_unique := Eq.congr
  alike_iff := by
    refine ⟨view_mapBodies, fun h => ?_⟩
    cases h with
    | array hitems => exact congrArg Value.array (allBodies_iff.mp hitems)
    | object hmembers => exact congrArg Value.object (memberBodies_iff.mp hmembers)
    | lambda hl => exact congrArg Value.lambda hl
    | host hmembers hhidden =>
      simp only [Value.mapBodies, Host.mapBodies, memberBodies_iff.mp hmembers,
        memberBodies_iff.mp hhidden]
    | _ => rfl
  alikeId_of_lambda := by
    rintro ⟨id, parameters, body, captured⟩ ⟨id', parameters', body', captured'⟩ h
    exact (Lambda.mk.inj h).1
  alikeContext_iff := by
    rintro ⟨v, key, natural, p⟩ ⟨w, key', natural', q⟩
    simp only [Context.mapBodies, Context.mk.injEq]
    cases p <;> cases q <;> simp [Context.mapParentBodies]

/-- Lambdas are alike if their bodies become equal, and all else is. -/
theorem lambdaBodies_iff {l k : Lambda} : (ofBodies f).AlikeLambda l k ↔ l.id = k.id ∧
    l.parameters = k.parameters ∧ f l.body = f k.body ∧
      (ofBodies f).AlikeContext l.captured k.captured := by
  obtain ⟨id, parameters, body, captured⟩ := l
  obtain ⟨id', parameters', body', captured'⟩ := k
  show Lambda.mapBodies f _ = Lambda.mapBodies f _ ↔ _
  simp only [Lambda.mapBodies, Lambda.mk.injEq]
  exact Iff.rfl

end Likeness

end Stencil
