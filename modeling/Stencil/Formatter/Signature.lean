import Stencil.EvalError
import Stencil.Value.Text

/-!
# Signatures

A formatter has overloads, and a signature describes one of them: the type of the value it works
on, its parameters, and what it does. What it does is either a function of the call or a routine,
which can have lambdas invoked on the way to its result, give the evaluation up, and fail.
-/

namespace Stencil

/-! ## Types of parameters -/

/-- The values that a parameter takes. -/
inductive ParamType where
  | any
  | boolean
  | integer
  /-- Doubles, and whole numbers made doubles. -/
  | float
  /-- Whole numbers and doubles as they are. -/
  | number
  /-- Strings, and the text of all but lambdas. -/
  | string
  | array (element : ParamType)
  | object (element : ParamType)
  | lambda
  /-- Host values of one type. -/
  | host (name : String)
  /-- Values of one type that the call decides. -/
  | generic (name : String)
deriving DecidableEq, Repr

namespace ParamType

/-- The type as signatures write it. -/
def text : ParamType → String
  | any => "any"
  | boolean => "boolean"
  | integer => "integer"
  | float => "float"
  | number => "number"
  | string => "string"
  | array element => "array<" ++ element.text ++ ">"
  | object element => "object<" ++ element.text ++ ">"
  | lambda => "lambda"
  | host name => name
  | generic name => name

/-- How much a collection with such elements says about itself. -/
def elementSpecificity : ParamType → Nat
  | any | generic _ => 2
  | _ => 3

/-- How much a type says about its values. Between overloads that are equally good otherwise the one
that says more is chosen. -/
def specificity : ParamType → Nat
  | any => 0
  | generic _ => 1
  | number => 2
  | array element | object element => element.elementSpecificity
  | _ => 3

end ParamType

/-! ## Parameters -/

/-- What a parameter gets when a call does not supply it. -/
inductive ParamKind where
  /-- It has to be supplied. -/
  | required
  /-- It gets a default. -/
  | optional (default : Value)
  /-- It gets all arguments by position that are left, as an array. -/
  | rest

structure Param where
  name : String
  /-- Another name by which arguments can be given. -/
  alternative : Option String
  type : ParamType
  kind : ParamKind

namespace Param

def isRest (p : Param) : Bool :=
  match p.kind with
  | .rest => true
  | _ => false

def isRequired (p : Param) : Bool :=
  match p.kind with
  | .required => true
  | _ => false

/-- The parameter as signatures write it. -/
def text (p : Param) : String :=
  (if p.isRest then "..." else "") ++ p.name ++ ": " ++ p.type.text
    ++ (match p.alternative with
      | some name => " [" ++ name ++ "]"
      | none => "")
    ++ match p.kind with
      | .optional default => " = " ++ default.inspect
      | _ => ""

/-- A parameter that has to be supplied. -/
def needed (name : String) (type : ParamType) : Param :=
  ⟨name, none, type, .required⟩

/-- A parameter that may be left out. -/
def default (name : String) (type : ParamType) (value : Value) : Param :=
  ⟨name, none, type, .optional value⟩

/-- A parameter that gets all that is left. -/
def remaining (name : String) (type : ParamType) : Param :=
  ⟨name, none, type, .rest⟩

end Param

/-! ## Calls -/

/-- What a formatter gets to see of a call. -/
structure Call where
  value : Value
  /-- One for each declared parameter, in their order. -/
  arguments : List Value
  /-- The types that the type parameters stand for, in the order in which they were found. -/
  types : List (String × ValueType)
  culture : String
  /-- How many lambdas are running around the call. -/
  depth : Nat
  /-- Which values count as false. -/
  isFalsey : Value → Bool

/-- The argument of a parameter, null if there is none. -/
def Call.argument (c : Call) (index : Nat) : Value :=
  c.arguments.getD index .null

/-- Whether a value counts as true. -/
def Call.isTruthy (c : Call) (v : Value) : Bool :=
  !c.isFalsey v

/-- A computation that has lambdas invoked by whoever runs it. -/
inductive Routine (α : Type) where
  | done (result : α)
  /-- Fails, with an error that an invocation came to. An overflow that none came to is none of a
  routine's own, so it counts as giving up. -/
  | fail (e : EvalError)
  /-- Has a lambda invoked, and goes on with what it gives, or with the error that it fails with. -/
  | ask (l : Lambda) (arguments : List Value) (next : Value → Routine α)
      (rescue : EvalError → Routine α)
  /-- Gives the whole evaluation up, which ends the routine only where it pauses. -/
  | cancel (next : Routine α)
  /-- Waits for something else, unless the evaluation was given up. -/
  | pause (next : Routine α)

namespace Routine

variable {α β : Type}

/-- Has a lambda invoked, and fails if it does. -/
def invoke (l : Lambda) (arguments : List Value) (next : Value → Routine α) : Routine α :=
  ask l arguments next fail

def map (f : α → β) : Routine α → Routine β
  | done a => done (f a)
  | fail e => fail e
  | ask l arguments next rescue =>
    ask l arguments (fun v => (next v).map f) fun e => (rescue e).map f
  | cancel next => cancel (next.map f)
  | pause next => pause (next.map f)

/-- The results of a lambda on several values, one after the other. -/
def callEach (l : Lambda) : List Value → Routine (List Value)
  | [] => done []
  | v :: rest => invoke l [v] fun result => (callEach l rest).map (result :: ·)

/-- The values for which a lambda gives something that passes a test. -/
def keepEach (l : Lambda) (keeps : Value → Bool) : List Value → Routine (List Value)
  | [] => done []
  | v :: rest => invoke l [v] fun result =>
    (keepEach l keeps rest).map fun kept => if keeps result then v :: kept else kept

end Routine

/-! ## Overloads -/

/-- What an overload does. -/
inductive Action where
  /-- The result is known at once. -/
  | compute (f : Call → Value)
  /-- The result has to be waited for. -/
  | wait (f : Call → Routine Value)

structure Signature where
  /-- An overload without a name is tried where no named one fits. -/
  name : Option String
  valueType : ParamType
  params : List Param
  action : Action
  /-- Whether a call gives the whole evaluation up at once, before its result is waited for. -/
  cancels : Call → Bool
  description : Option String

namespace Signature

/-- An overload that computes its result. -/
def computing (name : String) (valueType : ParamType) (params : List Param) (f : Call → Value) :
    Signature :=
  ⟨some name, valueType, params, .compute f, fun _ => false, none⟩

/-- An overload whose result has to be waited for. -/
def waiting (name : String) (valueType : ParamType) (params : List Param)
    (f : Call → Routine Value) : Signature :=
  ⟨some name, valueType, params, .wait f, fun _ => false, none⟩

/-- The overload with a description. -/
def describe (s : Signature) (description : String) : Signature :=
  { s with description := some description }

/-- Whether a result has to be waited for. -/
def isWaiting (s : Signature) : Bool :=
  match s.action with
  | .compute _ => false
  | .wait _ => true

/-- Number of parameters that have to be supplied. -/
def requiredCount (s : Signature) : Nat :=
  s.params.countP Param.isRequired

/-- Whether one of the parameters gets all that is left. -/
def hasRest (s : Signature) : Bool :=
  s.params.any Param.isRest

/-- The signature as text. -/
def text (s : Signature) : String :=
  s.name.getD "<default>" ++ "(this: " ++ s.valueType.text
    ++ String.join (s.params.map fun p => ", " ++ p.text) ++ ")"
    ++ if s.isWaiting then " async" else ""

/-- The line of a listing, with the description below. -/
def listing (s : Signature) : String :=
  match s.description with
  | some description => s.text ++ "\n    " ++ description
  | none => s.text

end Signature

end Stencil
