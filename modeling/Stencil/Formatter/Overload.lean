import Stencil.Formatter.Registry

/-!
# Choice of an overload

For a call, every overload with the right name is bound: the value first, then arguments given by
name, then arguments given by position. Of the overloads that can be bound the best one is taken.
Better is, in this order,

1. an overload that needs neither a list for what is left nor a default, and one without defaults
   rather than one with,
2. less conversion,
3. types that say more,
4. the one registered first.

An overload without a name is taken only where no named one can be bound.
-/

namespace Stencil

/-- An argument of a call, after its expression was evaluated. -/
structure Supplied where
  name : Option String
  value : Value

/-! ## Fitting a value to a type -/

/-- The types that type parameters stand for, in the order in which they were found. -/
abbrev TypeArguments := List (String × ValueType)

/-- An attempt to fit values to types. What was found out about type parameters stays found out,
also if the attempt fails. -/
abbrev Fitting (α : Type) := TypeArguments → Option α × TypeArguments

/-- Takes a type for a type parameter. A type parameter stands for one type only. -/
def fitGeneric (name : String) (type : ValueType) : Fitting Conversion := fun types =>
  match types.lookup name with
  | some known => (if known = type then some .keep else none, types)
  | none => (some .keep, Keyed.set name type types)

/-- Fits all elements by one conversion, the costliest that an element needs. -/
def fitEach (fit : Value → Fitting Conversion) : List Value → Conversion → Fitting Conversion
  | [], widest => fun types => (some (if widest.isKeep then .keep else .elements widest), types)
  | v :: rest, widest => fun types =>
    match fit v types with
    | (none, types) => (none, types)
    | (some c, types) => fitEach fit rest (if widest.cost < c.cost then c else widest) types

/-- Fits the elements of a collection. For a type parameter they need to have a common type; a
collection without elements says nothing about it. -/
def fitElements (element : ParamType) (fit : Value → Fitting Conversion) (items : List Value) :
    Fitting Conversion := fun types =>
  match element, items with
  | .generic _, [] => (some .keep, types)
  | .generic name, items =>
    match Value.commonType items with
    | some type => fitGeneric name type types
    | none => (none, types)
  | _, items => fitEach fit items .keep types

/-- Keeps only what needs no conversion. -/
def Fitting.unconverted (fitting : Fitting Conversion) : Fitting Conversion := fun types =>
  match fitting types with
  | (some c, types) => (if c.isKeep then some .keep else none, types)
  | (none, types) => (none, types)

/-- A fitting that finds out nothing about types. -/
def Fitting.plain (c : Option Conversion) : Fitting Conversion := fun types =>
  (c, types)

/-- Fits a value to a type without the help of converters. -/
def ParamType.fit : ParamType → Value → Fitting Conversion
  | .any, _ => .plain (some .keep)
  | .generic name, v => fitGeneric name v.type
  | .boolean, .bool _ => .plain (some .keep)
  | .boolean, _ => .plain none
  | .integer, .int _ => .plain (some .keep)
  | .integer, _ => .plain none
  | .float, .float _ => .plain (some .keep)
  | .float, .int _ => .plain (some .widen)
  | .float, _ => .plain none
  | .number, .int _ => .plain (some .keep)
  | .number, .float _ => .plain (some .keep)
  | .number, _ => .plain none
  | .string, .string _ => .plain (some .keep)
  | .string, .lambda _ => .plain none
  | .string, _ => .plain (some .stringify)
  | .lambda, .lambda _ => .plain (some .keep)
  | .lambda, _ => .plain none
  | .host name, .host h => .plain (if h.typeName = name then some .keep else none)
  | .host _, _ => .plain none
  | .array element, .array items => fitElements element element.fit items
  | .array _, _ => .plain none
  | .object element, .object members =>
    (fitElements element element.fit (members.map Prod.snd)).unconverted
  | .object _, _ => .plain none

/-- Fits a value to a type. Converters are asked, in order, where it does not fit without them. -/
def accept (converters : List Converter) (type : ParamType) (v : Value) : Fitting Conversion :=
  fun types =>
    match type.fit v types with
    | (some c, types) => (some c, types)
    | (none, types) =>
      ((converters.find? fun c => c.accepts v.type type).map fun c => .convert c type, types)

/-! ## Placing arguments -/

/-- An argument with its position in the call. -/
structure Placed where
  position : Nat
  value : Value

/-- Whether an argument given by `name` is for the parameter. -/
def Param.answersTo (matching : NameMatching) (name : String) (p : Param) : Bool :=
  matching.admits p.name name || p.alternative.any fun other => matching.admits other name

/-- Arguments with their positions, counted from `start`. -/
def placedFrom (start : Nat) : List Supplied → List (Option String × Placed)
  | [] => []
  | a :: rest => (a.name, ⟨start, a.value⟩) :: placedFrom (start + 1) rest

/-- Gives each argument with a name to the first parameter that answers to it. No parameter takes
two, and one for what is left takes none by name. -/
def claimByName (matching : NameMatching) (params : List Param) :
    List (Option String × Placed) → List (Option Placed) → Option (List (Option Placed))
  | [], slots => some slots
  | (none, _) :: rest, slots => claimByName matching params rest slots
  | (some name, a) :: rest, slots => do
    let target ← params.findIdx? (Param.answersTo matching name)
    if (slots[target]?.any Option.isSome) || (params[target]?.any Param.isRest) then none
    else claimByName matching params rest (slots.set target (some a))

/-- Gives arguments by position, in order, to the parameters that are not taken. The second result
are the arguments for which there was no parameter. -/
def fillInOrder : List Param → List (Option Placed) → List Placed →
    List (Option Placed) × List Placed
  | p :: params, slot :: slots, queue =>
    if slot.isSome || p.isRest then
      let (slots, surplus) := fillInOrder params slots queue
      (slot :: slots, surplus)
    else
      match queue with
      | [] => (none :: slots, [])
      | a :: queue =>
        let (slots, surplus) := fillInOrder params slots queue
        (some a :: slots, surplus)
  | _, slots, queue => (slots, queue)

/-! ## Binding -/

/-- Where a parameter gets its value. -/
inductive Binding where
  | argument (position : Nat) (conversion : Conversion)
  | default (value : Value)
  /-- An array of arguments. -/
  | rest (items : List (Nat × Conversion))

namespace Binding

/-- Sum of the conversions. -/
def cost : Binding → Nat
  | argument _ c => c.cost
  | default _ => 0
  | rest items => items.foldl (fun n (_, c) => n + c.cost) 0

/-- How far a binding is from an argument for a parameter. -/
def slack : Binding → Nat
  | argument _ _ => 0
  | rest _ => 1
  | default _ => 2

/-- The argument at a position; null if there is none. -/
def valueAt (arguments : List Supplied) (position : Nat) : Value :=
  (arguments[position]?.map Supplied.value).getD .null

/-- What the parameter gets. -/
def value (arguments : List Supplied) : Binding → Value
  | argument position c => c.apply (valueAt arguments position)
  | default v => v
  | rest items => .array (items.map fun (position, c) => c.apply (valueAt arguments position))

end Binding

/-- Fits arguments one after the other to one type. -/
def acceptAll (converters : List Converter) (type : ParamType) :
    List Placed → TypeArguments → Option (List (Nat × Conversion) × TypeArguments)
  | [], types => some ([], types)
  | a :: rest, types =>
    match accept converters type a.value types with
    | (some c, types) => do
      let (items, types) ← acceptAll converters type rest types
      return ((a.position, c) :: items, types)
    | (none, _) => none

/-- Binds one parameter. -/
def Param.bind (converters : List Converter) (surplus : List Placed) (p : Param)
    (slot : Option Placed) (types : TypeArguments) : Option (Binding × TypeArguments) :=
  match p.kind, slot with
  | .rest, _ => do
    let (items, types) ← acceptAll converters p.type surplus types
    return (.rest items, types)
  | _, some a =>
    match accept converters p.type a.value types with
    | (some c, types) => some (.argument a.position c, types)
    | (none, _) => none
  | .optional value, none => some (.default value, types)
  | .required, none => none

/-- Binds the parameters in order. -/
def bindParams (converters : List Converter) (surplus : List Placed) :
    List Param → List (Option Placed) → TypeArguments → Option (List Binding × TypeArguments)
  | p :: params, slot :: slots, types => do
    let (binding, types) ← p.bind converters surplus slot types
    let (bindings, types) ← bindParams converters surplus params slots types
    return (binding :: bindings, types)
  | _, _, types => some ([], types)

/-! ## What a choice depends on -/

/-- What two calls need to have in common for a choice made for one to be used for the other. -/
structure CallShape where
  /-- Stands for the contents of the registry. -/
  generation : Nat
  matching : NameMatching
  value : Shape
  arguments : List (Option String × Shape)
deriving DecidableEq, Repr

/-- Elements of a collection without a common type can fit differently the next time. -/
def Shape.isConclusive (s : Shape) : Bool :=
  match s.type with
  | .array | .object => s.element.isSome
  | _ => true

namespace CallShape

def ofCall (r : Registry) (matching : NameMatching) (v : Value) (arguments : List Supplied) :
    CallShape :=
  ⟨r.generation, matching, v.shape, arguments.map fun a => (a.name, a.value.shape)⟩

/-- Whether a choice made for the shape may be used again. -/
def isReusable (s : CallShape) : Bool :=
  s.value.isConclusive && s.arguments.all fun (_, shape) => shape.isConclusive

end CallShape

/-! ## Choices -/

/-- An overload that was chosen, and how the call is bound to it. -/
structure Resolution where
  signature : Signature
  valueConversion : Conversion
  bindings : List Binding
  types : TypeArguments
  shape : CallShape

/-- The order of overloads for a call. -/
structure Rank where
  slack : Nat
  cost : Nat
  specificity : Nat
  position : Nat
deriving DecidableEq, Repr

/-- Whether the first rank is the better one. -/
def Rank.better (a b : Rank) : Bool :=
  if a.slack ≠ b.slack then a.slack < b.slack
  else if a.cost ≠ b.cost then a.cost < b.cost
  else if a.specificity ≠ b.specificity then b.specificity < a.specificity
  else a.position < b.position

/-- How much the types of an overload say, taken together. -/
def Signature.specificity (s : Signature) : Nat :=
  s.params.foldl (fun n p => n + p.type.specificity) s.valueType.specificity

namespace Resolution

def slack (r : Resolution) : Nat :=
  (r.bindings.map Binding.slack).foldr max 0

def cost (r : Resolution) : Nat :=
  r.bindings.foldl (fun n b => n + b.cost) r.valueConversion.cost

/-- The rank of the overload registered at a position. -/
def rank (position : Nat) (r : Resolution) : Rank :=
  ⟨r.slack, r.cost, r.signature.specificity, position⟩

/-- The value and one argument for each parameter, as the overload gets them. -/
def bind (r : Resolution) (v : Value) (arguments : List Supplied) : Value × List Value :=
  (r.valueConversion.apply v, r.bindings.map (Binding.value arguments))

end Resolution

namespace Signature

/-- The overload bound to a call, if it can be. -/
def bindCall (s : Signature) (converters : List Converter) (shape : CallShape) (v : Value)
    (arguments : List Supplied) : Option Resolution :=
  match accept converters s.valueType v [] with
  | (none, _) => none
  | (some valueConversion, types) => do
    let placed := placedFrom 0 arguments
    let claimed ← claimByName shape.matching s.params placed (s.params.map fun _ => none)
    let queue := (placed.filter fun (name, _) => name.isNone).map Prod.snd
    let (slots, surplus) := fillInOrder s.params claimed queue
    if !surplus.isEmpty && !s.hasRest then none
    else
      let (bindings, types) ← bindParams converters surplus s.params slots types
      return ⟨s, valueConversion, bindings, types, shape⟩

end Signature

/-- The best of several overloads. -/
def bestOf : List (Nat × Resolution) → Option (Nat × Resolution)
  | [] => none
  | (i, r) :: rest =>
    match bestOf rest with
    | none => some (i, r)
    | some (j, best) => if (best.rank j).better (r.rank i) then some (j, best) else some (i, r)

namespace Registry

/-- The best of some of the overloads for a call. -/
def choose (r : Registry) (shape : CallShape) (v : Value) (arguments : List Supplied)
    (candidates : List (Nat × Signature)) : Option Resolution :=
  (bestOf (candidates.filterMap fun (i, s) =>
    (s.bindCall r.converters shape v arguments).map fun bound => (i, bound))).map Prod.snd

/-- The overload that a call by `name` means. -/
def resolve (r : Registry) (matching : NameMatching) (name : String) (v : Value)
    (arguments : List Supplied) : Option Resolution :=
  let shape := CallShape.ofCall r matching v arguments
  let named := if name == "" then [] else r.named name matching
  (r.choose shape v arguments named).or (r.choose shape v arguments r.unnamed)

end Registry

end Stencil
