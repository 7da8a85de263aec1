import Stencil.Formatter.Signature
import Stencil.Text.Blank

/-!
# Conversions

How a value is made to fit the type of a parameter. Some conversions are known to the engine: whole
numbers become doubles, and nearly everything has a text. Others are added as converters.
-/

namespace Stencil

/-- A conversion that is added to a registry. -/
structure Converter where
  /-- Whether values of a type can be made to fit a parameter. -/
  accepts : ValueType → ParamType → Bool
  convert : Value → ParamType → Value

namespace Converter

/-- The number that a text stands for, blanks around it aside, as a parameter of the given type
takes it; null if the text stands for none. -/
def readNumber (text : List Char) (target : ParamType) : Value :=
  let whole := (readInt64? text).map Value.int
  let double := (readFloat? text).map Value.float
  match target with
  | .integer => whole.getD .null
  | .float => double.getD .null
  | _ => (whole.or double).getD .null

/-- Reads numbers from strings. -/
def numericStrings : Converter where
  accepts source target :=
    source == .string && (target == .integer || target == .float || target == .number)
  convert v target :=
    match v with
    | .string s => readNumber (Text.trim s.toList) target
    | _ => .null

end Converter

/-- How a supplied value is made to fit its parameter. -/
inductive Conversion where
  /-- It fits as it is. -/
  | keep
  /-- A whole number becomes a double. -/
  | widen
  /-- The value becomes its text. -/
  | stringify
  | convert (c : Converter) (target : ParamType)
  /-- All elements of an array are converted. -/
  | elements (each : Conversion)

namespace Conversion

/-- How far a conversion takes a value from what it was. Overloads with less of it are preferred. -/
def cost : Conversion → Nat
  | keep => 0
  | widen => 1
  | stringify => 2
  | convert _ _ => 3
  | elements each => each.cost

def isKeep : Conversion → Bool
  | keep => true
  | _ => false

/-- The converted value. -/
def apply : Conversion → Value → Value
  | keep, v => v
  | widen, .int n => .float n.toFloat
  | widen, v => v
  | stringify, v => .string v.text
  | convert c target, v => c.convert v target
  | elements each, .array items => .array (items.map each.apply)
  | elements each, v => each.apply v

end Conversion

end Stencil
