import Stencil.Number.Shortest
import Stencil.Text.Quoted
import Stencil.Value

/-!
# Values as text

Two forms: the text that a value has in a rendered template, and the form for inspection, which
shows types and structure.
-/

namespace Stencil

mutual

/-- The text of a value. Null is empty, an array lists its elements, and what has no text of its own
is named in brackets. -/
def Value.text : Value → String
  | .null => ""
  | .bool b => if b then "true" else "false"
  | .int n => toString n
  | .float x => FloatLayout.plain.write x
  | .string s => s
  | .array items => ", ".intercalate (Value.texts items)
  | .object _ => "[object]"
  | .lambda _ => "[lambda]"
  | .host h => "[" ++ h.typeName ++ "]"

def Value.texts : List Value → List String
  | [] => []
  | v :: rest => v.text :: Value.texts rest

end

/-- The text written into a rendered template, with a placeholder for null. -/
def Value.rendered (placeholder : String) : Value → String
  | .null => placeholder
  | v => v.text

/-- Texts between brackets, with commas. -/
def bracketed (opening closing : String) (parts : List String) : String :=
  opening ++ ", ".intercalate parts ++ closing

/-- Quoted names between brackets. -/
def quotedNames (names : List String) : String :=
  bracketed "[" "]" (names.map Text.quoted)

mutual

/-- The form of a value for inspection. -/
def Value.inspect : Value → String
  | .null => "Null"
  | .bool b => if b then "Boolean(true)" else "Boolean(false)"
  | .int n => "Integer(" ++ toString n ++ ")"
  | .float x => "Float(" ++ FloatLayout.inspected.write x ++ ")"
  | .string s => "String(" ++ Text.quoted s ++ ")"
  | .array items => "Array(" ++ bracketed "[" "]" (Value.inspectAll items) ++ ")"
  | .object members => "Object(" ++ bracketed "\x7b" "\x7d" (Value.inspectMembers members) ++ ")"
  | .lambda l => "Lambda(" ++ quotedNames l.parameters ++ ")"
  | .host h => "Custom(" ++ h.typeName ++ ")"

def Value.inspectAll : List Value → List String
  | [] => []
  | v :: rest => v.inspect :: Value.inspectAll rest

def Value.inspectMembers : List (String × Value) → List String
  | [] => []
  | (k, v) :: rest => (Text.quoted k ++ ": " ++ v.inspect) :: Value.inspectMembers rest

end

/-- The form of a context for inspection. -/
def Context.inspect (c : Context) : String :=
  "ContextObject \x7b path: " ++ Text.quoted c.path ++ ", value: " ++ c.value.inspect
    ++ ", is_natural: " ++ (if c.isNatural then "true" else "false") ++ " \x7d"

end Stencil
