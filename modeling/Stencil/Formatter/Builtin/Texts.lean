import Stencil.Formatter.Signature
import Stencil.Text.Blank
import Stencil.Text.Case
import Stencil.Text.Split

/-!
# Formatters on strings
-/

namespace Stencil.Builtin

/-- An overload that makes a text of the text of its value. -/
def onText (name : String) (f : List Char → List Char) : Signature :=
  .computing name .string [] fun c => .string (String.ofList (f c.value.text.toList))

/-- The pieces of a text as strings. -/
def splitText (separator text : String) : Value :=
  .array ((Text.pieces separator.toList text.toList).map fun cs => .string (String.ofList cs))

def texts : List Signature :=
  [ .computing "ToString" .any [] fun c => .string c.value.text,
    onText "ToUpper" Text.upper,
    onText "ToLower" Text.lower,
    onText "Trim" Text.trim,
    .computing "Length" .string [] fun c =>
      .int (Int64.ofNat (c.value.asString?.elim 0 String.length)),
    .computing "Contains" .string [.needed "part" .string] fun c =>
      .bool (c.value.asString?.any fun s =>
        Text.occursIn (c.argument 0).text.toList s.toList),
    .computing "Concat" .string [.remaining "parts" .string] fun c =>
      match c.argument 0 with
      | .array parts => .string (String.join (c.value.text :: parts.map Value.text))
      | _ => .string c.value.text,
    .computing "Split" .string [.needed "separator" .string] fun c =>
      splitText (c.argument 0).text c.value.text ]

end Stencil.Builtin
