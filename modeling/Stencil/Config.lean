import Stencil.Formatter.Name
import Stencil.Json

/-!
# Configuration

The settings that a configuration text in JSON can make. A text either gives an object of settings
by name or an array of settings in the order of the fields; what it leaves out keeps its default.
Unknown names, repeated names and values of the wrong kind are refused.
-/

namespace Stencil

/-- The settings of an engine that a configuration can make. -/
structure Config where
  /-- The culture that formatters see. -/
  culture : String := "en-US"
  /-- What is written for null. -/
  nullText : String := ""
  /-- How deep lambdas may be nested while they run. -/
  maxDepth : Nat := 256
  matching : NameMatching := .caseSensitive
  /-- Whether a log records what could not be resolved. -/
  logUnresolved : Bool := true
deriving DecidableEq, Repr

inductive ConfigError where
  /-- The text is no configuration. -/
  | malformed
  /-- A setting has a value that makes no sense. -/
  | badValue (field reason : String)
  /-- There is no text to read. -/
  | unreadable
deriving DecidableEq, Repr

/-- The wording of an error, where it does not depend on the reader of the text. -/
def ConfigError.message? : ConfigError → Option String
  | badValue field reason => some s!"Invalid value for '{field}': {reason}"
  | malformed | unreadable => none

namespace Config

def readString? : Json → Option String
  | .string s => some s
  | _ => none

/-- A whole number of 64 bits without a sign. -/
def readCount? : Json → Option Nat
  | .whole n => if 0 ≤ n ∧ n < twoTo 64 then some n.toNat else none
  | _ => none

def readBool? : Json → Option Bool
  | .bool b => some b
  | _ => none

def matchingNamed? (name : String) : Option NameMatching :=
  if name = "case_sensitive" then some .caseSensitive
  else if name = "ignore_case" then some .ignoreCase
  else none

/-- A way of matching: its name, or an object with null under its name. -/
def readMatching? : Json → Option NameMatching
  | .string name => matchingNamed? name
  | .object [(name, .null)] => matchingNamed? name
  | _ => none

/-- The names of the settings, in the order in which an array gives them. -/
def fieldNames : List String :=
  ["culture", "null_value", "max_recursion_depth", "formatter_name_matching",
    "log_unresolved_paths"]

/-- The configuration with one setting made. -/
def set? (c : Config) (field : String) (j : Json) : Option Config :=
  match field with
  | "culture" => (readString? j).map fun s => { c with culture := s }
  | "null_value" => (readString? j).map fun s => { c with nullText := s }
  | "max_recursion_depth" => (readCount? j).map fun n => { c with maxDepth := n }
  | "formatter_name_matching" => (readMatching? j).map fun m => { c with matching := m }
  | "log_unresolved_paths" => (readBool? j).map fun b => { c with logUnresolved := b }
  | _ => none

/-- The configuration with settings made one after the other. -/
def setAll? (c : Config) : List (String × Json) → Option Config
  | [] => some c
  | (field, j) :: rest => (c.set? field j).bind (·.setAll? rest)

/-- The configuration that a JSON tree describes. -/
def ofJson? : Json → Option Config
  | .object members =>
    if (members.map Prod.fst).Nodup then setAll? {} members else none
  | .array items =>
    if items.length ≤ fieldNames.length then setAll? {} (fieldNames.zip items) else none
  | _ => none

/-- The configuration that a text describes. -/
def ofText (text : String) : Except ConfigError Config :=
  match (Json.ofText? text).bind ofJson? with
  | none => .error .malformed
  | some c =>
    if c.maxDepth = 0 then .error (.badValue "max_recursion_depth" "must be at least 1")
    else .ok c

end Config

end Stencil
