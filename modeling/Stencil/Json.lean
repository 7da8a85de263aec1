import Stencil.Number.Reading
import Stencil.Number.Shortest

/-!
# JSON texts

The form in which data comes in and results go out. Objects keep the order of their members and, as
read, also repeated keys; what those mean is up to the reader of the tree.

Whole numbers are kept as such within the range of 64 bits. Other numbers become doubles by few
operations on doubles: the first digits as a 64 bit number, times or over a power of ten. That is
quick, and may miss the nearest double by a little.
-/

namespace Stencil

inductive Json where
  | null
  | bool (b : Bool)
  /-- A whole number of 64 bits, with or without a sign. -/
  | whole (n : Int)
  | float (x : Float)
  | string (s : String)
  | array (items : List Json)
  | object (members : List (String × Json))

namespace Json

/-! ## Reading -/

/-- The blanks of JSON. -/
def isSpace (c : Char) : Bool :=
  c == ' ' || c == '\n' || c == '\t' || c == '\r'

def skipSpace (text : List Char) : List Char :=
  text.dropWhile isSpace

/-- What a reading function gives: a result and the rest of the text. -/
abbrev Reader (α : Type) := List Char → Option (α × List Char)

/-- Digits taken into a 64 bit number as long as it holds them, and the digits after those. -/
def takeDigits (n : Nat) : List Char → Nat × List Char
  | [] => (n, [])
  | c :: rest =>
    if c.isDigit && n * 10 + digitValue c < twoTo 64 then takeDigits (n * 10 + digitValue c) rest
    else (n, c :: rest)

/-- The double for `significand · 10 ^ exponent`. There is none if it is too large. Powers of ten go
up to 308; smaller exponents are reached by dividing several times. -/
def floatFromParts? : Nat → Float → Int → Option Float
  | 0, f, _ => some f
  | fuel + 1, f, exponent =>
    if exponent.natAbs ≤ 308 then
      let power := nearestDecimal false 1 exponent.natAbs
      if 0 ≤ exponent then
        let product := f * power
        if product.isInf then none else some product
      else some (f / power)
    else if f == 0.0 then some f
    else if 0 ≤ exponent then none
    else floatFromParts? fuel (f / nearestDecimal false 1 308) (exponent + 308)

/-- A double from the first digits of a number. -/
def scaled? (negative : Bool) (significand : Nat) (exponent : Int) : Option Json :=
  -- after six divisions every significand has become zero
  (floatFromParts? 8 (nearestFloat false significand 1) exponent).map fun f =>
    float (if negative then -f else f)

/-- Reads an exponent, after its `e`. -/
def readExponent (negative : Bool) (significand : Nat) (start : Int) : Reader Json := fun text =>
  let (lowers, text) := match text with
    | '-' :: rest => (true, rest)
    | '+' :: rest => (false, rest)
    | rest => (false, rest)
  let digits := text.takeWhile Char.isDigit
  let rest := text.dropWhile Char.isDigit
  if digits.isEmpty then none
  else
    let exponent := natOfDigits digits
    if twoTo 31 ≤ exponent then
      if significand != 0 && !lowers then none
      else some (float (if negative then -0.0 else 0.0), rest)
    else
      (scaled? negative significand (if lowers then start - exponent else start + exponent)).map
        fun j => (j, rest)

/-- Reads what follows the digits of a fraction. -/
def readScale (negative : Bool) (significand : Nat) (exponent : Int) : Reader Json
  | 'e' :: rest => readExponent negative significand exponent rest
  | 'E' :: rest => readExponent negative significand exponent rest
  | rest => (scaled? negative significand exponent).map fun j => (j, rest)

/-- Reads a fraction, after its point. At least one digit must stand there. Digits that do not fit
into 64 bits any more are dropped. -/
def readFraction (negative : Bool) (significand : Nat) (exponent : Int) : Reader Json := fun text =>
  if !(text.head?.any Char.isDigit) then none
  else
    let (n, rest) := takeDigits significand text
    let taken := text.length - rest.length
    readScale negative n (exponent - taken) (rest.dropWhile Char.isDigit)

/-- Reads a number, after its sign. -/
def readNumber (negative : Bool) : Reader Json := fun text =>
  let (n, rest) := takeDigits 0 text
  match text with
  | '0' :: c :: _ =>
    if c.isDigit then none else readTail n rest
  | c :: _ => if c.isDigit then readTail n rest else none
  | [] => none
where
  readTail (n : Nat) (rest : List Char) : Option (Json × List Char) :=
    let dropped := rest.takeWhile Char.isDigit
    let rest := rest.dropWhile Char.isDigit
    match rest with
    | '.' :: rest => readFraction negative n dropped.length rest
    | 'e' :: rest => readExponent negative n dropped.length rest
    | 'E' :: rest => readExponent negative n dropped.length rest
    | rest =>
      if !dropped.isEmpty then (scaled? negative n dropped.length).map fun j => (j, rest)
      else if negative && (n == 0 || twoTo 63 < n) then
        some (float (-(nearestFloat false n 1)), rest)
      else some (whole (Decimal.signed negative n), rest)

/-- The value of a hexadecimal digit. -/
def hexValue? (c : Char) : Option Nat :=
  if c.isDigit then some (digitValue c)
  else if 'a' ≤ c && c ≤ 'f' then some (c.toNat - 'a'.toNat + 10)
  else if 'A' ≤ c && c ≤ 'F' then some (c.toNat - 'A'.toNat + 10)
  else none

/-- Reads four hexadecimal digits. -/
def readHex : Reader Nat
  | a :: b :: c :: d :: rest => do
    let n := (((← hexValue? a) * 16 + (← hexValue? b)) * 16 + (← hexValue? c)) * 16 + (← hexValue? d)
    some (n, rest)
  | _ => none

/-- Reads the rest of an escape by number: one unit, or two that stand for one character. -/
def readUnit : Reader Char := fun text => do
  let (high, rest) ← readHex text
  if 0xDC00 ≤ high && high < 0xE000 then none
  else if high < 0xD800 || 0xE000 ≤ high then some (Char.ofNat high, rest)
  else match rest with
    | '\\' :: 'u' :: rest => do
      let (low, rest) ← readHex rest
      if 0xDC00 ≤ low && low < 0xE000 then
        some (Char.ofNat (0x10000 + (high - 0xD800) * 0x400 + (low - 0xDC00)), rest)
      else none
    | _ => none

/-- Reads one character of a string, which is not the closing quote. -/
def readChar : Reader Char
  | '\\' :: c :: rest =>
    if c == 'u' then readUnit rest
    else (escapes.lookup c).map fun plain => (plain, rest)
  | '\\' :: [] => none
  | c :: rest => if c.toNat < 0x20 then none else some (c, rest)
  | [] => none
where
  escapes : List (Char × Char) :=
    [('"', '"'), ('\\', '\\'), ('/', '/'), ('b', '\x08'), ('f', '\x0c'), ('n', '\n'), ('r', '\r'),
      ('t', '\t')]

/-- Reads a string, after its opening quote. Each turn reads at least one character. -/
def readChars : Nat → Reader (List Char)
  | 0, _ => none
  | fuel + 1, text =>
    match text with
    | '"' :: rest => some ([], rest)
    | _ => do
      let (c, rest) ← readChar text
      let (cs, rest) ← readChars fuel rest
      some (c :: cs, rest)

/-- Reads a string. -/
def readString : Reader String
  | '"' :: rest => (readChars (rest.length + 1) rest).map fun (cs, rest) => (String.ofList cs, rest)
  | _ => none

/-- Reads what stands between brackets, separated by commas, after the opening bracket. -/
def readSeparated (closing : Char) (item : Reader α) : Nat → Reader (List α)
  | 0, _ => none
  | fuel + 1, text => do
    let (x, rest) ← item text
    match skipSpace rest with
    | c :: rest =>
      if c == closing then some ([x], rest)
      else if c == ',' then do
        let (xs, rest) ← readSeparated closing item fuel rest
        some (x :: xs, rest)
      else none
    | [] => none

/-- Reads items up to the closing bracket, if there are any. -/
def readItems (closing : Char) (item : Reader α) : Reader (List α) := fun text =>
  match skipSpace text with
  | [] => none
  | c :: rest =>
    if c == closing then some ([], rest) else readSeparated closing item text.length (c :: rest)

/-- Reads a member of an object. -/
def readMember (value : Reader Json) : Reader (String × Json) := fun text => do
  let (key, rest) ← readString (skipSpace text)
  match skipSpace rest with
  | ':' :: rest => do
    let (v, rest) ← value rest
    some ((key, v), rest)
  | _ => none

/-- Reads a value that is neither array nor object. -/
def readScalar : Reader Json
  | 'n' :: 'u' :: 'l' :: 'l' :: rest => some (null, rest)
  | 't' :: 'r' :: 'u' :: 'e' :: rest => some (bool true, rest)
  | 'f' :: 'a' :: 'l' :: 's' :: 'e' :: rest => some (bool false, rest)
  | '-' :: rest => readNumber true rest
  | '"' :: rest => (readString ('"' :: rest)).map fun (s, rest) => (string s, rest)
  | text => readNumber false text

/-- Reads a value in which at most so many brackets stand inside each other. -/
def readValue : Nat → Reader Json
  | 0, text => readScalar (skipSpace text)
  | depth + 1, text =>
    match skipSpace text with
    | '[' :: rest => (readItems ']' (readValue depth) rest).map fun (xs, rest) => (array xs, rest)
    | '\x7b' :: rest =>
      (readItems '\x7d' (readMember (readValue depth)) rest).map fun (ms, rest) => (object ms, rest)
    | rest => readScalar rest

/-- How deep brackets may stand inside each other. -/
def maxDepth : Nat :=
  127

/-- The value that a text holds, if it holds one and nothing else. -/
def ofText? (text : String) : Option Json :=
  match readValue maxDepth text.toList with
  | some (j, rest) => if (skipSpace rest).isEmpty then some j else none
  | none => none

/-! ## Writing -/

/-- One character of a string. Only the quote, the backslash and control characters are escaped. -/
def writeChar (c : Char) : List Char :=
  if c == '"' then ['\\', '"']
  else if c == '\\' then ['\\', '\\']
  else if c == '\x08' then ['\\', 'b']
  else if c == '\t' then ['\\', 't']
  else if c == '\n' then ['\\', 'n']
  else if c == '\x0c' then ['\\', 'f']
  else if c == '\r' then ['\\', 'r']
  else if c.toNat < 0x20 then
    let digits := Nat.toDigits 16 c.toNat
    ['\\', 'u'] ++ List.replicate (4 - digits.length) '0' ++ digits
  else [c]

def writeString (s : String) : String :=
  String.ofList (['"'] ++ s.toList.flatMap writeChar ++ ['"'])

/-- A value that is neither array nor object. Infinities and what is not a number are null. -/
def writeFloat (x : Float) : String :=
  if x.isFinite then FloatLayout.document.write x else "null"

mutual

/-- The text without any blanks. -/
def compact : Json → String
  | null => "null"
  | bool b => if b then "true" else "false"
  | whole n => toString n
  | float x => writeFloat x
  | string s => writeString s
  | array items => "[" ++ ",".intercalate (compactItems items) ++ "]"
  | object members => "\x7b" ++ ",".intercalate (compactMembers members) ++ "\x7d"

def compactItems : List Json → List String
  | [] => []
  | j :: rest => j.compact :: compactItems rest

def compactMembers : List (String × Json) → List String
  | [] => []
  | (k, j) :: rest => (writeString k ++ ":" ++ j.compact) :: compactMembers rest

end

/-- The lines between two brackets, each on a line of its own; nothing at all between brackets that
hold nothing. -/
def indented (opening closing indent : String) (lines : List String) : String :=
  match lines with
  | [] => opening ++ closing
  | lines =>
    opening ++ "\n" ++ ",\n".intercalate (lines.map (indent ++ "  " ++ ·)) ++ "\n" ++ indent ++ closing

mutual

/-- The text with one element or member on each line, indented by two spaces for each bracket. -/
def prettyAt (indent : String) : Json → String
  | array items => indented "[" "]" indent (prettyItems (indent ++ "  ") items)
  | object members => indented "\x7b" "\x7d" indent (prettyMembers (indent ++ "  ") members)
  | null => "null"
  | bool b => if b then "true" else "false"
  | whole n => toString n
  | float x => writeFloat x
  | string s => writeString s

def prettyItems (indent : String) : List Json → List String
  | [] => []
  | j :: rest => j.prettyAt indent :: prettyItems indent rest

def prettyMembers (indent : String) : List (String × Json) → List String
  | [] => []
  | (k, j) :: rest => (writeString k ++ ": " ++ j.prettyAt indent) :: prettyMembers indent rest

end

/-- The text with one element or member on each line. -/
def pretty (j : Json) : String :=
  j.prettyAt ""

end Json

end Stencil
