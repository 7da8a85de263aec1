import Stencil.Text.CaseTable

/-!
# Upper and lower case of texts

A character may map to several (`ß` to `SS`). One lower case mapping depends on the neighbours: a
capital sigma that ends a word becomes the final sigma `ς`.
-/

namespace Stencil.Text

/-- The character that a run of mappings gives for the scalar value `n`, if one of them covers it. -/
def CaseRun.find? (n : Nat) : List CaseRun → Option Char
  | [] => none
  | run :: rest =>
    if run.first ≤ n && n ≤ run.last && (n - run.first) % run.step == 0 then
      some (Char.ofNat (run.image + (n - run.first)))
    else find? n rest

/-- The full upper case mapping of one character. -/
def upperChar (c : Char) : List Char :=
  if c.toNat < 0x80 then [c.toUpper]
  else match upperSpecials.lookup c.toNat with
    | some image => image.map Char.ofNat
    | none => [(CaseRun.find? c.toNat upperRuns).getD c]

/-- The full lower case mapping of one character by itself. -/
def lowerChar (c : Char) : List Char :=
  if c.toNat < 0x80 then [c.toLower]
  else match lowerSpecials.lookup c.toNat with
    | some image => image.map Char.ofNat
    | none => [(CaseRun.find? c.toNat lowerRuns).getD c]

/-- The text in upper case. -/
def upper (cs : List Char) : List Char :=
  cs.flatMap upperChar

/-- Whether the first character that is not case-ignorable is cased. -/
def meetsCased (cs : List Char) : Bool :=
  match cs.dropWhile fun c => inRanges c.toNat caseIgnorableRanges with
  | [] => false
  | c :: _ => inRanges c.toNat casedRanges

/-- Lower case of the second text, where `before` holds what precedes it, nearest first. A sigma is
final when a cased character comes before it and none after. -/
def lowerAfter (before : List Char) : List Char → List Char
  | [] => []
  | c :: rest =>
    let image :=
      if c == 'Σ' then
        if meetsCased before && !meetsCased rest then ['ς'] else ['σ']
      else lowerChar c
    image ++ lowerAfter (c :: before) rest

/-- The text in lower case. -/
def lower (cs : List Char) : List Char :=
  lowerAfter [] cs

end Stencil.Text
