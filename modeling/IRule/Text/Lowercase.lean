import IRule.Text.CaseTable
import IRule.Text.Range

/-!
# Lower case

Full lower-casing of text. Every character is mapped on its own except the
capital sigma, which ends a word as `ς` and is `σ` anywhere else, and the
dotted capital I, which becomes two characters.
-/

namespace IRule.Text

/-- Lower-case form by the simple mappings. -/
def simpleLower (char : Char) : Char :=
  if char.toNat < 0x80 then char.toLower
  else
    let code := char.toNat
    match lowerRuns.find? (·.contains code) with
    | some run => Char.ofNat (Int.ofNat code + run.offset).toNat
    | none => char

/-- Whether the nearest character that is not looked through is a cased one. -/
def meetsCased (neighbours : List Char) : Bool :=
  match neighbours.dropWhile (inRanges caseIgnorableRanges) with
  | [] => false
  | char :: _ => inRanges casedRanges char

/-- Lower-case form of `text`, where `before` is what precedes it, reversed. -/
def lowerAfter (before : List Char) : List Char → List Char
  | [] => []
  | char :: rest =>
    let mapped :=
      if char == 'Σ' then
        if meetsCased before && !meetsCased rest then ['ς'] else ['σ']
      else if char == 'İ' then ['i', '\u0307']
      else [simpleLower char]
    mapped ++ lowerAfter (char :: before) rest

/-- Lower-case form of a text. -/
def lower (text : List Char) : List Char :=
  lowerAfter [] text

end IRule.Text
