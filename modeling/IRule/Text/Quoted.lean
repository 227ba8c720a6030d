import IRule.Text.HiddenTable
import IRule.Text.Range

/-!
# Quoted text

A text between double quotes on one line, in which every hidden character is
written as an escape.
-/

namespace IRule.Text

/-- Hexadecimal digits of a code point. -/
def hexDigits (code : Nat) : List Char :=
  Nat.toDigits 16 code

/-- Written form of one character inside double quotes. -/
def quotedChar (char : Char) : List Char :=
  if char == '\x00' then ['\\', '0']
  else if char == '\t' then ['\\', 't']
  else if char == '\r' then ['\\', 'r']
  else if char == '\n' then ['\\', 'n']
  else if char == '\\' then ['\\', '\\']
  else if char == '"' then ['\\', '"']
  else if 0x20 ≤ char.toNat && char.toNat < 0x7F then [char]
  else if inRanges hiddenRanges char then
    ['\\', 'u', '\x7b'] ++ hexDigits char.toNat ++ ['\x7d']
  else [char]

/-- A text between double quotes. -/
def quoted (text : String) : String :=
  "\"" ++ String.ofList (text.toList.flatMap quotedChar) ++ "\""

end IRule.Text
