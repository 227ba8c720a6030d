/-!
# Reading integers

Signed 64-bit integers in decimal: one optional sign, then ASCII digits. Text
of any other shape, or out of range, is no integer.
-/

namespace IRule.Text

/-- Value of a digit run read after `value`; `none` at any other character. -/
def digitsValue? (value : Nat) : List Char → Option Nat
  | [] => some value
  | char :: rest =>
    if char.isDigit then digitsValue? (value * 10 + (char.toNat - '0'.toNat)) rest else none

/-- Value of a non-empty run of digits. -/
def natural? : List Char → Option Nat
  | [] => none
  | digits => digitsValue? 0 digits

/-- The integer denoted by an optionally signed run of digits. -/
def integer? : List Char → Option Int
  | '-' :: digits => (natural? digits).map fun value => -Int.ofNat value
  | '+' :: digits => (natural? digits).map Int.ofNat
  | digits => (natural? digits).map Int.ofNat

/-- The 64-bit word of an integer, `none` when it does not fit. -/
def int64OfInt? (value : Int) : Option Int64 :=
  if Int64.minValue.toInt ≤ value && value ≤ Int64.maxValue.toInt then
    some (Int64.ofInt value)
  else
    none

/-- The 64-bit integer denoted by a text. -/
def int64? (text : List Char) : Option Int64 :=
  (integer? text).bind int64OfInt?

/-- Decimal digits of a 64-bit integer, with `-` in front when negative. -/
def int64Text (value : Int64) : String :=
  toString value.toInt

/-- Whether a run of digits denotes an octet. -/
def isOctet (text : List Char) : Bool :=
  match natural? text with
  | some value => decide (value ≤ 255)
  | none => false

end IRule.Text
