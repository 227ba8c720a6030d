import IRule.Text.Bytes

/-!
# Byte cursor

A reading position in a text that moves by bytes. Reads past the end give the
byte zero, so a scanning loop needs no bounds check of its own.
-/

namespace IRule.Text

/-- A text with a byte position in it. The position may lie past the end. -/
structure Cursor where
  source : List Char
  position : Nat := 0
deriving Repr, Inhabited

namespace Cursor

/-- The UTF-8 encoding of the source. -/
def bytes (cursor : Cursor) : List UInt8 :=
  cursor.source.flatMap String.utf8EncodeChar

/-- Length of the source in bytes. -/
def sourceLength (cursor : Cursor) : Nat :=
  byteLength cursor.source

/-- Byte `ahead` positions further on, zero past the end. -/
def byteAhead (cursor : Cursor) (ahead : Nat) : UInt8 :=
  cursor.bytes[cursor.position + ahead]?.getD 0

/-- Bytes from the position to the end. -/
def remaining (cursor : Cursor) : List UInt8 :=
  cursor.bytes.drop cursor.position

/-- Whether no byte is left to read. -/
def atEnd (cursor : Cursor) : Bool :=
  decide (cursor.sourceLength ≤ cursor.position)

/-- Move on by `count` bytes, past the end if need be. -/
def advance (cursor : Cursor) (count : Nat) : Cursor :=
  { cursor with position := cursor.position + count }

/-- Move to a position, at most to the end. -/
def seek (cursor : Cursor) (position : Nat) : Cursor :=
  { cursor with position := min position cursor.sourceLength }

/-- Text from an offset to the position. -/
def sliceFrom (cursor : Cursor) (start : Nat) : List Char :=
  slice cursor.source ⟨start, cursor.position⟩

/-- Bytes of the character whose encoding starts with `byte`. -/
def charWidth (byte : UInt8) : Nat :=
  if 0xC0 ≤ byte && byte ≤ 0xDF then 2
  else if 0xE0 ≤ byte && byte ≤ 0xEF then 3
  else if 0xF0 ≤ byte && byte ≤ 0xF7 then 4
  else 1

/-- The character at the position, NUL at the end or inside a character. -/
def currentChar (cursor : Cursor) : Char :=
  match splitBytes? cursor.position cursor.source with
  | some (_, char :: _) => char
  | _ => '\x00'

/-- Move past one whole character, at most to the end. -/
def advanceChar (cursor : Cursor) : Cursor :=
  cursor.seek (cursor.position + charWidth (cursor.byteAhead 0))

/-- Move past the bytes that satisfy `accepts`. -/
def advanceWhile (cursor : Cursor) (accepts : UInt8 → Bool) : Cursor :=
  cursor.advance (cursor.remaining.takeWhile accepts).length

/-- Move to the next line feed, or to the end. -/
def advanceToLineEnd (cursor : Cursor) : Cursor :=
  cursor.seek (cursor.position + (cursor.remaining.takeWhile (· != 10)).length)

/-- Bytes that interrupt the plain text of a quoted string. -/
def interruptsString (inBracket : Bool) (byte : UInt8) : Bool :=
  byte == 34 || byte == 92 || byte == 91 || (inBracket && byte == 93)

/-- Move over plain string text to a quote, a backslash, an opening bracket or,
inside brackets, a closing one. Gives the byte found and the line feeds passed. -/
def advanceStringRun (cursor : Cursor) (inBracket : Bool) : (Option UInt8 × Nat) × Cursor :=
  let run := cursor.remaining.takeWhile fun byte => !interruptsString inBracket byte
  ((cursor.remaining[run.length]?, run.count 10), cursor.advance run.length)

end Cursor

end IRule.Text
