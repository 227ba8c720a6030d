import IRule.Text.Span

/-!
# Byte offsets into character lists

Source text is a list of characters, positions in it are byte offsets. This
module measures characters in UTF-8 bytes and cuts a text at byte offsets; a
cut that is out of range or inside a character yields nothing.
-/

namespace IRule.Text

/-- Number of bytes of the UTF-8 encoding. -/
def byteLength : List Char → Nat
  | [] => 0
  | char :: rest => char.utf8Size + byteLength rest

@[simp]
theorem byteLength_nil : byteLength [] = 0 := rfl

@[simp]
theorem byteLength_cons (char : Char) (rest : List Char) :
    byteLength (char :: rest) = char.utf8Size + byteLength rest := rfl

@[simp]
theorem byteLength_append (first second : List Char) :
    byteLength (first ++ second) = byteLength first + byteLength second := by
  induction first with
  | nil => simp
  | cons char rest ih => simp [ih, Nat.add_assoc]

/-- Split off the first `count` bytes; `none` when the text is shorter or the
cut falls inside a character. -/
def splitBytes? : Nat → List Char → Option (List Char × List Char)
  | 0, text => some ([], text)
  | _ + 1, [] => none
  | count + 1, char :: rest =>
    if char.utf8Size ≤ count + 1 then
      (splitBytes? (count + 1 - char.utf8Size) rest).map fun (taken, left) => (char :: taken, left)
    else
      none

/-- The text between two byte offsets, empty when the range does not stand on
character boundaries inside the text. -/
def slice (text : List Char) (span : Span) : List Char :=
  if span.start ≤ span.stop then
    match splitBytes? span.start text with
    | none => []
    | some (_, rest) =>
      match splitBytes? (span.stop - span.start) rest with
      | none => []
      | some (taken, _) => taken
  else
    []

end IRule.Text
