import IRule.Proofs.Parser.Giving
import IRule.Proofs.Parser.Substitution

/-!
# Decomposition of strings

The body of a string can be walked over byte by byte: a backslash hides the byte
behind it, and an embedding is looked for at each `$` and `[`. The cuts made on the way
stand one behind the other, take up the whole body and never fall inside a character,
and they are the segments of the body. Neither the segments nor the parts that are made
of them have two texts in a row.
-/

namespace IRule.Parser

open Text

/-- No two neighbours pass the test. -/
def Spaced {α : Type} (test : α → Bool) (list : List α) : Prop :=
  list.IsChain fun first second => ¬(test first ∧ test second)

namespace Segment

/-- A segment of a body and the bytes that it takes up. -/
structure Cut where
  segment : Segment
  span : Span
deriving DecidableEq, Repr

/-! ## Walking over bytes -/

/-- Bytes of the characters that a name may have. -/
def isNameByte (byte : UInt8) : Bool :=
  Lexeme.isNameChar (Char.ofNat byte.toNat)

/-- Bytes of names and `::` at the head. The byte of a colon is 58. -/
def nameLength : List UInt8 → Nat
  | 58 :: 58 :: rest => nameLength rest + 2
  | byte :: rest => if isNameByte byte then nameLength rest + 1 else 0
  | [] => 0

/-- The name whose `$` stands at a byte offset of a body, and the offset behind it. The
bytes of braces are 123 and 125. -/
def variableAt? (body : List Char) (offset : Nat) : Option (List Char × Nat) :=
  let bytes := (Cursor.bytes { source := body }).drop (offset + 1)
  if bytes.head? = some 123 then
    let length := (bytes.tail.takeWhile (· != 125)).length
    if length = 0 ∨ length = bytes.tail.length then none
    else some (slice body ⟨offset + 2, offset + 2 + length⟩, offset + 2 + length + 1)
  else
    let length := nameLength bytes
    if (bytes.take length).any isNameByte then
      some (slice body ⟨offset + 1, offset + 1 + length⟩, offset + 1 + length)
    else none

/-- The embedding at a byte offset of a body, where `byte` stands. The bytes of `$` and
`[` are 36 and 91. -/
def embeddingAt? (body : List Char) (offset : Nat) (byte : UInt8) : Option Cut :=
  if byte = 36 then
    (variableAt? body offset).map fun (name, stop) => ⟨.reference name, ⟨offset, stop⟩⟩
  else if byte = 91 then
    (commandAt? body offset).map fun (script, stop) =>
      ⟨.command script (slice body ⟨0, offset⟩), ⟨offset, stop⟩⟩
  else none

/-- The text between two byte offsets, unless they are the same. -/
def textBetween (body : List Char) (start stop : Nat) : List Cut :=
  if start < stop then [⟨.text (slice body ⟨start, stop⟩), ⟨start, stop⟩⟩] else []

/-- Cuts of a body from the byte offset `offset` on, in front of the given bytes. The last
embedding ended at `start`, and the first `skip` bytes are passed over. The byte of a
backslash is 92. -/
def walk (body : List Char) (start offset skip : Nat) : List UInt8 → List Cut
  | [] => textBetween body start (byteLength body)
  | byte :: rest =>
    match skip with
    | more + 1 => walk body start (offset + 1) more rest
    | 0 =>
      if byte = 92 then walk body start (offset + 1) 1 rest
      else
        match embeddingAt? body offset byte with
        | some cut =>
          textBetween body start offset ++ cut ::
            walk body cut.span.stop (offset + 1) (cut.span.stop - (offset + 1)) rest
        | none => walk body start (offset + 1) 0 rest

/-- Cuts of the body of a string. -/
def cuts (body : List Char) : List Cut :=
  walk body 0 0 0 (Cursor.bytes { source := body })

/-! ## What a cut takes up -/

/-- The ways to write a segment. -/
def spellings : Segment → List (List Char)
  | .text run => [run]
  | .reference name => ['$' :: name, '$' :: '\x7b' :: (name ++ ['\x7d'])]
  | .command script _ => ['[' :: (script ++ [']'])]

/-- Offset that is recorded in a segment. -/
def offset? : Segment → Option Nat
  | .command _ before => some (byteLength before)
  | _ => none

/-- Whether the segment is text. -/
def isText : Segment → Bool
  | .text _ => true
  | _ => false

/-- A segment is written in the body where the cut stands, between two characters. -/
structure Cut.Stands (body : List Char) (cut : Cut) : Prop where
  written : ∃ before spelling after, spelling ∈ cut.segment.spellings ∧
    body = before ++ (spelling ++ after) ∧ cut.span.start = byteLength before ∧
      cut.span.stop = byteLength (before ++ spelling)
  nonempty : cut.segment.content ≠ []
  recorded : ∀ offset ∈ cut.segment.offset?, offset = cut.span.start

/-- The cuts stand in the body one behind the other, from an offset to the end. -/
def Tiles (body : List Char) : Nat → List Cut → Prop
  | start, [] => start = byteLength body
  | start, cut :: later =>
    cut.span.start = start ∧ cut.Stands body ∧ Tiles body cut.span.stop later

/-! ## Texts -/

section Texts

variable (passed run later : List Char)

theorem textBetween_append :
    textBetween (passed ++ (run ++ later)) (byteLength passed) (byteLength (passed ++ run)) =
      (ofText run).map (⟨·, ⟨byteLength passed, byteLength (passed ++ run)⟩⟩) := by
  unfold textBetween ofText
  rw [slice_append]
  cases run with
  | nil => simp
  | cons char rest =>
    have := char.utf8Size_pos
    simp [this]

theorem map_textBetween :
    (textBetween (passed ++ (run ++ later)) (byteLength passed)
      (byteLength (passed ++ run))).map Cut.segment = ofText run := by
  rw [textBetween_append, List.map_map]
  exact List.map_id _

variable {passed run later}

theorem Tiles.text {cuts : List Cut}
    (tiles : Tiles (passed ++ (run ++ later)) (byteLength (passed ++ run)) cuts) :
    Tiles (passed ++ (run ++ later)) (byteLength passed)
      (textBetween (passed ++ (run ++ later)) (byteLength passed) (byteLength (passed ++ run)) ++
        cuts) := by
  rw [textBetween_append]
  cases run with
  | nil => simpa [ofText] using tiles
  | cons char rest =>
    refine ⟨rfl, ⟨?_, List.cons_ne_nil _ _, by simp [offset?]⟩, tiles⟩
    exact ⟨passed, char :: rest, later, by simp [spellings], rfl, rfl, rfl⟩

end Texts

/-! ## Names -/

theorem isNameByte_of_ascii {char : Char} (ascii : char.toNat < 128) :
    isNameByte (UInt8.ofNat char.toNat) = Lexeme.isNameChar char := by
  have code : (UInt8.ofNat char.toNat).toNat = char.toNat := by
    rw [UInt8.toNat_ofNat']
    omega
  rw [isNameByte, code, Char.ofNat_toNat]

theorem isNameChar_ascii {char : Char} (name : Lexeme.isNameChar char) : char.toNat < 128 := by
  simp only [Lexeme.isNameChar, Char.isAlphanum, Char.isDigit, Bool.or_eq_true, Bool.and_eq_true,
    decide_eq_true_eq, beq_iff_eq, UInt32.le_iff_toNat_le] at name
  rcases name with (letter | digit) | rfl
  · exact isAlpha_ascii letter
  · exact digit.2.trans_lt (by decide)
  · decide

theorem isNameByte_of_high {byte : UInt8} (high : 128 ≤ byte.toNat) : isNameByte byte = false := by
  have code : (Char.ofNat byte.toNat).toNat = byte.toNat := by
    have small := byte.toNat_lt
    have valid : byte.toNat.isValidChar := .inl (by omega)
    rw [Char.ofNat, dif_pos valid]
    rfl
  by_contra name
  have ascii := isNameChar_ascii (eq_true_of_ne_false name)
  omega

/-- A name has the bytes of its characters. -/
theorem any_isNameByte (text : List Char) :
    (text.flatMap String.utf8EncodeChar).any isNameByte = text.any Lexeme.isNameChar := by
  induction text with
  | nil => rfl
  | cons char rest ih =>
    have here : (String.utf8EncodeChar char).any isNameByte = Lexeme.isNameChar char := by
      rcases utf8EncodeChar_cases char with ⟨ascii, one⟩ | ⟨other, high⟩
      · simp [one, isNameByte_of_ascii ascii]
      · have notName : Lexeme.isNameChar char = false := by
          by_contra name
          have := isNameChar_ascii (eq_true_of_ne_false name)
          omega
        rw [notName, List.any_eq_false]
        exact fun byte mem => by simp [isNameByte_of_high (high byte mem)]
    rw [List.flatMap_cons, List.any_append, here, ih, List.any_cons]

theorem leadingName_opens (text : List Char) : leadingName text <+: text := by
  fun_induction leadingName text with
  | case1 rest ih => simpa using ih
  | case2 char rest _ _ ih => simpa using ih
  | case3 => exact List.nil_prefix
  | case4 => exact List.nil_prefix

theorem nameLength_of_notName {byte : UInt8} {bytes : List UInt8}
    (notName : isNameByte byte = false)
    (apart : byte = 58 → bytes.head? ≠ some 58) : nameLength (byte :: bytes) = 0 := by
  unfold nameLength
  split <;> simp_all

theorem nameLength_eq (text : List Char) :
    nameLength (text.flatMap String.utf8EncodeChar) = byteLength (leadingName text) := by
  have colon : ':'.toNat < 128 := by decide
  have colonByte : String.utf8EncodeChar ':' = [58] := by decide
  fun_induction leadingName text with
  | case1 rest ih =>
    have size : Char.utf8Size ':' = 1 := rfl
    simp only [List.flatMap_cons, colonByte, List.cons_append, List.nil_append, nameLength, ih,
      byteLength_cons, size]
    omega
  | case2 char rest apart name ih =>
    have ascii := isNameChar_ascii name
    obtain ⟨-, one⟩ | ⟨other, -⟩ := utf8EncodeChar_cases char
    · have notColon : UInt8.ofNat char.toNat ≠ 58 := by
        intro same
        obtain rfl := (ofNat_toNat_eq_iff ascii colon).1 same
        simp [Lexeme.isNameChar] at name
      have size : char.utf8Size = 1 := by rw [← String.length_utf8EncodeChar, one]; rfl
      have nameByte := isNameByte_of_ascii ascii
      rw [List.flatMap_cons, one, List.singleton_append, nameLength, nameByte, if_pos name, ih,
        byteLength_cons, size, Nat.add_comm]
      exact fun _ same => absurd same notColon
    · omega
  | case3 char rest apart notName =>
    have notName : Lexeme.isNameChar char = false := by simpa using notName
    obtain ⟨ascii, one⟩ | ⟨other, high⟩ := utf8EncodeChar_cases char
    · rw [List.flatMap_cons, one, List.singleton_append]
      refine nameLength_of_notName ((isNameByte_of_ascii ascii).trans notName) ?_
      intro same next
      obtain rfl := (ofNat_toNat_eq_iff ascii colon).1 same
      obtain ⟨later, rfl⟩ := List.head?_eq_some_iff.1
        ((head?_flatMap_utf8EncodeChar colon rest).1 next)
      exact apart later rfl rfl
    · obtain ⟨byte, bytes, starts⟩ :=
        List.exists_cons_of_ne_nil (String.utf8EncodeChar_ne_nil (c := char))
      have above := high byte (by simp [starts])
      rw [List.flatMap_cons, starts, List.cons_append]
      refine nameLength_of_notName (isNameByte_of_high above) ?_
      rintro rfl
      exact absurd above (by decide)
  | case4 => rfl

/-- A brace among the bytes is one among the characters. -/
theorem takeWhile_flatMap (mark : Char) (ascii : mark.toNat < 128) (text : List Char) :
    ((text.flatMap String.utf8EncodeChar).takeWhile (· != UInt8.ofNat mark.toNat)).length =
      byteLength (text.takeWhile (· != mark)) := by
  induction text with
  | nil => rfl
  | cons char rest ih =>
    rcases utf8EncodeChar_cases char with ⟨small, one⟩ | ⟨other, high⟩
    · have same := ofNat_toNat_eq_iff small ascii
      have size : char.utf8Size = 1 := by rw [← String.length_utf8EncodeChar, one]; rfl
      rw [List.flatMap_cons, one, List.singleton_append, List.takeWhile_cons, List.takeWhile_cons]
      by_cases found : char = mark
      · simp [found]
      · have apart := mt same.1 found
        simp [found, apart, ih, size, Nat.add_comm]
    · have passes : ∀ byte ∈ String.utf8EncodeChar char,
        (byte != UInt8.ofNat mark.toNat) = true := by
        intro byte mem
        have above := high byte mem
        rw [bne_iff_ne]
        rintro rfl
        rw [UInt8.toNat_ofNat'] at above
        omega
      have apart : char ≠ mark := by
        rintro rfl
        omega
      rw [List.flatMap_cons, List.takeWhile_append_of_pos passes, List.length_append, ih,
        List.takeWhile_cons, if_pos (by simpa using apart), byteLength_cons,
        String.length_utf8EncodeChar]

/-! ## Embeddings -/

section Reference

variable {text name : List Char} {length : Nat}

/-- Both ways to refer to a variable. -/
theorem reference?_eq_some (found : reference? text = some (name, length)) :
    length ≤ text.length ∧ name ≠ [] ∧
      (text.take length = name ∨ text.take length = '\x7b' :: (name ++ ['\x7d'])) := by
  unfold reference? at found
  split at found
  case h_1 rest =>
    have whole : rest.takeWhile (· != '\x7d') ++ rest.dropWhile (· != '\x7d') = rest :=
      List.takeWhile_append_dropWhile
    have stops := List.head?_dropWhile_not (· != '\x7d') rest
    generalize rest.takeWhile (· != '\x7d') = inside at found whole
    generalize rest.dropWhile (· != '\x7d') = later at whole stops
    subst whole
    simp only at found
    split at found
    case isTrue => cases found
    case isFalse closed =>
      cases found
      cases later with
      | nil => simp at closed
      | cons brace later =>
        obtain rfl : brace = '\x7d' := by simpa using stops
        refine ⟨by simp, by rintro rfl; simp at closed, .inr ?_⟩
        simp [List.take_length_add_append]
  case h_2 =>
    simp only at found
    split at found
    case isTrue named =>
      cases found
      obtain ⟨later, whole⟩ := leadingName_opens text
      refine ⟨(leadingName_opens text).length_le, ?_, .inl ?_⟩
      · intro empty
        simp [empty] at named
      · exact (List.prefix_iff_eq_take.1 (leadingName_opens text)).symm
    case isFalse => cases found

/-- A plain name is what leads the text, if it has a character besides colons. -/
theorem reference?_plain (plain : text.head? ≠ some '\x7b') :
    reference? text = if (leadingName text).any Lexeme.isNameChar then
      some (leadingName text, (leadingName text).length) else none := by
  unfold reference?
  split
  · exact absurd rfl plain
  · rfl

end Reference

section Embedding

variable (before rest : List Char)

/-- The bytes behind a `$`. -/
theorem drop_behind_dollar :
    (Cursor.bytes { source := before ++ '$' :: rest }).drop (byteLength before + 1) =
      rest.flatMap String.utf8EncodeChar := by
  have size : byteLength (before ++ ['$']) = byteLength before + 1 := byteLength_append _ _
  rw [List.append_cons, ← size, Cursor.bytes, List.flatMap_append,
    ← length_flatMap_utf8EncodeChar, List.drop_left]

/-- A text that starts some bytes behind the end of another. -/
theorem slice_behind (mark name later : List Char) :
    slice (before ++ (mark ++ (name ++ later)))
      ⟨byteLength before + byteLength mark, byteLength before + byteLength mark + byteLength name⟩ =
        name := by
  have cut := slice_append (before ++ mark) name later
  rwa [List.append_assoc, byteLength_append, byteLength_append, byteLength_append] at cut

theorem variableAt?_braced :
    variableAt? (before ++ '$' :: '\x7b' :: rest) (byteLength before) =
      (reference? ('\x7b' :: rest)).map fun (name, length) =>
        (name, byteLength before + 1 + byteLength (('\x7b' :: rest).take length)) := by
  have openByte : String.utf8EncodeChar '\x7b' = [123] := by decide
  have size : Char.utf8Size '$' = 1 ∧ Char.utf8Size '\x7b' = 1 ∧ Char.utf8Size '\x7d' = 1 :=
    ⟨rfl, rfl, rfl⟩
  have inside := takeWhile_flatMap '\x7d' (by decide) rest
  have whole : rest.takeWhile (· != '\x7d') ++ rest.dropWhile (· != '\x7d') = rest :=
    List.takeWhile_append_dropWhile
  have stops := List.head?_dropWhile_not (· != '\x7d') rest
  have code : UInt8.ofNat '\x7d'.toNat = 125 := by decide
  rw [code] at inside
  simp only [variableAt?, drop_behind_dollar, reference?, List.flatMap_cons, openByte,
    List.singleton_append, List.head?_cons, if_true, List.tail_cons, inside,
    length_flatMap_utf8EncodeChar]
  generalize rest.takeWhile (· != '\x7d') = name at *
  generalize rest.dropWhile (· != '\x7d') = later at *
  subst whole
  have cut := slice_behind before ['$', '\x7b'] name later
  simp only [byteLength_cons, byteLength_nil, size, List.cons_append, List.nil_append] at cut
  cases later with
  | nil => simp
  | cons brace later =>
    obtain rfl : brace = '\x7d' := by simpa using stops
    cases name with
    | nil => simp
    | cons char rest =>
      have positive := char.utf8Size_pos
      have some : byteLength (char :: rest) ≠ 0 := by
        rw [byteLength_cons]
        omega
      have fewer : byteLength (char :: rest) ≠
          byteLength (char :: rest ++ '\x7d' :: later) := by
        rw [byteLength_append, byteLength_cons _ later]
        omega
      rw [if_neg (not_or.2 ⟨some, fewer⟩), cut, if_neg (by simp)]
      simp [List.take_length_add_append, size]
      omega

theorem variableAt?_plain (plain : rest.head? ≠ some '\x7b') :
    variableAt? (before ++ '$' :: rest) (byteLength before) =
      (reference? rest).map fun (name, length) =>
        (name, byteLength before + 1 + byteLength (rest.take length)) := by
  have brace := head?_flatMap_utf8EncodeChar (show '\x7b'.toNat < 128 by decide) rest
  have code : UInt8.ofNat '\x7b'.toNat = 123 := by decide
  rw [code] at brace
  simp only [variableAt?, drop_behind_dollar, brace, if_neg plain, nameLength_eq,
    reference?_plain plain]
  obtain ⟨later, whole⟩ := leadingName_opens rest
  generalize leadingName rest = name at *
  subst whole
  have taken : ((name ++ later).flatMap String.utf8EncodeChar).take (byteLength name) =
      name.flatMap String.utf8EncodeChar := by
    rw [List.flatMap_append, ← length_flatMap_utf8EncodeChar, List.take_left]
  have cut := slice_behind before ['$'] name later
  have size : byteLength ['$'] = 1 := rfl
  rw [size, List.singleton_append] at cut
  rw [taken, any_isNameByte, cut]
  split <;> simp

/-- The bytes of a name are its characters. -/
theorem variableAt?_append :
    variableAt? (before ++ '$' :: rest) (byteLength before) =
      (reference? rest).map fun (name, length) =>
        (name, byteLength before + 1 + byteLength (rest.take length)) := by
  by_cases opens : rest.head? = some '\x7b'
  · obtain ⟨inner, rfl⟩ := List.head?_eq_some_iff.1 opens
    exact variableAt?_braced before inner
  · exact variableAt?_plain before rest opens

/-- An embedding found at a byte is one found at the character that starts there. -/
theorem embeddingAt?_ascii (char : Char) (ascii : char.toNat < 128) :
    embeddingAt? (before ++ char :: rest) (byteLength before) (UInt8.ofNat char.toNat) =
      (embedding? before char rest).map fun (segment, length) =>
        ⟨segment, byteLength before, byteLength (before ++ char :: rest.take length)⟩ := by
  have dollar := ofNat_toNat_eq_iff ascii (show '$'.toNat < 128 by decide)
  have bracket := ofNat_toNat_eq_iff ascii (show '['.toNat < 128 by decide)
  have codes : UInt8.ofNat '$'.toNat = 36 ∧ UInt8.ofNat '['.toNat = 91 := by decide
  have sizes : Char.utf8Size '$' = 1 ∧ Char.utf8Size '[' = 1 := ⟨rfl, rfl⟩
  rw [codes.1] at dollar
  rw [codes.2] at bracket
  have origin : slice (before ++ char :: rest) ⟨0, byteLength before⟩ = before := by
    simpa using slice_append [] before (char :: rest)
  simp only [embeddingAt?, embedding?, dollar, bracket, origin, beq_iff_eq]
  split
  case isTrue found =>
    subst found
    rw [variableAt?_append]
    simp [Function.comp_def, sizes, Nat.add_assoc]
  split
  case isTrue found =>
    subst found
    cases read : script? rest with
    | none =>
      have missing : commandAt? (before ++ '[' :: rest) (byteLength before) = none := by
        by_contra found
        obtain ⟨⟨script, stop⟩, found⟩ := Option.ne_none_iff_exists'.1 found
        rw [(commandAt?_append.1 found).1] at read
        cases read
      rw [missing]
      rfl
    | some script =>
      obtain ⟨-, later, rfl⟩ := script?_closed read
      rw [commandAt?_append.2 ⟨read, rfl⟩]
      have size : Char.utf8Size ']' = 1 := rfl
      simp [List.take_length_add_append, sizes, size]
      omega
  case isFalse => rfl

theorem embeddingAt?_high {body : List Char} {offset : Nat} {byte : UInt8}
    (high : 128 ≤ byte.toNat) : embeddingAt? body offset byte = none := by
  have apart : byte ≠ 36 ∧ byte ≠ 91 := by
    constructor <;> rintro rfl <;> exact absurd high (by decide)
  rw [embeddingAt?, if_neg apart.1, if_neg apart.2]

/-- What an embedding starts with. -/
theorem embedding?_starts {before rest : List Char} {char : Char} {segment : Segment}
    {length : Nat} (found : embedding? before char rest = some (segment, length)) :
    char = '$' ∨ char = '[' := by
  rw [embedding?] at found
  grind

/-- An embedding stands where it was found, and is not text. -/
theorem embedding?_stands {before rest : List Char} {char : Char} {segment : Segment}
    {length : Nat} (found : embedding? before char rest = some (segment, length)) :
    length ≤ rest.length ∧ segment.isText = false ∧
      (⟨segment, byteLength before, byteLength (before ++ char :: rest.take length)⟩ :
        Cut).Stands (before ++ char :: rest) := by
  have whole : before ++ char :: rest =
      before ++ (char :: rest.take length ++ rest.drop length) := by simp
  rw [embedding?] at found
  split at found
  case isTrue dollar =>
    obtain rfl : char = '$' := by simpa using dollar
    obtain ⟨⟨name, _⟩, read, same⟩ := Option.map_eq_some_iff.1 found
    cases same
    obtain ⟨within, nonempty, written⟩ := reference?_eq_some read
    refine ⟨within, rfl, ⟨before, _, rest.drop length, ?_, whole, rfl, rfl⟩, nonempty, ?_⟩
    · rcases written with plain | braced
      · simp [spellings, plain]
      · simp [spellings, braced]
    · simp [offset?]
  split at found
  case isTrue bracket =>
    obtain rfl : char = '[' := by simpa using bracket
    obtain ⟨script, read, same⟩ := Option.map_eq_some_iff.1 found
    cases same
    obtain ⟨⟨first, more, rfl, -⟩, later, rfl⟩ := script?_closed read
    refine ⟨by simp, rfl, ⟨before, _, _, ?_, whole, rfl, rfl⟩, List.cons_ne_nil _ _, ?_⟩
    · simp [spellings, List.take_length_add_append]
    · simp [offset?]
  case isFalse => cases found

end Embedding

/-! ## Cuts and segments -/

section Walk

variable {body : List Char} {start offset skip : Nat} {bytes : List UInt8}

/-- Bytes that are hidden or of no character in ASCII are passed over. -/
theorem walk_passes (passes : bytes.length ≤ skip ∨ ∀ byte ∈ bytes, 128 ≤ byte.toNat)
    (later : List UInt8) :
    walk body start offset skip (bytes ++ later) =
      walk body start (offset + bytes.length) (skip - bytes.length) later := by
  induction bytes generalizing offset skip with
  | nil => rfl
  | cons byte rest ih =>
    have inner : rest.length ≤ skip - 1 ∨ ∀ byte ∈ rest, 128 ≤ byte.toNat := by
      refine passes.imp (fun hidden => ?_) fun high byte mem => high byte (by simp [mem])
      rw [List.length_cons] at hidden
      omega
    have next : walk body start offset skip (byte :: (rest ++ later)) =
        walk body start (offset + 1) (skip - 1) (rest ++ later) := by
      cases skip with
      | succ more => rfl
      | zero =>
        have high : 128 ≤ byte.toNat := by
          rcases passes with hidden | high
          · simp at hidden
          · exact high byte (by simp)
        have apart : byte ≠ 92 := by
          rintro rfl
          exact absurd high (by decide)
        rw [walk, if_neg apart, embeddingAt?_high high]
    rw [List.cons_append, next, ih inner, List.length_cons, Nat.sub_sub, Nat.add_assoc,
      Nat.add_comm 1]

/-- A character behind a backslash, or one that is passed over as a whole. -/
theorem walk_hidden (char : Char) (skips : char.utf8Size ≤ skip ∨ skip = 1) (rest : List Char) :
    walk body start offset skip ((char :: rest).flatMap String.utf8EncodeChar) =
      walk body start (offset + char.utf8Size) (skip - char.utf8Size)
        (rest.flatMap String.utf8EncodeChar) := by
  rw [List.flatMap_cons, walk_passes, String.length_utf8EncodeChar]
  rw [String.length_utf8EncodeChar]
  rcases skips with whole | rfl
  · exact .inl whole
  · rcases utf8EncodeChar_cases char with ⟨-, one⟩ | ⟨-, high⟩
    · left
      rw [← String.length_utf8EncodeChar, one]
      rfl
    · exact .inr high

/-- Cuts that stand behind each other, and the segments they are to be. -/
def Decomposes (body : List Char) (start : Nat) (cuts : List Cut) (segments : List Segment) :
    Prop :=
  cuts.map Cut.segment = segments ∧ Tiles body start cuts

/-- The text that was passed since the last embedding. -/
theorem Decomposes.text {passed run later : List Char} {cuts : List Cut}
    {segments : List Segment}
    (decomposes :
      Decomposes (passed ++ (run ++ later)) (byteLength (passed ++ run)) cuts segments) :
    Decomposes (passed ++ (run ++ later)) (byteLength passed)
      (textBetween (passed ++ (run ++ later)) (byteLength passed) (byteLength (passed ++ run)) ++
        cuts)
      (ofText run ++ segments) := by
  obtain ⟨same, tiles⟩ := decomposes
  exact ⟨by rw [List.map_append, map_textBetween, same], tiles.text⟩

/-- An embedding, in front of what follows it. -/
theorem Decomposes.embedding {before rest : List Char} {char : Char} {segment : Segment}
    {length : Nat} {cuts : List Cut} {segments : List Segment}
    (later : Decomposes (before ++ char :: rest) (byteLength (before ++ char :: rest.take length))
      cuts segments)
    (found : embedding? before char rest = some (segment, length)) :
    Decomposes (before ++ char :: rest) (byteLength before)
      (⟨segment, byteLength before, byteLength (before ++ char :: rest.take length)⟩ :: cuts)
      (segment :: segments) := by
  obtain ⟨-, -, stands⟩ := embedding?_stands found
  exact ⟨by rw [List.map_cons, later.1], rfl, stands, later.2⟩

/-- The text up to the end. -/
theorem decomposes_end (passed run : List Char) :
    Decomposes (passed ++ run) (byteLength passed)
      (textBetween (passed ++ run) (byteLength passed) (byteLength (passed ++ run)))
      (ofText run) := by
  have last : Decomposes (passed ++ (run ++ [])) (byteLength (passed ++ run)) [] [] :=
    ⟨rfl, by rw [List.append_nil]; rfl⟩
  simpa using last.text

/-- The walk over the bytes of a text finds its segments. -/
theorem walk_decomposes {before run text passed : List Char} {skip : Nat}
    (whole : body = before.reverse ++ text) (within : skip ≤ text.length)
    (since : before.reverse ++ text.take skip = passed ++ run.reverse) :
    Decomposes body (byteLength passed)
      (walk body (byteLength passed) (byteLength before.reverse) (byteLength (text.take skip))
        (text.flatMap String.utf8EncodeChar))
      (split before run skip text) := by
  have hides : String.utf8EncodeChar '\\' = [92] := by decide
  have size : Char.utf8Size '\\' = 1 := rfl
  have isBackslash {char : Char} (ascii : char.toNat < 128) :
      UInt8.ofNat char.toNat = 92 ↔ char = '\\' :=
    ofNat_toNat_eq_iff ascii (show '\\'.toNat < 128 by decide)
  fun_induction split before run skip text generalizing passed with
  | case1 before run skip =>
    rw [List.append_nil] at whole
    rw [List.take_nil, List.append_nil, ← whole] at since
    subst since
    exact decomposes_end passed run.reverse
  | case2 before run char rest more ih =>
    have inner := @ih passed (by simp [whole]) (by simpa using within)
      (by simpa using since)
    rw [List.take_succ_cons, byteLength_cons, walk_hidden char (.inl (Nat.le_add_right _ _)),
      Nat.add_sub_cancel_left]
    simpa using inner
  | case3 before run char plain =>
    obtain rfl : char = '\\' := by simpa using plain
    rw [List.take_zero, List.append_nil] at since
    have same : passed ++ ('\\' :: run).reverse = body := by simp [whole, since]
    have ends := decomposes_end passed ('\\' :: run).reverse
    rw [same] at ends
    simpa [hides, walk] using ends
  | case4 before run char plain hidden later ih =>
    obtain rfl : char = '\\' := by simpa using plain
    rw [List.take_zero, List.append_nil] at since
    have inner := @ih passed (by simp [whole]) (Nat.zero_le _) (by simp [since])
    have positive := hidden.utf8Size_pos
    have none : 1 - hidden.utf8Size = 0 := by omega
    rw [List.take_zero, byteLength_nil, List.flatMap_cons, hides, List.singleton_append, walk,
      if_pos rfl, walk_hidden hidden (.inr rfl), none]
    simpa [size, Nat.add_assoc, Nat.add_comm] using inner
  | case5 before run char rest plain segment length found ih =>
    obtain ⟨inside, -, -⟩ := embedding?_stands found
    have inner := @ih (before.reverse ++ char :: rest.take length) (by simp [whole]) inside
      (by simp)
    have start : char.toNat < 128 ∧ char.utf8Size = 1 := by
      rcases embedding?_starts found with rfl | rfl <;> decide
    have at? := embeddingAt?_ascii before.reverse rest char start.1
    rw [← whole, found, Option.map_some] at at?
    rw [List.take_zero, List.append_nil] at since
    have first : String.utf8EncodeChar char = [UInt8.ofNat char.toNat] := by
      rcases utf8EncodeChar_cases char with ⟨-, one⟩ | ⟨high, -⟩
      · exact one
      · omega
    have apart : UInt8.ofNat char.toNat ≠ 92 := mt (isBackslash start.1).1 (by simpa using plain)
    have next : byteLength before.reverse + 1 = byteLength (char :: before).reverse := by
      simp [start.2]
    have left : byteLength (before.reverse ++ char :: rest.take length) -
        (byteLength before.reverse + 1) = byteLength (rest.take length) := by
      simp only [byteLength_append, byteLength_cons, start.2]
      omega
    rw [List.take_zero, byteLength_nil, List.flatMap_cons, first, List.singleton_append, walk,
      if_neg apart, at?]
    simp only [left]
    rw [next]
    rw [whole] at inner ⊢
    have embedded := inner.embedding found
    rw [since, List.append_assoc] at embedded ⊢
    exact embedded.text
  | case6 before run char rest plain missing ih =>
    rw [List.take_zero, List.append_nil] at since
    have inner := @ih passed (by simp [whole]) (Nat.zero_le _) (by simp [since])
    have missing := missing
    rcases utf8EncodeChar_cases char with ⟨ascii, one⟩ | ⟨-, high⟩
    · have apart : UInt8.ofNat char.toNat ≠ 92 := mt (isBackslash ascii).1 (by simpa using plain)
      have charSize : char.utf8Size = 1 := by rw [← String.length_utf8EncodeChar, one]; rfl
      have at? := embeddingAt?_ascii before.reverse rest char ascii
      rw [← whole, missing, Option.map_none] at at?
      rw [List.take_zero, byteLength_nil, List.flatMap_cons, one, List.singleton_append, walk,
        if_neg apart, at?]
      simpa [charSize] using inner
    · rw [List.take_zero, byteLength_nil, List.flatMap_cons, walk_passes (.inr high), Nat.zero_sub,
        String.length_utf8EncodeChar]
      simpa using inner

end Walk

/-- The cuts of a body are its segments, and take up all of it. -/
theorem cuts_decompose (body : List Char) : Decomposes body 0 (cuts body) (segments body) :=
  @walk_decomposes body [] [] body [] 0 rfl (Nat.zero_le _) rfl

/-- An embedding separates the texts around it. -/
theorem spaced_embedding {run : List Char} {segment : Segment} {later : List Segment}
    (spaced : Spaced isText later) (notText : segment.isText = false) :
    Spaced isText (ofText run ++ segment :: later) := by
  have behind : Spaced isText (segment :: later) := by
    refine List.isChain_cons.2 ⟨fun next _ both => ?_, spaced⟩
    exact absurd both.1 (by simp [notText])
  unfold ofText
  split
  · exact behind
  · refine List.isChain_cons.2 ⟨?_, behind⟩
    rintro _ ⟨⟩ both
    exact absurd both.2 (by simp [notText])

theorem spaced_ofText (run : List Char) : Spaced isText (ofText run) := by
  unfold ofText
  split
  · exact .nil
  · exact .singleton _

theorem split_spaced (before run text : List Char) (skip : Nat) :
    Spaced isText (split before run skip text) := by
  fun_induction split before run skip text with
  | case1 => exact spaced_ofText _
  | case2 before run char rest more ih => exact ih
  | case3 => exact spaced_ofText _
  | case4 before run char _ hidden later ih => exact ih
  | case5 before run char rest _ segment length found ih =>
    obtain ⟨-, notText, -⟩ := embedding?_stands found
    exact spaced_embedding ih notText
  | case6 before run char rest _ _ ih => exact ih

end Segment

/-! ## Parts -/

section Parts

variable {grammar : Grammar} {token : Token} {state : State} {parts : List Expression}

theorem Spaced.concat (spaced : Spaced Expression.isString parts) {part : Expression}
    (other : ∀ last ∈ parts.getLast?, last.isString → part.isString = false) :
    Spaced Expression.isString (parts ++ [part]) := by
  refine List.isChain_append.2 ⟨spaced, .singleton _, fun last here next there both => ?_⟩
  obtain rfl : part = next := by simpa using there
  simp [other last here both.1] at both

/-- A text is joined to one in front of it. -/
theorem Spaced.appendText (spaced : Spaced Expression.isString parts) (text : String) :
    Spaced Expression.isString (appendText token parts text) := by
  unfold Parser.appendText
  split
  case h_1 first before last =>
    obtain ⟨front, rfl⟩ := List.getLast?_eq_some_iff.1 last
    rw [List.dropLast_concat]
    obtain ⟨spaced, -, between⟩ := List.isChain_append.1 spaced
    refine Spaced.concat spaced fun last here text => ?_
    exact absurd ⟨text, rfl⟩ (between last here _ rfl)
  case h_2 other =>
    refine spaced.concat fun last here text => ?_
    cases last <;> simp_all [Expression.isString]

theorem keepIfClean_gives {α : Type} {snippet : State} {kept dropped : α} {known : α → Prop}
    (ifKept : known kept) (ifDropped : known dropped) :
    Gives (keepIfClean snippet kept dropped) state fun result _ => known result := by
  unfold keepIfClean
  exact .ite (fun _ => .after fun _ _ => .pure ifKept) fun _ => .pure ifDropped

theorem substitution_notString {script : List Char} {line : Nat} :
    Gives (substitution grammar token script line) state
      fun result _ => ∀ value ∈ result, value.isString = false := by
  unfold substitution
  simp only [Gives.get_bind]
  refine .after fun commands _ => .ite (fun _ => .pure (by simp)) fun _ => ?_
  exact keepIfClean_gives (by simp [Expression.isString]) (by simp)

theorem interpolatedParts_spaced {segments : List Segment}
    (spaced : Spaced Expression.isString parts) :
    Gives (interpolatedParts grammar token parts segments) state
      fun final _ => Spaced Expression.isString final := by
  induction segments generalizing parts state with
  | nil => exact .pure spaced
  | cons segment later ih =>
    cases segment with
    | text text => exact ih (spaced.appendText _)
    | reference name => exact ih (spaced.concat fun _ _ _ => rfl)
    | command script before =>
      refine substitution_notString.bind fun found middle notString => ?_
      cases found with
      | none => exact ih (spaced.appendText _)
      | some embedded => exact ih (spaced.concat fun _ _ _ => notString embedded rfl)

/-- The parts of a string are not all text, and no two texts follow each other. -/
theorem quotedString_spaced :
    Gives (quotedString grammar token) state fun value _ =>
      ∀ place raw parts, value = .interpolated place raw parts →
        Spaced Expression.isString parts ∧ ∃ part ∈ parts, part.isString = false := by
  unfold quotedString
  refine (interpolatedParts_spaced .nil).bind fun parts _ spaced => ?_
  refine .ite (fun _ => .pure (by simp)) fun embeds => .pure ?_
  rintro _ _ _ ⟨⟩
  simpa using And.intro spaced embeds

end Parts

/-- The body of a string is taken apart without loss. The walk over its bytes cuts out its
segments: they stand one behind the other from the first byte to the last, each where its
span says and in one of the ways to write it, between two characters; none is empty and no
two texts follow each other. An interpolated string has a part that is no text, and its
texts do not follow each other either. -/
theorem segments_lossless :
    (∀ body, (Segment.cuts body).map Segment.Cut.segment = segments body ∧
      Segment.Tiles body 0 (Segment.cuts body) ∧ Spaced Segment.isText (segments body)) ∧
    ∀ grammar token state place raw parts last,
      quotedString grammar token state = some (.interpolated place raw parts, last) →
        Spaced Expression.isString parts ∧ ∃ part ∈ parts, part.isString = false := by
  refine ⟨fun body => ?_, fun grammar token state place raw parts last runs => ?_⟩
  · obtain ⟨same, tiles⟩ := Segment.cuts_decompose body
    exact ⟨same, tiles, Segment.split_spaced [] [] body 0⟩
  · exact quotedString_spaced _ _ runs place raw parts rfl

example : (Segment.cuts "a\\é$x[b]".toList).map Segment.Cut.span = [⟨0, 4⟩, ⟨4, 6⟩, ⟨6, 9⟩] := by
  decide +kernel

/-- Whether a string was read that is the text and one part behind it. -/
def opensWith (text : String) : Option (Expression × State) → Bool
  | some (.interpolated _ _ [.string _ before, _], _) => before == text
  | _ => false

/-- A script that does not parse joins the text in front of it. -/
theorem segments_lossless_rawScript :
    ∃ place raw first second last,
      quotedString ⟨unfold 9⟩ ⟨.string, "/[a-z]$x", 1, ⟨0, 10⟩, .none⟩ (.start [] []) =
        some (.interpolated place raw [.string first "/[a-z]", second], last) ∧
      Spaced Expression.isString [.string first "/[a-z]", second] ∧ second.isString = false := by
  have shape : opensWith "/[a-z]" (quotedString ⟨unfold 9⟩
      ⟨.string, "/[a-z]$x", 1, ⟨0, 10⟩, .none⟩ (.start [] [])) = true := by decide +kernel
  unfold opensWith at shape
  split at shape
  case h_1 place raw first text second last runs =>
    obtain rfl : text = "/[a-z]" := by simpa using shape
    obtain ⟨spaced, -⟩ := segments_lossless.2 _ _ _ _ _ _ _ runs
    have other : second.isString = false := by
      by_contra text
      exact spaced.rel ⟨rfl, by simpa using text⟩
    exact ⟨_, _, _, _, _, runs, spaced, other⟩
  case h_2 => cases shape

end IRule.Parser
