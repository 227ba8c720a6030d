import IRule.Proofs.Lexer.Counting

/-!
# Runs of bytes

The scanners of the lexer read characters, one at a time; a byte cursor passes over runs
of bytes. Where a character ends the two agree: a cursor that looks for bytes of ASCII
stops in front of the character that has the byte, whatever characters it passed over on
its way. So the plain text of a string, in a substitution or not, and a comment are the
runs that the cursor passes over, with the same line feeds in them.
-/

namespace IRule

namespace Text

/-- Whether a character is accepted, where bytes of ASCII are characters and all bytes of
other characters are treated alike. -/
def acceptsChar (accepts : UInt8 → Bool) (other : Bool) (char : Char) : Bool :=
  if char.toNat < 128 then accepts (UInt8.ofNat char.toNat) else other

/-- The bytes in front of the first that is refused are those of the characters in front
of the first that is. -/
theorem takeWhile_flatMap_utf8EncodeChar {accepts : UInt8 → Bool} {other : Bool}
    (alike : ∀ byte, 128 ≤ byte.toNat → accepts byte = other) (text : List Char) :
    (text.flatMap String.utf8EncodeChar).takeWhile accepts =
      (text.takeWhile (acceptsChar accepts other)).flatMap String.utf8EncodeChar := by
  induction text with
  | nil => rfl
  | cons char rest ih =>
    rw [List.flatMap_cons, List.takeWhile_cons]
    rcases utf8EncodeChar_cases char with ⟨ascii, one⟩ | ⟨wide, high⟩
    · have same : acceptsChar accepts other char = accepts (UInt8.ofNat char.toNat) :=
        if_pos ascii
      cases taken : accepts (UInt8.ofNat char.toNat) <;> simp [one, same, taken, ih]
    · have same : acceptsChar accepts other char = other := if_neg (Nat.not_lt.2 wide)
      have all : ∀ byte ∈ String.utf8EncodeChar char, accepts byte = other :=
        fun byte mem => alike byte (high byte mem)
      rw [same]
      cases other with
      | true =>
        rw [List.takeWhile_append_of_pos all, ih]
        simp
      | false =>
        obtain ⟨byte, bytes, starts⟩ :=
          List.exists_cons_of_ne_nil (String.utf8EncodeChar_ne_nil (c := char))
        simp [starts, all byte (by simp [starts])]

/-- To tell a byte of ASCII from the others is to tell its character from the others. -/
theorem acceptsChar_ne {mark : Char} (ascii : mark.toNat < 128) :
    acceptsChar (· != UInt8.ofNat mark.toNat) true = (· != mark) := by
  funext char
  unfold acceptsChar
  split
  · rename_i small
    rw [Bool.eq_iff_iff, bne_iff_ne, bne_iff_ne, ne_eq, ofNat_toNat_eq_iff small ascii]
  · rename_i wide
    have apart : char ≠ mark := fun same => wide (same ▸ ascii)
    simpa using apart

theorem acceptsChar_and (first second : UInt8 → Bool) :
    acceptsChar (fun byte => first byte && second byte) true =
      fun char => acceptsChar first true char && acceptsChar second true char := by
  funext char
  unfold acceptsChar
  split <;> rfl

namespace Cursor

/-- The cursor that has passed over the first part of a text. -/
def between (passed rest : List Char) : Cursor :=
  ⟨passed ++ rest, byteLength passed⟩

variable (passed rest : List Char)

theorem remaining_between :
    (between passed rest).remaining = rest.flatMap String.utf8EncodeChar := by
  simp only [between, remaining, bytes, List.flatMap_append]
  rw [← length_flatMap_utf8EncodeChar, List.drop_left]

theorem advance_between (run later : List Char) :
    (between passed (run ++ later)).advance (run.flatMap String.utf8EncodeChar).length =
      between (passed ++ run) later := by
  simp only [between, advance, length_flatMap_utf8EncodeChar, byteLength_append, List.append_assoc]

/-- A run of bytes of one class is a run of characters. -/
theorem advanceWhile_between {accepts : UInt8 → Bool} {other : Bool}
    (alike : ∀ byte, 128 ≤ byte.toNat → accepts byte = other) :
    (between passed rest).advanceWhile accepts =
      between (passed ++ rest.takeWhile (acceptsChar accepts other))
        (rest.dropWhile (acceptsChar accepts other)) := by
  have moved := advance_between passed (rest.takeWhile (acceptsChar accepts other))
    (rest.dropWhile (acceptsChar accepts other))
  rw [List.takeWhile_append_dropWhile] at moved
  rw [advanceWhile, remaining_between, takeWhile_flatMap_utf8EncodeChar alike, moved]

/-- Plain string text, in characters. -/
def isRunChar (inBracket : Bool) (char : Char) : Bool :=
  char != '"' && (char != '\\' && (char != '[' && (!inBracket || char != ']')))

theorem acceptsChar_interruptsString (inBracket : Bool) :
    acceptsChar (fun byte => !interruptsString inBracket byte) true = isRunChar inBracket := by
  have bytes : (fun byte => !interruptsString inBracket byte) = fun byte =>
      (byte != UInt8.ofNat '"'.toNat) && ((byte != UInt8.ofNat '\\'.toNat) &&
        ((byte != UInt8.ofNat '['.toNat) && (!inBracket || (byte != UInt8.ofNat ']'.toNat)))) := by
    funext byte
    cases inBracket <;> simp [interruptsString, bne, Bool.and_assoc]
  have closing : acceptsChar (fun byte => !inBracket || (byte != UInt8.ofNat ']'.toNat)) true =
      fun char => !inBracket || (char != ']') := by
    cases inBracket with
    | false => funext char; simp [acceptsChar]
    | true => exact acceptsChar_ne (by decide)
  rw [bytes, acceptsChar_and, acceptsChar_and, acceptsChar_and, acceptsChar_ne (by decide),
    acceptsChar_ne (by decide), acceptsChar_ne (by decide), closing]
  rfl

theorem interruptsString_alike (inBracket : Bool) (byte : UInt8) (wide : 128 ≤ byte.toNat) :
    (!interruptsString inBracket byte) = true := by
  have apart (mark : UInt8) (ascii : mark.toNat < 128) : (byte == mark) = false := by
    rw [beq_eq_false_iff_ne]
    rintro rfl
    omega
  simp [interruptsString, apart]

/-- A cursor passes over plain string text up to a character that interrupts it, and
counts the line feeds of the text. -/
theorem advanceStringRun_between (inBracket : Bool) :
    (between passed rest).advanceStringRun inBracket =
      (((rest.dropWhile (isRunChar inBracket)).flatMap String.utf8EncodeChar |>.head?,
          (rest.takeWhile (isRunChar inBracket)).count '\n'),
        between (passed ++ rest.takeWhile (isRunChar inBracket))
          (rest.dropWhile (isRunChar inBracket))) := by
  have moved := advance_between passed (rest.takeWhile (isRunChar inBracket))
    (rest.dropWhile (isRunChar inBracket))
  have whole : rest.flatMap String.utf8EncodeChar =
      (rest.takeWhile (isRunChar inBracket)).flatMap String.utf8EncodeChar ++
        (rest.dropWhile (isRunChar inBracket)).flatMap String.utf8EncodeChar := by
    rw [← List.flatMap_append, List.takeWhile_append_dropWhile]
  rw [List.takeWhile_append_dropWhile] at moved
  simp only [advanceStringRun, remaining_between]
  rw [takeWhile_flatMap_utf8EncodeChar (interruptsString_alike inBracket),
    acceptsChar_interruptsString, moved, count_flatMap_utf8EncodeChar]
  nth_rewrite 1 [whole]
  rw [List.getElem?_append_right le_rfl, Nat.sub_self, List.head?_eq_getElem?]

/-- A cursor passes over a comment up to the end of its line. -/
theorem advanceToLineEnd_between :
    (between passed rest).advanceToLineEnd =
      between (passed ++ rest.takeWhile (· != '\n')) (rest.dropWhile (· != '\n')) := by
  have line : (rest.flatMap String.utf8EncodeChar).takeWhile (· != 10) =
      (rest.takeWhile (· != '\n')).flatMap String.utf8EncodeChar := by
    rw [← acceptsChar_ne (show '\n'.toNat < 128 by decide)]
    refine takeWhile_flatMap_utf8EncodeChar (fun byte wide => ?_) rest
    simp only [bne_iff_ne]
    rintro rfl
    exact absurd wide (by decide)
  have whole := congrArg byteLength
    (List.takeWhile_append_dropWhile (p := (· != '\n')) (l := rest))
  rw [byteLength_append] at whole
  rw [advanceToLineEnd, remaining_between, line, length_flatMap_utf8EncodeChar]
  simp only [seek, sourceLength, between, byteLength_append, List.append_assoc,
    List.takeWhile_append_dropWhile]
  rw [Nat.min_eq_left (by omega)]

end Cursor

end Text

namespace Lexeme

open Text Cursor

/-- In front of what interrupts it, plain text of a string is passed over as a run. -/
theorem quotation_run (text : List Char) :
    quotation 0 text = (quotation 0 (text.dropWhile (isRunChar false))).extend
      (text.takeWhile (isRunChar false)).length
      ((text.takeWhile (isRunChar false)).count '\n') := by
  induction text with
  | nil => rfl
  | cons char rest ih =>
    cases plain : isRunChar false char with
    | false => simp [plain, Quotation.extend]
    | true =>
      have visible : char ≠ '"' ∧ char ≠ '\\' ∧ char ≠ '[' := by simpa [isRunChar] using plain
      rw [List.dropWhile_cons_of_pos plain, List.takeWhile_cons_of_pos plain, quotation]
      simp [visible, ih, Quotation.extend, lineFeed, List.count_cons, Nat.add_assoc]

/-- So is plain text of a substitution; in a string of its own brackets are plain too. -/
theorem substitution?_run (top : Pending) (outer : List Pending) (text : List Char) :
    let plain := isRunChar (top == .bracket)
    substitution? (top :: outer) text = (substitution? (top :: outer) (text.dropWhile plain)).map
      (·.extend (text.takeWhile plain).length ((text.takeWhile plain).count '\n')) := by
  intro plain
  induction text with
  | nil => rfl
  | cons char rest ih =>
    have nothing (found : Option Passage) : found.map (·.extend 0 0) = found := by
      cases found <;> rfl
    have further (found : Option Passage) (first second third fourth : Nat) :
        (found.map (·.extend first second)).map (·.extend third fourth) =
          found.map (·.extend (first + third) (second + fourth)) := by
      cases found <;> simp [Passage.extend, Nat.add_assoc]
    cases accepted : plain char with
    | false => simp [accepted, nothing]
    | true =>
      have step : substitution? (top :: outer) (char :: rest) =
          (substitution? (top :: outer) rest).map (·.extend 1 (lineFeed char)) := by
        cases top <;> simp_all [plain, isRunChar, substitution?]
      rw [List.dropWhile_cons_of_pos accepted, List.takeWhile_cons_of_pos accepted, step,
        ih, further]
      simp [lineFeed, List.count_cons]

/-- The plain text of a string is the run that a cursor passes over, and as many line
feeds are counted in it. What interrupts it is the next byte. -/
theorem quotation_advanceStringRun (passed text : List Char) :
    ∃ run rest, text = run ++ rest ∧
      (between passed text).advanceStringRun false =
        (((rest.flatMap String.utf8EncodeChar).head?, run.count '\n'),
          between (passed ++ run) rest) ∧
      quotation 0 text = (quotation 0 rest).extend run.length (run.count '\n') :=
  ⟨_, _, List.takeWhile_append_dropWhile.symm, advanceStringRun_between passed text false,
    quotation_run text⟩

/-- That of a substitution is too, where a closing bracket interrupts it unless it stands
in a string of its own. -/
theorem substitution?_advanceStringRun (top : Pending) (outer : List Pending)
    (passed text : List Char) :
    ∃ run rest, text = run ++ rest ∧
      (between passed text).advanceStringRun (top == .bracket) =
        (((rest.flatMap String.utf8EncodeChar).head?, run.count '\n'),
          between (passed ++ run) rest) ∧
      substitution? (top :: outer) text =
        (substitution? (top :: outer) rest).map (·.extend run.length (run.count '\n')) :=
  ⟨_, _, List.takeWhile_append_dropWhile.symm, advanceStringRun_between passed text _,
    substitution?_run top outer text⟩

/-- A comment is passed over up to the end of its line, as a cursor does. -/
theorem comment_advanceToLineEnd (passed text : List Char) :
    ∃ comment rest, text = comment ++ rest ∧
      (between passed text).advanceToLineEnd = between (passed ++ comment) rest ∧
      (Trivia.scan true text).afterComment =
        ⟨(Trivia.scan false rest).length + comment.length + 1, (Trivia.scan false rest).lines,
          { (Trivia.scan false rest).spacing with comment := true }⟩ :=
  ⟨_, _, List.takeWhile_append_dropWhile.symm, advanceToLineEnd_between passed text,
    Trivia.afterComment_scan text⟩

end Lexeme

end IRule
