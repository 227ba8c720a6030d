import IRule.Parser.State
import IRule.Proofs.Lexer.Lexeme

/-!
# Reading one token

`Reading` says what one token does to the scanner: the input before it is a
gap, the text of the token and the input after it, the span covers the text,
and the brace depth changes by the share of the token. `Capturing` says the
same of a braced word taken verbatim.
-/

namespace IRule

open Text

namespace Text

/-- Every character takes at least one byte. -/
theorem length_le_byteLength (text : List Char) : text.length ≤ byteLength text := by
  induction text with
  | nil => simp
  | cons char rest ih =>
    have := char.utf8Size_pos
    simp
    omega

end Text

/-- Without its quotes a string is at least two bytes shorter. -/
theorem byteLength_unquote {text : List Char} (quoted : 2 ≤ text.length) :
    byteLength (unquote text) + 2 ≤ byteLength text := by
  obtain ⟨first, rest, rfl⟩ : ∃ first rest, text = first :: rest := by
    cases text <;> simp_all
  have nonempty : rest ≠ [] := by rintro rfl; simp at quoted
  have split := byteLength_append rest.dropLast [rest.getLast nonempty]
  rw [List.dropLast_append_getLast] at split
  have := first.utf8Size_pos
  have := (rest.getLast nonempty).utf8Size_pos
  simp only [unquote, List.drop_succ_cons, List.drop_zero, byteLength_cons,
    byteLength_nil] at split ⊢
  omega

/-- A scanner stands in a text: what is left is the end of the text, and the
offset counts the bytes before it. -/
def Scanner.StandsIn (scanner : Scanner) (source : List Char) : Prop :=
  ∃ passed, source = passed ++ scanner.rest ∧ scanner.offset = byteLength passed

namespace Scanner.StandsIn

variable {scanner : Scanner} {source : List Char}

/-- Moving on by some characters. -/
theorem move (stands : scanner.StandsIn source) (passed : List Char) {later : Scanner}
    (input : scanner.rest = passed ++ later.rest)
    (offset : later.offset = scanner.offset + byteLength passed) : later.StandsIn source := by
  obtain ⟨before, whole, counted⟩ := stands
  exact ⟨before ++ passed, by simp [whole, input], by simp [offset, counted]⟩

/-- Offset and rest make up the text. -/
theorem total (stands : scanner.StandsIn source) :
    scanner.offset + byteLength scanner.rest = byteLength source := by
  obtain ⟨before, whole, counted⟩ := stands
  simp [whole, counted]

end Scanner.StandsIn

/-! ## Tokens -/

/-- What reading a token does to the scanner: `gap` separates the token from what
was read before, `text` is its own. -/
structure Reading (before : Scanner) (gap text : List Char) (token : Token) (after : Scanner) :
    Prop where
  input : before.rest = gap ++ (text ++ after.rest)
  start : token.span.start = before.offset + byteLength gap
  stop : token.span.stop = token.span.start + byteLength text
  offset : after.offset = token.span.stop
  depth : (after.braceDepth : Int) = before.braceDepth + Parser.State.braceChange token.kind
  ends : token.kind = .endOfInput ↔ text = []
  last : token.kind = .endOfInput → after.rest = []
  quotes : token.kind = .string → byteLength token.literal.toList + 2 ≤ byteLength text
  signed : token.kind = .number → token.literal.toList.head? = some '-' → 2 ≤ byteLength text

/-- Counting a delimiter changes the brace depth by its share. -/
theorem Scanner.delimit_braceDepth (scanner : Scanner) (kind : TokenKind)
    (closes : kind = .closeBrace → 0 < scanner.braceDepth) :
    ((scanner.delimit kind).braceDepth : Int) =
      scanner.braceDepth + Parser.State.braceChange kind := by
  unfold Scanner.delimit Parser.State.braceChange
  split <;> simp_all
  omega

@[simp]
theorem Scanner.delimit_rest (scanner : Scanner) (kind : TokenKind) :
    (scanner.delimit kind).rest = scanner.rest := by
  unfold Scanner.delimit
  split <;> rfl

@[simp]
theorem Scanner.delimit_offset (scanner : Scanner) (kind : TokenKind) :
    (scanner.delimit kind).offset = scanner.offset := by
  unfold Scanner.delimit
  split <;> rfl

namespace Lexer

/-- What the scanner finds in front of the next token. -/
def trivia (lexer : Lexer) : Lexeme.Trivia :=
  Lexeme.Trivia.scan false lexer.scanner.rest

/-- Where the next token starts. -/
def tokenStart (lexer : Lexer) : Scanner :=
  lexer.scanner.advance lexer.trivia.length lexer.trivia.lines

/-- The lexeme of the next token. -/
def lexeme (lexer : Lexer) : Lexeme :=
  Lexeme.scan lexer.tokenStart.braceDepth lexer.tokenStart.bracketDepth lexer.tokenStart.rest

/-- What separates the next token from what was read before. -/
def tokenGap (lexer : Lexer) : List Char :=
  lexer.scanner.rest.take lexer.trivia.length

/-- The text of the next token. -/
def tokenText (lexer : Lexer) : List Char :=
  lexer.tokenStart.rest.take lexer.lexeme.length

/-- Where the next token stops, faults aside. -/
def tokenStop (lexer : Lexer) : Scanner :=
  (lexer.tokenStart.advance lexer.lexeme.length
    (Lexeme.countedLines lexer.tokenStart.rest)).delimit lexer.lexeme.kind

/-- The next token and the scanner behind it. -/
theorem next_eq (lexer : Lexer) :
    lexer.next =
      (⟨lexer.lexeme.kind, lexer.lexeme.literal lexer.tokenText, lexer.tokenStart.line,
        ⟨lexer.tokenStart.offset, lexer.tokenStop.offset⟩,
        lexer.trivia.spacing⟩,
      ⟨match lexer.lexeme.fault with
        | some fault => lexer.tokenStop.fail
            ⟨fault, ⟨lexer.tokenStart.offset, lexer.tokenStop.offset⟩, lexer.tokenStart.line⟩
        | none => lexer.tokenStop, lexer.scanner⟩) := rfl

theorem next_rest (lexer : Lexer) : lexer.next.2.scanner.rest = lexer.tokenStop.rest := by
  rw [next_eq]
  dsimp only
  split <;> rfl

theorem next_offset (lexer : Lexer) : lexer.next.2.scanner.offset = lexer.tokenStop.offset := by
  rw [next_eq]
  dsimp only
  split <;> rfl

theorem next_braceDepth (lexer : Lexer) :
    lexer.next.2.scanner.braceDepth = lexer.tokenStop.braceDepth := by
  rw [next_eq]
  dsimp only
  split <;> rfl

theorem next_bracketDepth (lexer : Lexer) :
    lexer.next.2.scanner.bracketDepth = lexer.tokenStop.bracketDepth := by
  rw [next_eq]
  dsimp only
  split <;> rfl

/-- A lexer remembers where it stood before its latest token. -/
@[simp]
theorem next_before (lexer : Lexer) : lexer.next.2.before = lexer.scanner := rfl

/-- Reading looks only at the place where the lexer stands. -/
theorem next_congr {first second : Lexer} (same : first.scanner = second.scanner) :
    first.next = second.next := by
  unfold next
  rw [same]

/-- The literal of a string is its body. -/
theorem next_literal_of_string {lexer : Lexer} (string : lexer.lexeme.kind = .string) :
    lexer.next.1.literal.toList = unquote lexer.tokenText := by
  have faultless : lexer.lexeme.fault = none := (Lexeme.scan_string string).1
  simp [next_eq, Lexeme.literal, faultless, string]

/-- The literal of a number is its text. -/
theorem next_literal_of_number {lexer : Lexer} (number : lexer.lexeme.kind = .number) :
    lexer.next.1.literal.toList = lexer.tokenText := by
  have faultless : lexer.lexeme.fault = none := (Lexeme.scan_number number).1
  simp [next_eq, Lexeme.literal, faultless, number]

/-- What reading the next token does. -/
theorem next_reading_text (lexer : Lexer) :
    Reading lexer.scanner lexer.tokenGap lexer.tokenText lexer.next.1 lexer.next.2.scanner := by
  constructor
  case input =>
    rw [next_rest]
    simp [tokenStop, tokenGap, tokenText, tokenStart, Scanner.advance]
  case start => rfl
  case stop => simp [next_eq, tokenStop, tokenText, Scanner.advance]
  case offset => rw [next_offset]; rfl
  case depth =>
    rw [next_braceDepth]
    exact Scanner.delimit_braceDepth _ _ Lexeme.scan_closeBrace
  case ends => exact Lexeme.scan_endOfInput_iff.trans Lexeme.take_scan_length_eq_nil_iff.symm
  case last =>
    intro ended
    have none : lexer.tokenStart.rest = [] := Lexeme.scan_endOfInput_iff.1 ended
    rw [next_rest]
    simp [tokenStop, Scanner.advance, none]
  case quotes =>
    intro string
    rw [next_literal_of_string string]
    exact byteLength_unquote (Lexeme.scan_string string).2
  case signed =>
    intro number negative
    rw [next_literal_of_number number] at negative
    have signed : lexer.tokenStart.rest.head? = some '-' := by
      simp only [tokenText, List.head?_take] at negative
      split at negative <;> simp_all
    exact ((Lexeme.scan_number number).2 signed).trans (length_le_byteLength _)

theorem next_reading (lexer : Lexer) :
    ∃ gap text, Reading lexer.scanner gap text lexer.next.1 lexer.next.2.scanner :=
  ⟨_, _, lexer.next_reading_text⟩

end Lexer

/-! ## Braced words -/

/-- What taking a braced word verbatim does to the scanner that stands behind the
opening brace: it comes behind the closing one, and the word says where it was. -/
structure Capturing (before : Scanner) (opening : Token) (word : RawBraced) (after : Scanner) :
    Prop where
  input : before.rest = word.body ++ '\x7d' :: after.rest
  offset : after.offset = before.offset + byteLength word.body + 1
  line : after.line = opening.line + word.body.count '\n'
  depth : after.braceDepth = before.braceDepth - 1
  brackets : after.bracketDepth = before.bracketDepth
  errors : after.errors = before.errors
  span : word.span = ⟨opening.span.start, after.offset⟩

namespace Lexer

section Bodies

variable {depth : Nat} {text : List Char} {body : Lexeme.Passage}

/-- The body of a braced word is followed by its closing brace. -/
theorem drop_bracedBody? (found : bracedBody? depth text = some body) :
    ∃ rest, text.drop body.length = '\x7d' :: rest := by
  fun_induction bracedBody? depth text generalizing body with
  | case1 | case2 => simp at found
  | case5 char later notHidden notOpening closes =>
    obtain rfl : ⟨0, 0⟩ = body := by simpa using found
    exact ⟨later, by simp_all⟩
  | case3 | case4 | case6 | case7 =>
    rename_i ih
    obtain ⟨inner, known, rfl⟩ := Option.map_eq_some_iff.1 found
    simpa using ih known

/-- Taken with its closing brace, the body is longer by the brace. -/
theorem take_bracedBody?_succ (found : bracedBody? depth text = some body) :
    text.take (body.length + 1) = text.take body.length ++ ['\x7d'] := by
  obtain ⟨rest, closing⟩ := drop_bracedBody? found
  rw [List.take_add_one, ← List.head?_drop, closing]
  rfl

/-- Escaped or not, every line feed of the body is counted, and none twice. -/
theorem bracedBody?_lines (found : bracedBody? depth text = some body) :
    body.lines = (text.take body.length).count '\n' := by
  fun_induction bracedBody? depth text generalizing body with
  | case1 | case2 => simp at found
  | case5 =>
    obtain rfl : ⟨0, 0⟩ = body := by simpa using found
    rfl
  | case3 | case4 | case6 | case7 =>
    rename_i ih
    obtain ⟨inner, known, rfl⟩ := Option.map_eq_some_iff.1 found
    simp_all [Lexeme.lineFeed, List.count_cons]

end Bodies

/-- What a successful capture does. -/
theorem capture?_capturing {lexer later : Lexer} {opening : Token} {word : RawBraced}
    (captured : lexer.capture? opening = some (word, later)) :
    opening.kind = .openBrace ∧ lexer.before.offset = opening.span.stop ∧
      later.before = lexer.before ∧ Capturing lexer.before opening word later.scanner := by
  unfold capture? at captured
  split at captured
  · rename_i latest
    split at captured
    · simp at captured
    · rename_i body found
      obtain ⟨rest, closing⟩ := drop_bracedBody? found
      simp only [Bool.and_eq_true, beq_iff_eq] at latest
      simp only [Option.some.injEq, Prod.mk.injEq] at captured
      obtain ⟨rfl, rfl⟩ := captured
      refine ⟨latest.1, latest.2, rfl, ?_⟩
      constructor
      case input =>
        simp [Scanner.delimit, Scanner.advance, ← List.drop_drop, closing]
        rw [← closing, List.take_append_drop]
      case offset =>
        simp [Scanner.delimit, Scanner.advance, take_bracedBody?_succ found, Nat.add_assoc]
        rfl
      case line => simp [bracedBody?_lines found]
      all_goals rfl
  · simp at captured

end Lexer

end IRule
