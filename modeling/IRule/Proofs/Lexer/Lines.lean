import IRule.Proofs.Lexer.Counting

/-!
# Lines

However tokens are read and braced words taken verbatim, the line of a lexer is
the line it started on plus the line feeds before its place in the text, and so
is the line of every token it has given. The counts that are added up on the way
are those of gaps, of lexemes and of bodies of braced words; that each of them is
right is shown where they are counted.
-/

namespace IRule

open Text

/-- Line feeds among the first `offset` bytes of a text. -/
def lineFeeds (text : List Char) (offset : Nat) : Nat :=
  ((Cursor.bytes { source := text }).take offset).count 10

/-- At the end of the start of a text, its line feeds have been passed. -/
theorem lineFeeds_byteLength (passed rest : List Char) :
    lineFeeds (passed ++ rest) (byteLength passed) = passed.count '\n' := by
  simp only [lineFeeds, Cursor.bytes, List.flatMap_append]
  rw [← length_flatMap_utf8EncodeChar, List.take_left, count_flatMap_utf8EncodeChar]

/-! ## Scanners -/

/-- A scanner stands in a text, whose first line is `first`, and has counted the lines
before its place. -/
def Scanner.CountsLines (scanner : Scanner) (source : List Char) (first : Nat) : Prop :=
  ∃ passed, source = passed ++ scanner.rest ∧ scanner.offset = byteLength passed ∧
    scanner.line = first + passed.count '\n'

namespace Scanner.CountsLines

variable {scanner : Scanner} {source : List Char} {first : Nat}

theorem standsIn (counts : scanner.CountsLines source first) : scanner.StandsIn source := by
  obtain ⟨passed, whole, offset, -⟩ := counts
  exact ⟨passed, whole, offset⟩

theorem line_eq (counts : scanner.CountsLines source first) :
    scanner.line = first + lineFeeds source scanner.offset := by
  obtain ⟨passed, rfl, offset, line⟩ := counts
  rw [line, offset, lineFeeds_byteLength]

/-- Lines stay counted as long as those that are passed over are. -/
theorem advance (counts : scanner.CountsLines source first) {count lines : Nat}
    (counted : lines = (scanner.rest.take count).count '\n') :
    (scanner.advance count lines).CountsLines source first := by
  obtain ⟨passed, whole, offset, line⟩ := counts
  refine ⟨passed ++ scanner.rest.take count, ?_, ?_, ?_⟩
  · simp [whole, Scanner.advance]
  · simp [offset, Scanner.advance]
  · simp [line, Scanner.advance, counted, Nat.add_assoc]

/-- Neither delimiters nor errors matter to the lines. -/
theorem congr {other : Scanner} (counts : scanner.CountsLines source first)
    (rest : other.rest = scanner.rest) (offset : other.offset = scanner.offset)
    (line : other.line = scanner.line) : other.CountsLines source first := by
  unfold CountsLines
  rw [rest, offset, line]
  exact counts

end Scanner.CountsLines

@[simp]
theorem Scanner.delimit_line (scanner : Scanner) (kind : TokenKind) :
    (scanner.delimit kind).line = scanner.line := by
  unfold Scanner.delimit
  split <;> rfl

/-! ## Tokens -/

theorem Lexeme.symbols_ne_openBrace : ∀ entry ∈ symbols, entry.2 ≠ .openBrace := by
  decide

/-- An opening brace is a token of its own. -/
theorem Lexeme.scan_openBrace {braceDepth bracketDepth : Nat} {text : List Char}
    (opening : (scan braceDepth bracketDepth text).kind = .openBrace) :
    text.take (scan braceDepth bracketDepth text).length = ['\x7b'] := by
  cases text with
  | nil => simp [scan] at opening
  | cons char rest =>
    revert opening
    refine scan_cases braceDepth bracketDepth char rest ?_ ?_ ?_ ?_ ?_ ?_ ?_ ?_ ?_ ?_ ?_
    · simp +contextual
    · unfold closer illegal; grind
    · simp
    · unfold closer illegal; grind
    · rcases reference_kind rest with kind | kind <;> simp [kind]
    · unfold quotedString illegal; grind
    · rcases numeral_kind (char :: rest) with kind | kind | kind <;> simp [kind]
    · intro _ opening
      have isWord := bareWord_isWord (char :: rest)
      simp [opening, TokenKind.isWord] at isWord
    · simp
    · intro spelling kind known _ opening
      exact absurd opening (symbols_ne_openBrace _ known)
    · simp [illegal]

/-- A token carries the line on which it starts. An opening brace ends on the same
line. -/
structure Token.OnLine (token : Token) (source : List Char) (first : Nat) : Prop where
  line : token.line = first + lineFeeds source token.span.start
  opening : token.kind = .openBrace →
    lineFeeds source token.span.stop = lineFeeds source token.span.start

namespace Lexer

variable {source : List Char} {first : Nat} {lexer : Lexer}

theorem next_line (lexer : Lexer) : lexer.next.2.scanner.line = lexer.tokenStop.line := by
  rw [next_eq]
  dsimp only
  split <;> rfl

theorem tokenStart_countsLines (counts : lexer.scanner.CountsLines source first) :
    lexer.tokenStart.CountsLines source first :=
  counts.advance lexer.trivia_lines

theorem next_countsLines (counts : lexer.scanner.CountsLines source first) :
    lexer.next.2.scanner.CountsLines source first := by
  have stop := (tokenStart_countsLines counts).advance lexer.countedLines_tokenStart
  exact stop.congr (by simp [next_rest, tokenStop]) (by simp [next_offset, tokenStop])
    (by simp [next_line, tokenStop])

theorem next_onLine (counts : lexer.scanner.CountsLines source first) :
    lexer.next.1.OnLine source first := by
  have start := tokenStart_countsLines counts
  refine ⟨start.line_eq, fun opening => ?_⟩
  have text : lexer.tokenText = ['\x7b'] := Lexeme.scan_openBrace opening
  have stop := (next_countsLines counts).line_eq
  have same : lexer.next.2.scanner.line = lexer.tokenStart.line := by
    rw [next_line, tokenStop, Scanner.delimit_line, Scanner.advance,
      lexer.countedLines_tokenStart, text]
    rfl
  have place : lexer.next.2.scanner.offset = lexer.next.1.span.stop := next_offset lexer
  rw [same, place, start.line_eq] at stop
  exact (Nat.add_left_cancel stop).symm

/-- The line of an opening brace is the one on which the lexer stands behind it. -/
theorem line_of_opening {opening : Token} (counts : lexer.before.CountsLines source first)
    (onLine : opening.OnLine source first) (kind : opening.kind = .openBrace)
    (latest : lexer.before.offset = opening.span.stop) : opening.line = lexer.before.line := by
  rw [counts.line_eq, latest, onLine.opening kind, ← onLine.line]

/-- Taking a braced word verbatim keeps count of the lines: from the line of its opening
brace on, those of its body are counted anew. -/
theorem capture?_countsLines {later : Lexer} {opening : Token} {word : RawBraced}
    (counts : lexer.before.CountsLines source first) (onLine : opening.OnLine source first)
    (captured : lexer.capture? opening = some (word, later)) :
    later.scanner.CountsLines source first := by
  obtain ⟨kind, latest, -, capturing⟩ := capture?_capturing captured
  have start := line_of_opening counts onLine kind latest
  obtain ⟨passed, whole, offset, line⟩ := counts
  refine ⟨passed ++ (word.body ++ ['\x7d']), ?_, ?_, ?_⟩
  · simp [whole, capturing.input]
  · rw [capturing.offset, offset, ← List.append_assoc, byteLength_append _ ['\x7d'],
      byteLength_append]
    rfl
  · simp [capturing.line, start, line, Nat.add_assoc]

end Lexer

/-! ## Calls of a lexer -/

/-- A call of a lexer: for the next token, or to take verbatim the braced word that
starts with one of the tokens it has given. -/
inductive Lexer.Call where
  | next
  | capture (index : Nat)
deriving DecidableEq, Repr

/-- A lexer in use, with the tokens it has given so far. -/
structure Lexer.Session where
  lexer : Lexer
  tokens : List Token := []

namespace Lexer.Session

/-- The session after one more call. A braced word that cannot be taken leaves the
lexer as it was. -/
def call (session : Session) : Call → Session
  | .next => ⟨session.lexer.next.2, session.tokens ++ [session.lexer.next.1]⟩
  | .capture index =>
    match session.tokens[index]?.bind session.lexer.capture? with
    | some (_, later) => { session with lexer := later }
    | none => session

/-- The session after a list of calls. -/
def after (calls : List Call) (session : Session) : Session :=
  calls.foldl call session

/-- What every call keeps: the lines are counted where the lexer stands and where it
stood before its latest token, and every token carries the line it starts on. -/
structure CountsLines (session : Session) (text : List Char) (first : Nat) : Prop where
  here : session.lexer.scanner.CountsLines text first
  before : session.lexer.before.CountsLines text first
  tokens : ∀ token ∈ session.tokens, token.OnLine text first

variable {session : Session} {text : List Char} {first : Nat}

theorem CountsLines.call (counts : session.CountsLines text first) (call : Call) :
    (session.call call).CountsLines text first := by
  cases call with
  | next =>
    refine ⟨next_countsLines counts.here, counts.here, fun token given => ?_⟩
    rcases List.mem_append.1 given with earlier | latest
    · exact counts.tokens token earlier
    · rw [List.mem_singleton.1 latest]
      exact next_onLine counts.here
  | capture index =>
    unfold Session.call
    dsimp only
    split
    · rename_i word later taken
      obtain ⟨opening, given, captured⟩ := Option.bind_eq_some_iff.1 taken
      have onLine := counts.tokens opening (List.mem_of_getElem? given)
      obtain ⟨-, -, before, -⟩ := capture?_capturing captured
      exact ⟨capture?_countsLines counts.before onLine captured, before ▸ counts.before,
        counts.tokens⟩
    · exact counts

theorem CountsLines.after (counts : session.CountsLines text first) (calls : List Call) :
    (session.after calls).CountsLines text first := by
  induction calls generalizing session with
  | nil => exact counts
  | cons call _ ih => exact ih (counts.call call)

theorem start_countsLines (text : List Char) (line : Nat) :
    CountsLines ⟨.start text line, []⟩ text (max line 1) := by
  have start : (Lexer.start text line).scanner.CountsLines text (max line 1) :=
    ⟨[], rfl, rfl, rfl⟩
  exact ⟨start, start, by simp⟩

end Lexer.Session

/-- After any calls of a lexer, its line, added up from what was counted on the way, is
the line it started on plus the line feeds before its place, and so is the line of every
token it has given. A braced word that can be taken verbatim leads to a line that is so
too: that of the opening brace plus the line feeds of the body, whether a backslash
hides them or not. Lines count from 1. -/
theorem Lexer.line_tracking (text : List Char) (line : Nat) (calls : List Call) :
    let session := Session.after calls ⟨.start text line, []⟩
    session.lexer.line = max line 1 + lineFeeds text session.lexer.scanner.offset ∧
    (∀ token ∈ session.tokens,
      token.line = max line 1 + lineFeeds text token.span.start) ∧
    ∀ opening ∈ session.tokens, ∀ word later,
      session.lexer.capture? opening = some (word, later) →
        later.line = opening.line + word.body.count '\n' ∧
        later.line = max line 1 + lineFeeds text later.scanner.offset := by
  intro session
  have counts : session.CountsLines text (max line 1) :=
    (Session.start_countsLines text line).after calls
  refine ⟨counts.here.line_eq, fun token given => (counts.tokens token given).line, ?_⟩
  intro opening given word later captured
  obtain ⟨-, -, -, capturing⟩ := capture?_capturing captured
  have behind := capture?_countsLines counts.before (counts.tokens opening given) captured
  exact ⟨capturing.line, behind.line_eq⟩

/-- A string with a hidden line feed and a substitution, a continuation, a comment,
a braced word taken verbatim, and a string whose substitution never closes. -/
example :
    let text :=
      ("set x \"a\\\n[f \"\n\"\n]\n\" \\\n # note\n" ++
        "\x7by\n\x7bz\x7d \\\n\x7d \"[w\n\"\n").toList
    let session := Lexer.Session.after
      [.next, .next, .next, .next, .next, .capture 3, .next, .next] ⟨.start text 7, []⟩
    session.tokens.map Token.line = [7, 7, 7, 13, 13, 15, 17] ∧ session.lexer.line = 17 := by
  decide +kernel

end IRule
