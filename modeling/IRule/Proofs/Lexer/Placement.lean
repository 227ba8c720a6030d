import IRule.Proofs.Lexer.Lines
import IRule.Proofs.Lexer.Locality
import IRule.Proofs.Lexer.Tiling

/-!
# Where tokens stand

The literal of a token that is no string is on one line, as its text is; the literal of
a string is the text between its quotes. `Token.Located` puts this together with the
place and the line that the token carries, in a text whose first line has some number,
as the text of a snippet has.
-/

namespace IRule

open Text

namespace Lexeme

/-- A number is a numeral. -/
theorem scan_narrow {braceDepth bracketDepth : Nat} {text : List Char}
    (number : (scan braceDepth bracketDepth text).kind = .number) {char : Char}
    (mem : char ∈ text.take (scan braceDepth bracketDepth text).length) : char.utf8Size = 1 := by
  cases text with
  | nil => simp at mem
  | cons first rest =>
    revert number mem
    refine scan_cases (motive := fun lexeme => lexeme.kind = .number →
      char ∈ (first :: rest).take lexeme.length → char.utf8Size = 1)
      braceDepth bracketDepth first rest ?_ ?_ ?_ ?_ ?_ ?_ ?_ ?_ ?_ ?_ ?_
    case refine_7 => exact fun _ _ => take_numeral_narrow
    -- No other lexeme is a number.
    all_goals
      intros
      rename_i number _
      exfalso
      revert number
    case refine_2 | refine_4 =>
      unfold Lexeme.closer
      split <;> simp [illegal]
    case refine_5 =>
      rcases reference_kind rest with kind | kind <;> simp [kind]
    case refine_6 =>
      unfold Lexeme.quotedString
      split <;> simp [illegal]
    case refine_8 =>
      intro number
      have word := bareWord_isWord (first :: rest)
      simp [number, TokenKind.isWord] at word
    case refine_10 spelling kind known _ _ =>
      have others := (symbols_kind _ known).1
      simp_all
    all_goals simp [illegal]

end Lexeme

/-! ## Tokens -/

/-- The token stands behind `passed` and spells `text`, in a text whose first line is
`first`: its span and its line say so, and its literal is the text, unless it is illegal;
that of a string is what stands between the quotes. -/
structure Token.StandsBehind (token : Token) (first : Nat) (passed text : List Char) : Prop where
  start : token.span.start = byteLength passed
  stop : token.span.stop = byteLength (passed ++ text)
  line : token.line = first + passed.count '\n'
  verbatim : token.kind ≠ .illegal → token.kind ≠ .string → text = token.literal.toList
  quoted : token.kind = .string → text = '"' :: (token.literal.toList ++ ['"'])

/-- The token stands in the text. Only the literal of a string has line feeds, and that of
a number has single bytes. -/
structure Token.Located (token : Token) (source : List Char) (first : Nat) : Prop where
  stands : ∃ passed text rest, source = passed ++ (text ++ rest) ∧
    token.StandsBehind first passed text
  oneLine : token.kind ≠ .string → '\n' ∉ token.literal.toList
  narrow : token.kind = .number → ∀ char ∈ token.literal.toList, char.utf8Size = 1

/-- The line of a token is that of its place, and an opening brace ends on it. -/
theorem Token.Located.onLine {token : Token} {source : List Char} {first : Nat}
    (located : token.Located source first) : token.OnLine source first := by
  obtain ⟨passed, text, rest, split, stands⟩ := located.stands
  have start : lineFeeds source token.span.start = passed.count '\n' := by
    rw [split, stands.start, lineFeeds_byteLength]
  refine ⟨by rw [stands.line, start], fun opening => ?_⟩
  have brace : text = token.literal.toList :=
    stands.verbatim (by simp [opening]) (by simp [opening])
  have oneLine := located.oneLine (by simp [opening])
  rw [start, split, stands.stop, ← List.append_assoc, lineFeeds_byteLength, List.count_append,
    brace, List.count_eq_zero.2 oneLine, Nat.add_zero]

/-- The error stands in the text, and its message on one line. -/
structure LexicalError.Located (error : LexicalError) (source : List Char) (first : Nat) :
    Prop where
  stands : ∃ passed rest, source = passed ++ rest ∧ error.span.start = byteLength passed ∧
    error.line = first + passed.count '\n'
  oneLine : '\n' ∉ error.fault.message.toList

/-- A lexer in a text has counted the lines, and so have its errors. -/
structure Lexer.Located (lexer : Lexer) (source : List Char) (first : Nat) : Prop where
  here : lexer.scanner.CountsLines source first
  before : lexer.before.CountsLines source first
  errors : ∀ error ∈ lexer.scanner.errors, error.Located source first
  earlier : ∀ error ∈ lexer.before.errors, error.Located source first

namespace Lexer

variable {source : List Char} {first : Nat} {lexer : Lexer}

theorem lexeme_oneLine (lexer : Lexer) : lexer.lexeme.OneLine lexer.tokenStart.rest :=
  Lexeme.scan_oneLine (Lexeme.Trivia.onText_drop_scan false lexer.scanner.rest)

/-- The next token stands behind what was passed and the gap. -/
theorem next_stands (counts : lexer.scanner.CountsLines source first) :
    ∃ passed rest, source = passed ++ (lexer.tokenText ++ rest) ∧
      lexer.next.1.StandsBehind first passed lexer.tokenText := by
  have telling := lexer.next_telling
  have line := (next_onLine counts).line
  obtain ⟨passed, whole, offset, -⟩ := counts
  have start : lexer.next.1.span.start = byteLength (passed ++ lexer.tokenGap) := by
    rw [telling.start, offset, byteLength_append]
  have split : source = (passed ++ lexer.tokenGap) ++
      (lexer.tokenText ++ lexer.next.2.scanner.rest) := by
    rw [whole, telling.input]
    simp
  refine ⟨_, _, split, start, ?stop, ?line, ?verbatim, ?quoted⟩
  case stop => rw [telling.stop, start, ← byteLength_append]
  case line => rw [line, start, split, lineFeeds_byteLength]
  case verbatim =>
    intro legal unquoted
    rw [telling.verbatim legal unquoted, String.toList_ofList]
  case quoted =>
    intro string
    obtain ⟨body, text, literal⟩ := telling.quoted string
    rw [text, literal, String.toList_ofList]

theorem next_token_located (counts : lexer.scanner.CountsLines source first) :
    lexer.next.1.Located source first := by
  obtain ⟨passed, rest, split, stands⟩ := next_stands counts
  refine ⟨⟨passed, lexer.tokenText, rest, split, stands⟩, fun unquoted => ?_, fun number => ?_⟩
  · by_cases legal : lexer.next.1.kind = .illegal
    · have literal : lexer.next.1.literal = lexer.lexeme.literal lexer.tokenText := rfl
      have faulty : lexer.lexeme.fault ≠ none := (Lexeme.scan_tells _ _ _).faulty legal
      obtain ⟨fault, found⟩ := Option.ne_none_iff_exists'.1 faulty
      rw [literal, Lexeme.literal, found]
      exact lexer.lexeme_oneLine.message fault found
    · rw [← stands.verbatim legal unquoted]
      exact lexer.lexeme_oneLine.text (Lexeme.head?_ne_quote unquoted legal)
  · rw [← stands.verbatim (by simp [number]) (by simp [number])]
    exact fun char mem => Lexeme.scan_narrow number mem

theorem next_located (located : lexer.Located source first) :
    lexer.next.2.Located source first where
  here := next_countsLines located.here
  before := located.here
  errors := by
    intro error mem
    rw [next_errors] at mem
    rcases List.mem_append.1 mem with earlier | latest
    · exact located.errors error earlier
    · obtain ⟨fault, found, rfl⟩ : ∃ fault, lexer.lexeme.fault = some fault ∧
          ⟨fault, lexer.next.1.span, lexer.next.1.line⟩ = error := by
        simpa using latest
      obtain ⟨passed, rest, split, stands⟩ := next_stands located.here
      exact ⟨⟨passed, _, split, stands.start, stands.line⟩,
        lexer.lexeme_oneLine.message fault found⟩
  earlier := located.errors

/-- Taking a braced word verbatim undoes the token behind its brace. -/
theorem capture?_located {later : Lexer} {opening : Token} {word : RawBraced}
    (located : lexer.Located source first) (onLine : opening.OnLine source first)
    (captured : lexer.capture? opening = some (word, later)) : later.Located source first := by
  obtain ⟨-, -, before, capturing⟩ := capture?_capturing captured
  exact ⟨capture?_countsLines located.before onLine captured, before ▸ located.before,
    capturing.errors ▸ located.earlier, before ▸ located.earlier⟩

theorem start_located (text : List Char) {line : Nat} (counted : 1 ≤ line) :
    (start text line).Located text line := by
  have first : (start text line).scanner.line = line := Nat.max_eq_left counted
  have here : (start text line).scanner.CountsLines text line := ⟨[], rfl, rfl, by simp [first]⟩
  exact ⟨here, here, by simp [start], by simp [start]⟩

end Lexer

end IRule
